import Mathlib.Tactic

/-!
# Encodings that can be read off the front of a longer text

A prefix codec carries the proof that its reader recovers the value and leaves
the rest alone, whatever the rest is. Unique decodability and the absence of
proper prefixes follow from that one field; codecs are put together from literal
texts, decimal numbers and counted blocks.
-/

namespace PublicEndorsement

structure PrefixCodec (α β : Type) where
  encode : α → List β
  decode : List β → Option (α × List β)
  decode_encode : ∀ a rest, decode (encode a ++ rest) = some (a, rest)

namespace PrefixCodec

variable {α β γ : Type}

theorem encode_append_inj (c : PrefixCodec α β) {a b : α} {r s : List β}
    (h : c.encode a ++ r = c.encode b ++ s) : a = b ∧ r = s := by
  have hread := c.decode_encode a r
  rw [h, c.decode_encode b s] at hread
  obtain ⟨hab, hrs⟩ := Prod.mk.inj (Option.some.inj hread)
  exact ⟨hab.symm, hrs.symm⟩

theorem encode_injective (c : PrefixCodec α β) : Function.Injective c.encode := by
  intro a b h
  have happend : c.encode a ++ [] = c.encode b ++ [] := by rw [h]
  exact (c.encode_append_inj happend).1

/-- No encoding is a proper prefix of another. -/
theorem eq_of_encode_prefix (c : PrefixCodec α β) {a b : α} (h : c.encode a <+: c.encode b) :
    a = b := by
  obtain ⟨r, hr⟩ := h
  have happend : c.encode a ++ r = c.encode b ++ [] := by rw [hr, List.append_nil]
  exact (c.encode_append_inj happend).1

def literal [DecidableEq β] (text : List β) : PrefixCodec Unit β where
  encode _ := text
  decode l := if text <+: l then some ((), l.drop text.length) else none
  decode_encode _ rest := by simp

def pair (c : PrefixCodec α β) (d : PrefixCodec γ β) : PrefixCodec (α × γ) β where
  encode p := c.encode p.1 ++ d.encode p.2
  decode l := (c.decode l).bind (fun (a, l) => (d.decode l).map (fun (b, l) => ((a, b), l)))
  decode_encode p rest := by
    rw [List.append_assoc, c.decode_encode]
    simp [d.decode_encode]

def after [DecidableEq β] (text : List β) (c : PrefixCodec α β) : PrefixCodec α β where
  encode a := text ++ c.encode a
  decode l := ((literal text).decode l).bind (fun (_, l) => c.decode l)
  decode_encode a rest := by
    have hliteral := (literal text).decode_encode () (c.encode a ++ rest)
    rw [List.append_assoc]
    simp only [literal] at hliteral ⊢
    rw [hliteral]
    exact c.decode_encode a rest

end PrefixCodec

section Decimal

/-- The ASCII digits of a number, without leading zeros. -/
def decimalDigits (n : ℕ) : List UInt8 := (Nat.toDigits 10 n).map (fun c => c.toNat.toUInt8)

def isDecimalDigit (b : UInt8) : Bool := 48 ≤ b.toNat && b.toNat ≤ 57

def decimalValue (digits : List UInt8) : ℕ :=
  digits.foldl (fun n b => 10 * n + (b.toNat - 48)) 0

theorem digit_toNat {c : Char} (h : c.isDigit = true) : (c.toNat.toUInt8).toNat = c.toNat := by
  have hbounds : 48 ≤ c.toNat ∧ c.toNat ≤ 57 := by
    simpa [Char.isDigit, UInt32.le_iff_toNat_le] using h
  rw [Nat.toUInt8_eq, UInt8.toNat_ofNat']
  omega

theorem isDecimalDigit_of_mem {n : ℕ} {b : UInt8} (h : b ∈ decimalDigits n) :
    isDecimalDigit b = true := by
  obtain ⟨c, hc, rfl⟩ := List.mem_map.mp h
  have hdigit := Nat.isDigit_of_mem_toDigits (by norm_num) (by norm_num) hc
  have hbounds : 48 ≤ c.toNat ∧ c.toNat ≤ 57 := by
    simpa [Char.isDigit, UInt32.le_iff_toNat_le] using hdigit
  simp [isDecimalDigit, digit_toNat hdigit, hbounds]

theorem decimalValue_decimalDigits (n : ℕ) : decimalValue (decimalDigits n) = n := by
  have hvalue : Nat.ofDigitChars 10 (Nat.toDigits 10 n) 0 = n :=
    Nat.ofDigitChars_toDigits (by norm_num) (by norm_num)
  conv_rhs => rw [← hvalue]
  unfold decimalValue decimalDigits Nat.ofDigitChars
  rw [List.foldl_map]
  apply List.foldl_ext
  intro m c hc
  rw [digit_toNat (Nat.isDigit_of_mem_toDigits (by norm_num) (by norm_num) hc)]
  rfl

def PrefixCodec.decimal (separator : UInt8) (hsep : isDecimalDigit separator = false) :
    PrefixCodec ℕ UInt8 where
  encode n := decimalDigits n ++ [separator]
  decode l :=
    match l.dropWhile isDecimalDigit with
    | b :: rest =>
      if b = separator then some (decimalValue (l.takeWhile isDecimalDigit), rest) else none
    | [] => none
  decode_encode n rest := by
    have hall : ∀ b ∈ decimalDigits n, isDecimalDigit b = true := fun b hb =>
      isDecimalDigit_of_mem hb
    rw [List.append_assoc, List.dropWhile_append_of_pos hall, List.takeWhile_append_of_pos hall]
    simp [hsep, decimalValue_decimalDigits]

def PrefixCodec.counted (separator : UInt8) (hsep : isDecimalDigit separator = false) :
    PrefixCodec (List UInt8) UInt8 where
  encode data := (PrefixCodec.decimal separator hsep).encode data.length ++ data
  decode l := ((PrefixCodec.decimal separator hsep).decode l).bind (fun (n, l) =>
    if n ≤ l.length then some (l.take n, l.drop n) else none)
  decode_encode data rest := by
    rw [List.append_assoc, (PrefixCodec.decimal separator hsep).decode_encode]
    simp

end Decimal
end PublicEndorsement
