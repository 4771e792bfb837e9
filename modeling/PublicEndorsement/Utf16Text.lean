import Mathlib.Tactic

/-!
# Texts as sequences of UTF-16 code units

The character data of a language whose strings are arrays of UTF-16 code units,
and the UTF-8 bytes such a text is written as. An unpaired surrogate has no UTF-8
form and is written as a question mark; on texts without unpaired surrogates the
encoding loses nothing.
-/

namespace PublicEndorsement

abbrev Utf16 := List UInt16

namespace Utf16

def isHighSurrogate (u : UInt16) : Bool := 0xD800 ≤ u.toNat && u.toNat < 0xDC00

def isLowSurrogate (u : UInt16) : Bool := 0xDC00 ≤ u.toNat && u.toNat < 0xE000

def pairValue (high low : UInt16) : ℕ :=
  0x10000 + (high.toNat - 0xD800) * 0x400 + (low.toNat - 0xDC00)

def single (u : UInt16) : Char :=
  if isHighSurrogate u || isLowSurrogate u then '?' else Char.ofNat u.toNat

def characters : Utf16 → List Char
  | [] => []
  | [u] => [single u]
  | u :: v :: rest =>
    if isHighSurrogate u && isLowSurrogate v then Char.ofNat (pairValue u v) :: characters rest
    else single u :: characters (v :: rest)

def units (c : Char) : Utf16 :=
  if c.toNat < 0x10000 then [c.toNat.toUInt16]
  else [(0xD800 + (c.toNat - 0x10000) / 0x400).toUInt16,
    (0xDC00 + (c.toNat - 0x10000) % 0x400).toUInt16]

def ofString (s : String) : Utf16 := s.toList.flatMap units

def utf8 (s : Utf16) : List UInt8 := (characters s).flatMap String.utf8EncodeChar

/-- Every surrogate is part of a pair. -/
def WellFormed : Utf16 → Bool
  | [] => true
  | [u] => !(isHighSurrogate u || isLowSurrogate u)
  | u :: v :: rest =>
    if isHighSurrogate u && isLowSurrogate v then WellFormed rest
    else !(isHighSurrogate u || isLowSurrogate u) && WellFormed (v :: rest)

theorem toNat_ofNat {n : ℕ} (h : n.isValidChar) : (Char.ofNat n).toNat = n := by
  rw [Char.ofNat, dif_pos h]
  rfl

theorem units_single {u : UInt16} (h : (isHighSurrogate u || isLowSurrogate u) = false) :
    units (single u) = [u] := by
  have hu : u.toNat < 65536 := u.toNat_lt
  have hbounds : u.toNat < 0xD800 ∨ 0xE000 ≤ u.toNat := by
    simp [isHighSurrogate, isLowSurrogate] at h
    omega
  have hvalid : u.toNat.isValidChar := by
    rcases hbounds with hlow | hhigh
    · exact .inl hlow
    · exact .inr ⟨by omega, by omega⟩
  simp [single, h, units, toNat_ofNat hvalid, hu]

theorem units_pair {u v : UInt16} (hu : isHighSurrogate u = true) (hv : isLowSurrogate v = true) :
    units (Char.ofNat (pairValue u v)) = [u, v] := by
  simp only [isHighSurrogate, isLowSurrogate, Bool.and_eq_true, decide_eq_true_eq] at hu hv
  have hvalue : 0x10000 ≤ pairValue u v ∧ pairValue u v < 0x110000 := by
    unfold pairValue
    omega
  have hchar : (Char.ofNat (pairValue u v)).toNat = pairValue u v :=
    toNat_ofNat (.inr ⟨by omega, by omega⟩)
  have hhigh : 0xD800 + (pairValue u v - 0x10000) / 0x400 = u.toNat := by
    unfold pairValue
    omega
  have hlow : 0xDC00 + (pairValue u v - 0x10000) % 0x400 = v.toNat := by
    unfold pairValue
    omega
  rw [units, hchar, if_neg (by omega), hhigh, hlow]
  simp

/-- A text without unpaired surrogates is the text of its characters. -/
theorem flatMap_units_characters (s : Utf16) (h : WellFormed s = true) :
    (characters s).flatMap units = s := by
  induction s using characters.induct with
  | case1 => rfl
  | case2 u =>
    have hu : (isHighSurrogate u || isLowSurrogate u) = false := by simpa [WellFormed] using h
    simp [characters, units_single hu]
  | case3 u v rest hpair ih =>
    rw [WellFormed, if_pos hpair] at h
    rw [characters, if_pos hpair, List.flatMap_cons, ih h]
    rw [Bool.and_eq_true] at hpair
    rw [units_pair hpair.1 hpair.2]
    rfl
  | case4 u v rest hpair ih =>
    rw [WellFormed, if_neg hpair, Bool.and_eq_true] at h
    have hu : (isHighSurrogate u || isLowSurrogate u) = false := by simpa using h.1
    rw [characters, if_neg hpair, List.flatMap_cons, ih h.2, units_single hu]
    rfl

theorem characters_cons {u : UInt16} (h : isHighSurrogate u = false) (rest : Utf16) :
    characters (u :: rest) = single u :: characters rest := by
  cases rest with
  | nil => rfl
  | cons v rest => simp [characters, h]

theorem toNat_lt_or (c : Char) : c.toNat < 0xD800 ∨ 0xDFFF < c.toNat ∧ c.toNat < 0x110000 := c.valid

/-- The characters of a text built from characters are those characters. -/
theorem characters_flatMap_units (l : List Char) : characters (l.flatMap units) = l := by
  induction l with
  | nil => rfl
  | cons c l ih =>
    have hc := toNat_lt_or c
    by_cases hbmp : c.toNat < 0x10000
    · have hu : c.toNat.toUInt16.toNat = c.toNat := by
        rw [Nat.toUInt16_eq, UInt16.toNat_ofNat']
        omega
      have hhigh : isHighSurrogate c.toNat.toUInt16 = false := by
        simp [isHighSurrogate, hu]
        omega
      have hlow : isLowSurrogate c.toNat.toUInt16 = false := by
        simp [isLowSurrogate, hu]
        omega
      rw [List.flatMap_cons, units, if_pos hbmp, List.singleton_append, characters_cons hhigh, ih,
        single, hhigh, hlow, hu]
      simp
    · have hu : (0xD800 + (c.toNat - 0x10000) / 0x400).toUInt16.toNat =
          0xD800 + (c.toNat - 0x10000) / 0x400 := by
        rw [Nat.toUInt16_eq, UInt16.toNat_ofNat']
        omega
      have hv : (0xDC00 + (c.toNat - 0x10000) % 0x400).toUInt16.toNat =
          0xDC00 + (c.toNat - 0x10000) % 0x400 := by
        rw [Nat.toUInt16_eq, UInt16.toNat_ofNat']
        omega
      have hhigh : isHighSurrogate (0xD800 + (c.toNat - 0x10000) / 0x400).toUInt16 = true := by
        simp only [isHighSurrogate, hu, Bool.and_eq_true, decide_eq_true_eq]
        omega
      have hlow : isLowSurrogate (0xDC00 + (c.toNat - 0x10000) % 0x400).toUInt16 = true := by
        simp only [isLowSurrogate, hv, Bool.and_eq_true, decide_eq_true_eq]
        omega
      have hvalue : pairValue (0xD800 + (c.toNat - 0x10000) / 0x400).toUInt16
          (0xDC00 + (c.toNat - 0x10000) % 0x400).toUInt16 = c.toNat := by
        have hsplit := Nat.div_add_mod (c.toNat - 0x10000) 0x400
        unfold pairValue
        omega
      rw [List.flatMap_cons, units, if_neg hbmp, List.cons_append, List.singleton_append,
        characters, hhigh, hlow, hvalue, ih]
      simp

@[simp] theorem ofString_inj {s t : String} : ofString s = ofString t ↔ s = t := by
  constructor
  · intro h
    have hlist := congrArg characters h
    rw [ofString, ofString, characters_flatMap_units, characters_flatMap_units] at hlist
    exact String.toList_inj.mp hlist
  · exact congrArg ofString

/-- ASCII characters are their own UTF-8 bytes. -/
theorem utf8_flatMap_units_ascii {l : List Char} (h : ∀ c ∈ l, c.toNat < 128) :
    utf8 (l.flatMap units) = l.map (fun c => c.toNat.toUInt8) := by
  rw [utf8, characters_flatMap_units]
  induction l with
  | nil => rfl
  | cons c l ih =>
    have hlt := h c List.mem_cons_self
    have hc : c.val.toNat ≤ 127 := by
      rw [Char.toNat_val]
      omega
    have hbyte : String.utf8EncodeChar c = [c.toNat.toUInt8] := by
      rw [String.utf8EncodeChar]
      exact if_pos hc
    rw [List.flatMap_cons, hbyte, ih (fun d hd => h d (List.mem_cons_of_mem c hd))]
    rfl

/-- UTF-8 is uniquely decodable. -/
theorem characters_eq_of_utf8_eq {s t : Utf16} (h : utf8 s = utf8 t) :
    characters s = characters t := by
  have hbytes : (characters s).utf8Encode = (characters t).utf8Encode :=
    congrArg List.toByteArray h
  rw [← String.toByteArray_ofList, ← String.toByteArray_ofList, String.toByteArray_inj] at hbytes
  exact String.ofList_injective hbytes

theorem eq_of_utf8_eq {s t : Utf16} (hs : WellFormed s = true) (ht : WellFormed t = true)
    (h : utf8 s = utf8 t) : s = t := by
  rw [← flatMap_units_characters s hs, ← flatMap_units_characters t ht,
    characters_eq_of_utf8_eq h]

end Utf16
end PublicEndorsement
