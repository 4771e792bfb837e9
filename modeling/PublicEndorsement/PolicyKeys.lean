import PublicEndorsement.StatementClaims

/-!
# Keys of the policy bucket

A publisher's policy is stored under its escaped id, and a caller is counted under its
client id. Escaping mixes characters that are kept with sequences of five, whose digits are
themselves characters that are kept. It can nevertheless be undone, so different
publishers and different callers never meet in one key.
-/

namespace PublicEndorsement.Pes

namespace CallerIdentity

def hexValue (c : UInt16) : ℕ := if c.toNat < 58 then c.toNat - 48 else c.toNat - 87

/-- The inverse of `escape`: four digits follow each underscore. -/
def unescape : Utf16 → Utf16
  | [] => []
  | c :: rest =>
    if c = 95 then
      match rest with
      | a :: b :: d :: e :: rest =>
        (4096 * hexValue a + 256 * hexValue b + 16 * hexValue d + hexValue e).toUInt16 ::
          unescape rest
      | rest => c :: unescape rest
    else c :: unescape rest

theorem toNat_hexDigit {n : ℕ} (h : n < 16) :
    (hexDigit n).toNat = if n < 10 then 48 + n else 87 + n := by
  unfold hexDigit
  split_ifs
  · simp only [Nat.toUInt16_eq, UInt16.toNat_ofNat']
    omega
  · simp only [Nat.toUInt16_eq, UInt16.toNat_ofNat']
    omega

theorem hexValue_hexDigit {n : ℕ} (h : n < 16) : hexValue (hexDigit n) = n := by
  rw [hexValue, toNat_hexDigit h]
  split_ifs <;> omega

/-- Underscores are escaped, so a character that is kept starts no sequence. -/
theorem ne_underscore_of_isSafe {c : UInt16} (h : isSafe c = true) : c ≠ 95 := by
  rintro rfl
  revert h
  decide

theorem unescape_cons_of_isSafe {c : UInt16} (h : isSafe c = true) (rest : Utf16) :
    unescape (c :: rest) = c :: unescape rest := by
  rw [unescape.eq_def]
  exact if_neg (ne_underscore_of_isSafe h)

theorem unescape_escapeUnit_append (c : UInt16) (rest : Utf16) :
    unescape (escapeUnit c ++ rest) = c :: unescape rest := by
  have hlt : c.toNat < 65536 := c.toNat_lt
  have hvalue : 4096 * (c.toNat / 4096) + 256 * (c.toNat / 256 % 16) + 16 * (c.toNat / 16 % 16) +
      c.toNat % 16 = c.toNat := by omega
  simp only [escapeUnit, List.cons_append, List.nil_append, unescape, if_true]
  rw [hexValue_hexDigit (by omega), hexValue_hexDigit (by omega), hexValue_hexDigit (by omega),
    hexValue_hexDigit (by omega), hvalue]
  simp

theorem unescape_escape (s : Utf16) : unescape (escape s) = s := by
  induction s with
  | nil => rfl
  | cons c s ih =>
    rw [escape, List.flatMap_cons, ← escape]
    split_ifs with hsafe
    · rw [List.singleton_append, unescape_cons_of_isSafe hsafe, ih]
    · rw [unescape_escapeUnit_append, ih]

theorem escape_injective : Function.Injective escape :=
  Function.LeftInverse.injective unescape_escape

theorem isSpiffeChar_of_isSafe {c : UInt16} (h : isSafe c = true) :
    Claim.isSpiffeChar c = true := by
  simp only [isSafe, Bool.or_eq_true, Bool.and_eq_true, decide_eq_true_eq, beq_iff_eq] at h
  simp only [Claim.isSpiffeChar, Claim.isDomainChar, Claim.isLabelChar, charBetween, Claim.dot,
    Bool.or_eq_true, Bool.and_eq_true, decide_eq_true_eq, ← UInt16.toNat_inj]
  simp only [Char.reduceToNat, UInt16.reduceToNat]
  omega

theorem isSafe_hexDigit {n : ℕ} (h : n < 16) : isSafe (hexDigit n) = true := by
  simp only [isSafe, toNat_hexDigit h, Bool.or_eq_true, Bool.and_eq_true, decide_eq_true_eq,
    beq_iff_eq]
  split_ifs <;> omega

/-- What is written is over `[a-zA-Z0-9._-]`. -/
theorem isSpiffeChar_of_mem_escape {s : Utf16} {c : UInt16} (h : c ∈ escape s) :
    Claim.isSpiffeChar c = true := by
  rw [escape, List.mem_flatMap] at h
  obtain ⟨u, -, hc⟩ := h
  split_ifs at hc with hsafe
  · rw [List.mem_singleton.mp hc]
    exact isSpiffeChar_of_isSafe hsafe
  · have hlt : u.toNat < 65536 := u.toNat_lt
    simp only [escapeUnit, List.mem_cons, List.not_mem_nil, or_false] at hc
    rcases hc with rfl | rfl | rfl | rfl | rfl
    · decide
    · exact isSpiffeChar_of_isSafe (isSafe_hexDigit (by omega))
    · exact isSpiffeChar_of_isSafe (isSafe_hexDigit (by omega))
    · exact isSpiffeChar_of_isSafe (isSafe_hexDigit (by omega))
    · exact isSpiffeChar_of_isSafe (isSafe_hexDigit (by omega))

def slash : UInt16 := 47

theorem slash_notMem_escape (s : Utf16) : slash ∉ escape s := by
  intro h
  exact absurd (isSpiffeChar_of_mem_escape h) (by decide)

theorem splitOn_getClientId (identity : CallerIdentity) :
    identity.getClientId.splitOn slash = [escape identity.issuer, escape identity.subject] := by
  rw [splitOn_eq_pair_iff]
  refine ⟨?_, slash_notMem_escape _, slash_notMem_escape _⟩
  rw [getClientId, List.append_assoc]
  rfl

/-- The client id determines issuer and subject. -/
theorem getClientId_inj (identity identity' : CallerIdentity) :
    identity.getClientId = identity'.getClientId ↔
      identity.issuer = identity'.issuer ∧ identity.subject = identity'.subject := by
  constructor
  · intro h
    have hsplit := splitOn_getClientId identity
    rw [h, splitOn_getClientId] at hsplit
    injection hsplit with hissuer hrest
    injection hrest with hsubject
    exact ⟨(escape_injective hissuer).symm, (escape_injective hsubject).symm⟩
  · rintro ⟨hissuer, hsubject⟩
    rw [getClientId, getClientId, hissuer, hsubject]

end CallerIdentity

def PolicyStore.put (store : PolicyStore) (key : Utf16) (object : PolicyObject) : PolicyStore :=
  { store with getObject := Function.update store.getObject key object }

theorem S3PolicyProvider.get_put_of_ne (store : PolicyStore) {key key' : Utf16}
    (object : PolicyObject) (h : key ≠ key') :
    S3PolicyProvider.get (store.put key' object) key = S3PolicyProvider.get store key := by
  simp only [S3PolicyProvider.get, PolicyStore.put, Function.update_of_ne h]

namespace PublisherVerifier

/-- The one object `verify` reads is that of the escaped id. -/
theorem verify_put_of_ne {ω : Type} (store : PolicyStore) {publisherId key : Utf16}
    (object : PolicyObject) (h : CallerIdentity.escape publisherId ≠ key)
    (identity : CallerIdentity) (signature : StatementSignature) :
    (verify (store.put key object) publisherId identity signature : Traced (Event ω) Exn Unit) =
      verify store publisherId identity signature := by
  simp only [verify, S3PolicyProvider.get_put_of_ne store object h]

end PublisherVerifier

/-- Escaping can be undone and writes safe characters only. So no id brings a separator
into the key, a client id determines its caller, and the verdict on one publisher does not
depend on the policy object of another. -/
theorem CallerIdentity.escape_separates (ω : Type) :
    (∀ s, unescape (escape s) = s) ∧
    Function.Injective escape ∧
    (∀ s, ∀ c ∈ escape s, Claim.isSpiffeChar c = true) ∧
    (∀ s, slash ∉ escape s) ∧
    (∀ identity identity' : CallerIdentity, identity.getClientId = identity'.getClientId ↔
      identity.issuer = identity'.issuer ∧ identity.subject = identity'.subject) ∧
    (∀ (store : PolicyStore) (publisherId other : Utf16) (object : PolicyObject)
      (identity : CallerIdentity) (signature : StatementSignature), publisherId ≠ other →
      (PublisherVerifier.verify (store.put (escape other) object) publisherId identity signature :
        Traced (Event ω) Exn Unit) =
          PublisherVerifier.verify store publisherId identity signature) := by
  refine ⟨unescape_escape, escape_injective, fun s c h => isSpiffeChar_of_mem_escape h,
    slash_notMem_escape, getClientId_inj, ?_⟩
  intro store publisherId other object identity signature hne
  exact PublisherVerifier.verify_put_of_ne store object (escape_injective.ne hne) identity signature

end PublicEndorsement.Pes
