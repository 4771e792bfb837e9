import PublicEndorsement.DecimalNumerals

/-!
# The address of the parent instance

`GetProxyVsockAddr` reads the context id and the port of the parent instance from the
environment. `EnvGetVal` converts a string by `strtoul`, keeps the low 32 bits and never
looks at where the conversion stopped.

* `strtoul` is the C function in base 10, for an `unsigned long` of 64 bits;
* `EnvContract` is the documented contract of `EnvGetVal`, over all strings of an
  environment, with what it means for the address;
* `ReadAsWritten` says which strings are treated as the contract demands, and
  `envContract_iff` that the contract holds exactly when every string is one of them.
-/

namespace PublicEndorsement.Proxy

open Numerals

/-- The bytes of a C string, without the null that ends it. -/
abbrev CString := List UInt8

def cString (s : String) : CString := s.toList.map (fun c => c.toNat.toUInt8)

abbrev Environment := CString → Option CString

def ulongMax : UInt64 := 0xFFFFFFFFFFFFFFFF
def uintMax : UInt32 := 0xFFFFFFFF

def isSpace (c : UInt8) : Bool := c = 0x20 || (0x09 ≤ c && c ≤ 0x0D)

/-- The sign and the digits that `strtoul` finds at the front of a string. -/
structure Subject where
  negative : Bool
  digits : CString
  deriving DecidableEq

def subject (s : CString) : Subject :=
  match s.dropWhile isSpace with
  | 0x2D :: rest => ⟨true, rest.takeWhile (isDigit UInt8.toNat)⟩
  | 0x2B :: rest => ⟨false, rest.takeWhile (isDigit UInt8.toNat)⟩
  | rest => ⟨false, rest.takeWhile (isDigit UInt8.toNat)⟩

def Subject.integer (t : Subject) : ℤ :=
  if t.negative then -(value UInt8.toNat t.digits : ℤ) else value UInt8.toNat t.digits

inductive Errno where
  | zero
  | erange
  deriving DecidableEq, Repr

/-- The returned number, and `errno` where it was zero before. A string without digits is
no error, and a minus sign negates the number as an unsigned one. -/
def strtoul (s : CString) : UInt64 × Errno :=
  let t := subject s
  let n := value UInt8.toNat t.digits
  if 2 ^ 64 ≤ n then (ulongMax, .erange)
  else (if t.negative then -UInt64.ofNat n else UInt64.ofNat n, .zero)

def envGetVal (getenv : Environment) (envName : Option CString) (val : UInt32) : UInt32 :=
  match envName with
  | none => val
  | some name =>
    match getenv name with
    | none => val
    | some valStr =>
      let result := strtoul valStr
      let v := result.1.toUInt32
      if result.2 = .zero ∧ v < uintMax then v else val

def kParentCidEnv : CString := cString "PROXY_PARENT_CID"
def kParentPortEnv : CString := cString "PROXY_PARENT_PORT"
def kDefaultParentCid : UInt32 := 3
def kDefaultParentPort : UInt32 := 8888

def afVsock : UInt16 := 40

structure SockaddrVm where
  svmFamily : UInt16
  svmPort : UInt32
  svmCid : UInt32
  deriving DecidableEq, Repr

def getProxyVsockAddr (getenv : Environment) : SockaddrVm where
  svmFamily := afVsock
  svmPort := envGetVal getenv (some kParentPortEnv) kDefaultParentPort
  svmCid := envGetVal getenv (some kParentCidEnv) kDefaultParentCid

/-! ## The contract -/

/-- The value was written in the variable as a decimal numeral. -/
def WrittenIn (getenv : Environment) (name : CString) (v : UInt32) : Prop :=
  ∃ s, getenv name = some s ∧ IsNumeral UInt8.toNat s v.toNat

/-- `val` is overwritten with the number if the string denotes one below `UINT_MAX`, and
untouched otherwise. -/
structure EnvContract (getenv : Environment) : Prop where
  overwritten : ∀ name s n val, getenv name = some s → IsNumeral UInt8.toNat s n →
    n < uintMax.toNat → (envGetVal getenv (some name) val).toNat = n
  untouched : ∀ name s val, getenv name = some s →
    (∀ n, IsNumeral UInt8.toNat s n → uintMax.toNat ≤ n) → envGetVal getenv (some name) val = val
  unset : ∀ envName val, (∀ name, envName = some name → getenv name = none) →
    envGetVal getenv envName val = val
  cid : (getProxyVsockAddr getenv).svmCid = kDefaultParentCid ∨
    WrittenIn getenv kParentCidEnv (getProxyVsockAddr getenv).svmCid
  port : (getProxyVsockAddr getenv).svmPort = kDefaultParentPort ∨
    WrittenIn getenv kParentPortEnv (getProxyVsockAddr getenv).svmPort

/-- The string is a numeral below `UINT_MAX`, or else the integer at its front is out of
range for an `unsigned long` or has `UINT_MAX` as its low 32 bits. -/
def ReadAsWritten (s : CString) : Prop :=
  (∃ n, IsNumeral UInt8.toNat s n ∧ n < uintMax.toNat) ∨ 2 ^ 64 ≤ |(subject s).integer| ∨
    (subject s).integer % 2 ^ 32 = 2 ^ 32 - 1

theorem abs_integer (t : Subject) : |t.integer| = value UInt8.toNat t.digits := by
  unfold Subject.integer
  split_ifs with h
  · rw [abs_neg, Nat.abs_cast]
  · exact Nat.abs_cast _

/-- The narrowed result is the integer modulo `2 ^ 32`. -/
theorem toNat_strtoul {s : CString} (h : |(subject s).integer| < 2 ^ 64) :
    ((strtoul s).1.toUInt32.toNat : ℤ) = (subject s).integer % 2 ^ 32 := by
  rw [abs_integer] at h
  have hrange : ¬ 2 ^ 64 ≤ value UInt8.toNat (subject s).digits := by omega
  simp only [strtoul, if_neg hrange, Subject.integer]
  cases (subject s).negative with
  | false =>
    simp only [Bool.false_eq_true, if_false, UInt64.toNat_toUInt32, UInt64.toNat_ofNat']
    omega
  | true =>
    simp only [if_true, UInt64.toNat_toUInt32, UInt64.toNat_neg, UInt64.toNat_ofNat',
      UInt64.size]
    omega

theorem strtoul_errno (s : CString) :
    (strtoul s).2 = .zero ↔ |(subject s).integer| < 2 ^ 64 := by
  rw [abs_integer]
  unfold strtoul
  by_cases h : 2 ^ 64 ≤ value UInt8.toNat (subject s).digits
  · simp only [if_pos h, reduceCtorEq, false_iff]
    omega
  · simp only [if_neg h, true_iff]
    omega

/-- The function stores the narrowed result unless one of the two tests fails. -/
theorem envGetVal_of_set {getenv : Environment} {name s : CString} (hset : getenv name = some s)
    (val : UInt32) :
    envGetVal getenv (some name) val =
      if |(subject s).integer| < 2 ^ 64 ∧ (subject s).integer % 2 ^ 32 ≠ 2 ^ 32 - 1 then
        (strtoul s).1.toUInt32 else val := by
  simp only [envGetVal, hset, strtoul_errno]
  refine if_congr (and_congr_right fun hrange => ?_) rfl rfl
  have hv := toNat_strtoul hrange
  have hmax : uintMax.toNat = 2 ^ 32 - 1 := rfl
  rw [UInt32.lt_iff_toNat_lt, hmax]
  omega

/-- A numeral is all there is at the front of itself. -/
theorem subject_of_isNumeral {s : CString} {n : ℕ} (h : IsNumeral UInt8.toNat s n) :
    subject s = ⟨false, s⟩ := by
  have htake := h.takeWhile
  obtain ⟨hne, hdigits, -⟩ := h
  obtain ⟨c, rest, rfl⟩ := List.exists_cons_of_ne_nil hne
  have hc : 48 ≤ c.toNat ∧ c.toNat ≤ 57 := of_decide_eq_true (hdigits c List.mem_cons_self)
  have hspace : isSpace c = false := by
    have hblank : c ≠ 0x20 := by rintro rfl; simp at hc
    have hcontrol : ¬ c ≤ 0x0D := by
      rw [UInt8.le_iff_toNat_le]
      change ¬ c.toNat ≤ 13
      omega
    simp [isSpace, hblank, hcontrol]
  have hminus : c ≠ 0x2D := by rintro rfl; simp at hc
  have hplus : c ≠ 0x2B := by rintro rfl; simp at hc
  unfold subject
  rw [List.dropWhile_cons_of_neg (by simp [hspace])]
  split
  · next heq => exact absurd (List.cons.inj heq).1 hminus
  · next heq => exact absurd (List.cons.inj heq).1 hplus
  · rw [htake]

theorem integer_of_isNumeral {s : CString} {n : ℕ} (h : IsNumeral UInt8.toNat s n) :
    (subject s).integer = n := by
  rw [subject_of_isNumeral h, Subject.integer, if_neg Bool.false_ne_true, h.2.2]

/-! ## When it holds -/

section Contract

variable {getenv : Environment} {name s : CString}

theorem overwritten_of_isNumeral {n : ℕ} (hset : getenv name = some s)
    (hn : IsNumeral UInt8.toNat s n) (hlt : n < uintMax.toNat) (val : UInt32) :
    (envGetVal getenv (some name) val).toNat = n := by
  have hmax : uintMax.toNat = 2 ^ 32 - 1 := rfl
  have hint := integer_of_isNumeral hn
  have habs : |(subject s).integer| = n := by rw [hint, Nat.abs_cast]
  have hrange : |(subject s).integer| < 2 ^ 64 := by omega
  have hlow : (subject s).integer % 2 ^ 32 ≠ 2 ^ 32 - 1 := by omega
  rw [envGetVal_of_set hset, if_pos ⟨hrange, hlow⟩]
  have hv := toNat_strtoul hrange
  omega

/-- Where the contract asks for nothing to change, nothing changes. -/
theorem untouched_of_readAsWritten (hset : getenv name = some s) (hread : ReadAsWritten s)
    (hbig : ∀ n, IsNumeral UInt8.toNat s n → uintMax.toNat ≤ n) (val : UInt32) :
    envGetVal getenv (some name) val = val := by
  rw [envGetVal_of_set hset]
  apply if_neg
  rintro ⟨hrange, hlow⟩
  rcases hread with ⟨n, hn, hlt⟩ | hhuge | hmax
  · exact absurd hlt (not_lt.mpr (hbig n hn))
  · omega
  · exact hlow hmax

/-- A string that leaves every value alone fails one of the two tests. -/
theorem readAsWritten_of_untouched (hset : getenv name = some s)
    (h : ∀ val, envGetVal getenv (some name) val = val) : ReadAsWritten s := by
  by_contra hnot
  simp only [ReadAsWritten, not_or, not_le] at hnot
  obtain ⟨-, hrange, hlow⟩ := hnot
  -- No value can equal its successor, and both would have to be the stored one.
  have hzero := h 0
  have hone := h 1
  rw [envGetVal_of_set hset, if_pos ⟨hrange, hlow⟩] at hzero hone
  rw [hzero] at hone
  exact absurd hone (by decide)

/-- What is found in a variable is the default or was written there. -/
theorem default_or_written (name : CString) (val : UInt32)
    (h : ∀ s, getenv name = some s → ReadAsWritten s) :
    envGetVal getenv (some name) val = val ∨
      WrittenIn getenv name (envGetVal getenv (some name) val) := by
  cases hset : getenv name with
  | none => exact .inl (by simp [envGetVal, hset])
  | some s =>
    by_cases hn : ∃ n, IsNumeral UInt8.toNat s n ∧ n < uintMax.toNat
    · obtain ⟨n, hn, hlt⟩ := hn
      right
      use s, hset
      rw [overwritten_of_isNumeral hset hn hlt]
      exact hn
    · left
      push Not at hn
      exact untouched_of_readAsWritten hset (h s hset) hn val

end Contract

theorem envContract_iff (getenv : Environment) :
    EnvContract getenv ↔ ∀ name s, getenv name = some s → ReadAsWritten s := by
  constructor
  · intro h name s hset
    by_cases hn : ∃ n, IsNumeral UInt8.toNat s n ∧ n < uintMax.toNat
    · exact .inl hn
    · push Not at hn
      exact readAsWritten_of_untouched hset (fun val => h.untouched name s val hset hn)
  · intro h
    constructor
    · intro name s n val hset hn hlt
      exact overwritten_of_isNumeral hset hn hlt val
    · intro name s val hset hbig
      exact untouched_of_readAsWritten hset (h name s hset) hbig val
    · intro envName val hunset
      cases envName with
      | none => rfl
      | some name => simp [envGetVal, hunset name rfl]
    · exact default_or_written kParentCidEnv kDefaultParentCid (h kParentCidEnv)
    · exact default_or_written kParentPortEnv kDefaultParentPort (h kParentPortEnv)

/-- The id `4294967300` is taken for `4`. -/
def wrappingEnvironment : Environment := fun name =>
  if name = kParentCidEnv then some (cString "4294967300") else none

theorem wrappingEnvironment_cid : ¬ EnvContract wrappingEnvironment ∧
    (getProxyVsockAddr wrappingEnvironment).svmCid = 4 := by
  have hcid : (getProxyVsockAddr wrappingEnvironment).svmCid = 4 := by decide +kernel
  refine ⟨fun h => ?_, hcid⟩
  have hbad := h.cid
  rw [hcid] at hbad
  rcases hbad with hdefault | ⟨s, hs, hn⟩
  · exact absurd hdefault (by decide)
  · cases hs
    exact absurd hn.2.2 (by decide +kernel)

end PublicEndorsement.Proxy
