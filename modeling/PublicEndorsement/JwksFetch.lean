import PublicEndorsement.BacktrackingRegex
import PublicEndorsement.DecimalNumerals
import PublicEndorsement.EndorsementDomain
import PublicEndorsement.JwksCache
import PublicEndorsement.TracedComputation

/-!
# Fetching the OIDC signing keys

`OidcJwksKeyFetcher` below its cache: the exchange with the issuer, the keys of the
response and the time they may be kept. Base64, the key factory, JSON and HTTP are
parameters, each with the exceptions it may throw.

* `parseKeys` and `getMaxAgeSecs` are what `fetchJwks` makes of a response;
* `fetchKey` is `getKey` with the exception that a fetch ends with, and `fetchKey_getKey`
  says that the cache is the one of `getKey`;
* `parseKeys_iff` says when the good keys of a response are all there.
-/

namespace PublicEndorsement.Pes.Oidc

open Numerals

/-- The exceptions of the authentication by class; `base` are those of the service. -/
inductive OidcExn where
  | jwt (message : Utf16)
  | audienceValidation (message : Utf16)
  | certificateParsing
  | uriSyntax
  | io
  | interrupted
  | base (e : Exn)
  deriving DecidableEq, Repr

variable {Key : Type}

/-! ## The keys of a response -/

structure Jwk where
  kid : Option String
  kty : Option String
  n : Option String
  e : Option String
  deriving DecidableEq, Repr

/-- The list and each of its entries may be null. -/
structure JwksResponse where
  keys : Option (List (Option Jwk))
  deriving DecidableEq, Repr

inductive KeyException where
  | illegalArgument
  | noSuchAlgorithm
  | invalidKeySpec
  deriving DecidableEq, Repr

/-- The URL decoder of Base64 and the RSA key factory. -/
structure KeyLibrary (Key : Type) where
  decode : String → Except KeyException (List UInt8)
  generatePublic : (modulus exponent : ℕ) → Except KeyException Key

def magnitude (bytes : List UInt8) : ℕ := Nat.ofDigits 256 (bytes.map UInt8.toNat).reverse

def rsaAlgorithm : String := "RSA"

variable (lib : KeyLibrary Key)

def generateKey (n e : String) : Except KeyException Key := do
  let modulus ← lib.decode n
  let exponent ← lib.decode e
  lib.generatePublic (magnitude modulus) (magnitude exponent)

def parseKey (jwk : Jwk) : Option Key :=
  if jwk.kty ≠ some rsaAlgorithm then none
  else match jwk.n, jwk.e with
    | some n, some e =>
      match generateKey lib n e with
      | .ok key => some key
      -- The clause names all three exceptions.
      | .error _ => none
    | _, _ => none

def put (kid : String) (key : Key) (keys : List (String × Key)) : List (String × Key) :=
  (kid, key) :: keys.filter (fun entry => entry.1 ≠ kid)

def addKey (keys : List (String × Key)) : Option Jwk → Except Exn (List (String × Key))
  | none => .error .nullPointer
  | some jwk =>
    match jwk.kid with
    | none => .ok keys
    | some kid =>
      match parseKey lib jwk with
      | none => .ok keys
      | some key => .ok (put kid key keys)

def parseKeys (jwksResponse : Option JwksResponse) : Except Exn (List (String × Key)) :=
  match jwksResponse.bind JwksResponse.keys with
  | none => .ok []
  | some jwks => jwks.foldlM (addKey lib) []

/-! ## The time they may be kept -/

def isRegexSpace (c : UInt16) : Bool := c = 0x20 || (0x09 ≤ c && c ≤ 0x0D)

def maxAgeFront : Regex UInt16 :=
  .seq (.seq (.seq (.literal (text "max-age")) (.repeated isRegexSpace)) (.literal (text "=")))
    (.repeated isRegexSpace)

/-- `MAX_AGE_PATTERN`, which is `max-age\s*=\s*(\d+)`. -/
def maxAgePattern : Regex UInt16 :=
  .seq maxAgeFront (.group 1 (.plus (isDigit UInt16.toNat)))

def defaultCacheDurationSecs : ℤ := 3600

def longMax : ℕ := 2 ^ 63 - 1

/-- `Long.parseLong` on a text of digits; the exception is a `NumberFormatException`. -/
def parseLong (digits : Utf16) : Except Exn ℤ :=
  if value UInt16.toNat digits ≤ longMax then .ok (value UInt16.toNat digits)
  else .error (.illegalArgument (text "For input string: \"" ++ digits ++ text "\""))

def getMaxAgeSecs (cacheControlHeader : Option Utf16) : Except Exn ℤ :=
  match cacheControlHeader.bind maxAgePattern.find with
  | none => .ok defaultCacheDurationSecs
  | some m => do
    let age ← parseLong ((m.groups 1).getD [])
    if 0 ≤ age then .ok age else .ok defaultCacheDurationSecs

/-- `TimeUnit.SECONDS.toNanos`, which saturates. -/
def toNanos (seconds : ℤ) : ℤ :=
  let m := (longMax : ℤ) / 10 ^ 9
  if m < seconds then longMax
  else if seconds < -m then -longMax - 1
  else seconds * 10 ^ 9

def expireAfterCreate (maxAgeSecs : ℤ) : ℤ := toNanos maxAgeSecs

/-! ## A fetch -/

structure HttpResponse where
  statusCode : ℕ
  cacheControl : Option Utf16
  body : Utf16

structure JwksExchange where
  getJwksUri : Except OidcExn Utf16
  newRequest : Utf16 → Except OidcExn Unit
  send : Except OidcExn HttpResponse
  readValue : Utf16 → Except OidcExn (Option JwksResponse)

def exchangeJwks (exchange : JwksExchange) : Except OidcExn (Jwks Key) := do
  let jwksUri ← exchange.getJwksUri
  exchange.newRequest jwksUri
  let response ← exchange.send
  if response.statusCode ≠ 200 then
    throw .io
  let maxAgeSecs ← (getMaxAgeSecs response.cacheControl).mapError .base
  let jwksResponse ← exchange.readValue response.body
  let keys ← (parseKeys lib jwksResponse).mapError .base
  pure ⟨keys, maxAgeSecs.toNat⟩

def wrapFailure : OidcExn → OidcExn
  | .io => .base (.other (text "Failed to fetch or parse JWKS"))
  | .interrupted => .base (.other (text "Failed to fetch or parse JWKS"))
  | e => e

def fetchJwks (exchange : JwksExchange) : Except OidcExn (Jwks Key) :=
  (exchangeJwks lib exchange).mapError wrapFailure

/-- A `get` of the cache, which loads by a fetch. -/
def load (now : ℕ) (fetch : Except OidcExn (Jwks Key)) (entry : Option (CacheEntry Key)) :
    Except OidcExn (JwksData Key) :=
  match present now entry with
  | some data => .ok data
  | none => fetch.map (Jwks.toData now)

structure KeyRequest where
  time : ℕ
  keyId : String
  firstExchange : JwksExchange
  secondExchange : JwksExchange

def fetchKey (request : KeyRequest) (entry : Option (CacheEntry Key)) :
    Except OidcExn (Option Key) := do
  let data ← load request.time (fetchJwks lib request.firstExchange) entry
  match data.keys.lookup request.keyId with
  | some key => pure (some key)
  | none =>
    if shouldAttemptRefresh request.time data then
      let data ← load request.time (fetchJwks lib request.secondExchange) none
      pure (data.keys.lookup request.keyId)
    else pure none

/-- The same call for the cache, which does not ask why a fetch has failed. -/
def KeyRequest.toCall (request : KeyRequest) : KeyCall Key where
  time := request.time
  keyId := request.keyId
  firstFetch := (fetchJwks lib request.firstExchange).toOption
  secondFetch := (fetchJwks lib request.secondExchange).toOption

def CallResult.ofExcept : Except OidcExn (Option Key) → CallResult Key
  | .ok key => .returned key
  | .error _ => .thrown

theorem cacheGet_data (now : ℕ) (fetch : Except OidcExn (Jwks Key))
    (entry : Option (CacheEntry Key)) :
    (cacheGet now fetch.toOption entry).data = (load now fetch entry).toOption := by
  unfold cacheGet load
  cases present now entry with
  | some data => rfl
  | none =>
    cases fetch with
    | ok jwks => rfl
    | error e => rfl

/-- Only the reason of a failure is lost on the way to the cache. -/
theorem fetchKey_getKey (request : KeyRequest) (entry : Option (CacheEntry Key)) :
    (getKey (request.toCall lib) entry).result = .ofExcept (fetchKey lib request entry) := by
  have hfirst := cacheGet_data request.time (fetchJwks lib request.firstExchange) entry
  have hsecond := cacheGet_data request.time (fetchJwks lib request.secondExchange) none
  simp only [getKey, fetchKey, KeyRequest.toCall, hfirst, hsecond]
  cases load request.time (fetchJwks lib request.firstExchange) entry with
  | error e => rfl
  | ok data =>
    simp only [Except.toOption]
    cases hlookup : data.keys.lookup request.keyId with
    | some key => simp [bind, Except.bind, hlookup, pure, Except.pure, CallResult.ofExcept]
    | none =>
      by_cases hrefresh : shouldAttemptRefresh request.time data = true
      · simp only [bind, Except.bind, hlookup, if_pos hrefresh]
        cases load request.time (fetchJwks lib request.secondExchange) none with
        | error e => rfl
        | ok again => rfl
      · simp [bind, Except.bind, hlookup, hrefresh, pure, Except.pure, CallResult.ofExcept]

/-! ## What becomes of the good keys -/

/-- The entry is an RSA key whose parameters are there and make up `key`. -/
def IsRsaKey (jwk : Jwk) (key : Key) : Prop :=
  jwk.kty = some rsaAlgorithm ∧ ∃ n e modulus exponent,
    jwk.n = some n ∧ jwk.e = some e ∧ lib.decode n = .ok modulus ∧ lib.decode e = .ok exponent ∧
      lib.generatePublic (magnitude modulus) (magnitude exponent) = .ok key

/-- `key` is the one of the last entry that is an RSA key and has the id. -/
def IsLastKey (entries : List (Option Jwk)) (kid : String) (key : Key) : Prop :=
  ∃ earlier jwk later, entries = earlier ++ some jwk :: later ∧ jwk.kid = some kid ∧
    IsRsaKey lib jwk key ∧
    ∀ jwk', some jwk' ∈ later → jwk'.kid = some kid → ∀ key', ¬ IsRsaKey lib jwk' key'

def MapsExactly (entries : List (Option Jwk)) (keys : List (String × Key)) : Prop :=
  ∀ kid key, keys.lookup kid = some key ↔ IsLastKey lib entries kid key

variable {lib}

theorem parseKey_eq_some {jwk : Jwk} {key : Key} :
    parseKey lib jwk = some key ↔ IsRsaKey lib jwk key := by
  have hgenerate (n e : String) : generateKey lib n e = .ok key ↔
      ∃ modulus exponent, lib.decode n = .ok modulus ∧ lib.decode e = .ok exponent ∧
        lib.generatePublic (magnitude modulus) (magnitude exponent) = .ok key := by
    simp only [generateKey, except_bind_eq_ok, exists_and_left]
  unfold parseKey IsRsaKey
  by_cases hkty : jwk.kty = some rsaAlgorithm
  · cases hn : jwk.n with
    | none => simp [hkty]
    | some n =>
      cases he : jwk.e with
      | none => simp [hkty]
      | some e =>
        have hblock := hgenerate n e
        cases hkey : generateKey lib n e with
        | ok k => simpa [hkty, hkey] using hblock
        | error x => simpa [hkty, hkey] using hblock
  · simp [hkty]

theorem lookup_filter_ne {kid kid' : String} (hne : kid' ≠ kid) (keys : List (String × Key)) :
    (keys.filter (fun entry => entry.1 ≠ kid)).lookup kid' = keys.lookup kid' := by
  induction keys with
  | nil => rfl
  | cons entry keys ih =>
    obtain ⟨k, v⟩ := entry
    by_cases hk : k = kid
    · have hother : (kid' == k) = false := by simpa [hk] using hne
      rw [List.filter_cons_of_neg (by simpa using hk), ih, List.lookup_cons, hother]
    · rw [List.filter_cons_of_pos (by simpa using hk), List.lookup_cons, List.lookup_cons, ih]

theorem lookup_put (kid : String) (key : Key) (keys : List (String × Key)) (kid' : String) :
    (put kid key keys).lookup kid' = if kid' = kid then some key else keys.lookup kid' := by
  by_cases heq : kid' = kid
  · simp [put, heq]
  · have hother : (kid' == kid) = false := by simpa using heq
    rw [put, List.lookup_cons, hother, if_neg heq]
    exact lookup_filter_ne heq keys

def Defines (lib : KeyLibrary Key) (entry : Option Jwk) (kid : String) (key : Key) : Prop :=
  ∃ jwk, entry = some jwk ∧ jwk.kid = some kid ∧ IsRsaKey lib jwk key

/-- One round fails on a null entry only, and otherwise stores what the entry defines. -/
theorem addKey_some (lib : KeyLibrary Key) (keys : List (String × Key)) (jwk : Jwk) :
    ∃ keys', addKey lib keys (some jwk) = .ok keys' ∧
      ∀ kid key, keys'.lookup kid = some key ↔ Defines lib (some jwk) kid key ∨
        (∀ key', ¬ Defines lib (some jwk) kid key') ∧ keys.lookup kid = some key := by
  have hdefines (kid : String) (key : Key) : Defines lib (some jwk) kid key ↔
      jwk.kid = some kid ∧ parseKey lib jwk = some key := by
    simp [Defines, parseKey_eq_some]
  simp only [addKey, hdefines]
  cases hkid : jwk.kid with
  | none => exact ⟨keys, rfl, by simp⟩
  | some kid =>
    cases hkey : parseKey lib jwk with
    | none => exact ⟨keys, rfl, by simp⟩
    | some key =>
      refine ⟨put kid key keys, rfl, ?_⟩
      intro kid' key'
      rw [lookup_put]
      by_cases heq : kid' = kid
      · simp [heq]
      · simp [heq, Ne.symm heq]

theorem isLastKey_concat {entries : List (Option Jwk)} {entry : Option Jwk} {kid : String}
    {key : Key} :
    IsLastKey lib (entries ++ [entry]) kid key ↔ Defines lib entry kid key ∨
      (∀ key', ¬ Defines lib entry kid key') ∧ IsLastKey lib entries kid key := by
  constructor
  · rintro ⟨earlier, jwk, later, hsplit, hkid, hkey, hlast⟩
    rcases List.eq_nil_or_concat later with rfl | ⟨later, x, rfl⟩
    · left
      obtain ⟨-, hentry⟩ := List.append_inj' hsplit rfl
      exact ⟨jwk, List.singleton_inj.mp hentry, hkid, hkey⟩
    · right
      rw [List.concat_eq_append, ← List.cons_append, ← List.append_assoc] at hsplit
      obtain ⟨hentries, hx⟩ := List.append_inj' hsplit rfl
      cases hx
      constructor
      · rintro key' ⟨jwk', rfl, hkid', hkey'⟩
        exact hlast jwk' (by simp) hkid' key' hkey'
      · refine ⟨earlier, jwk, later, hentries, hkid, hkey, ?_⟩
        intro jwk' hmem
        exact hlast jwk' (by simp [hmem])
  · rintro (⟨jwk, rfl, hkid, hkey⟩ | ⟨hentry, earlier, jwk, later, rfl, hkid, hkey, hlast⟩)
    · exact ⟨entries, jwk, [], rfl, hkid, hkey, by simp⟩
    · refine ⟨earlier, jwk, later ++ [entry], by simp, hkid, hkey, ?_⟩
      intro jwk' hmem hkid' key' hkey'
      rcases List.mem_append.mp hmem with hlater | hnew
      · exact hlast jwk' hlater hkid' key' hkey'
      · exact hentry key' ⟨jwk', (List.mem_singleton.mp hnew).symm, hkid', hkey'⟩

/-- The loop over the entries, by its last round: it returns where no entry is null, and
every key is then the one that was stored last. -/
theorem foldlM_addKey (lib : KeyLibrary Key) (entries : List (Option Jwk)) :
    (none ∉ entries → ∃ keys, entries.foldlM (addKey lib) [] = .ok keys ∧
      MapsExactly lib entries keys) ∧
    (none ∈ entries → entries.foldlM (addKey lib) [] = .error .nullPointer) := by
  induction entries using List.reverseRecOn with
  | nil =>
    constructor
    · intro _
      refine ⟨[], rfl, ?_⟩
      intro kid key
      simp [IsLastKey]
    · simp
  | append_singleton entries entry ih =>
    have hsplit : (entries ++ [entry]).foldlM (addKey lib) [] =
        entries.foldlM (addKey lib) [] >>= fun keys => addKey lib keys entry := by
      simp [List.foldlM_append]
    rw [hsplit]
    by_cases hnull : none ∈ entries
    · rw [ih.2 hnull]
      simp [hnull, bind, Except.bind]
    · obtain ⟨keys, hkeys, hexact⟩ := ih.1 hnull
      rw [hkeys]
      cases entry with
      | none => simp [bind, Except.bind, addKey]
      | some jwk =>
        obtain ⟨keys', hadd, hlookup⟩ := addKey_some lib keys jwk
        constructor
        · intro _
          refine ⟨keys', hadd, ?_⟩
          intro kid key
          rw [hlookup, isLastKey_concat, hexact]
        · intro hmem
          simp [hnull] at hmem

/-- The good keys of a response come through exactly when none of its entries is null. -/
theorem parseKeys_iff (lib : KeyLibrary Key) (entries : List (Option Jwk)) :
    (∃ keys, parseKeys lib (some ⟨some entries⟩) = .ok keys ∧ MapsExactly lib entries keys) ↔
      none ∉ entries := by
  constructor
  · rintro ⟨keys, hkeys, -⟩ hnull
    have hthrown := (foldlM_addKey lib entries).2 hnull
    change entries.foldlM (addKey lib) [] = .ok keys at hkeys
    rw [hthrown] at hkeys
    cases hkeys
  · intro hnull
    exact (foldlM_addKey lib entries).1 hnull

def demoLibrary : KeyLibrary (ℕ × ℕ) where
  decode _ := .ok []
  generatePublic modulus exponent := .ok (modulus, exponent)

def demoJwk : Jwk := ⟨some "a", some "RSA", some "", some ""⟩

/-- A null entry takes the key before it down. -/
theorem null_entry_throws :
    parseKeys demoLibrary (some ⟨some [some demoJwk, none]⟩) = .error .nullPointer ∧
      IsLastKey demoLibrary [some demoJwk, none] "a" (0, 0) := by
  refine ⟨rfl, [], demoJwk, [none], rfl, rfl, ⟨rfl, "", "", [], [], rfl, rfl, rfl, rfl, rfl⟩, ?_⟩
  intro jwk' hmem
  simp at hmem

end PublicEndorsement.Pes.Oidc
