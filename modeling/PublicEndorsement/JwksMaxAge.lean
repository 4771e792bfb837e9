import PublicEndorsement.JwksFetch

/-!
# How long the signing keys may be kept

The `Cache-Control` header of the issuer against `getMaxAgeSecs`. Its pattern is found at
the first place of the header where `max-age` is given a number, and the number is then
converted to a `long`, which fails for the large ones.

* `MaxAgeAt` and `FirstMaxAge` say what a directive is and which number comes first, by
  the parts of the header alone;
* `getMaxAgeSecs_cases` is the function by them;
* `neverFails_iff` says for which headers a response is always cached and used.
-/

namespace PublicEndorsement.Pes.Oidc

open Numerals Regex

/-- Behind `before`, the header gives `max-age` the number that is written as `digits`. -/
def MaxAgeAt (header before digits : Utf16) : Prop :=
  ∃ spaces spaces' rest, header = before ++ (text "max-age" ++ (spaces ++ (text "=" ++
      (spaces' ++ (digits ++ rest))))) ∧
    (∀ c ∈ spaces, isRegexSpace c = true) ∧ (∀ c ∈ spaces', isRegexSpace c = true) ∧
    digits ≠ [] ∧ (∀ c ∈ digits, isDigit UInt16.toNat c = true) ∧
    ∀ c, rest.head? = some c → isDigit UInt16.toNat c = false

def FirstMaxAge (header : Utf16) (n : ℕ) : Prop :=
  ∃ before digits, MaxAgeAt header before digits ∧ value UInt16.toNat digits = n ∧
    ∀ before' digits', MaxAgeAt header before' digits' → before.length ≤ before'.length

/-! ## What the pattern finds -/

theorem mem_ways_maxAgeFront {c c' : Cursor UInt16} :
    c' ∈ ways maxAgeFront c ↔
      ∃ spaces spaces' rest,
        c.after = text "max-age" ++ (spaces ++ (text "=" ++ (spaces' ++ rest))) ∧
        (∀ x ∈ spaces, isRegexSpace x = true) ∧ (∀ x ∈ spaces', isRegexSpace x = true) ∧
        c' = c.skip (text "max-age" ++ spaces ++ text "=" ++ spaces') rest := by
  simp only [maxAgeFront, mem_ways_seq, mem_ways_literal, mem_ways_repeated]
  constructor
  · rintro ⟨_, ⟨_, ⟨_, ⟨after, hafter, rfl⟩, spaces, after', hafter', hspaces, rfl⟩,
      after'', hafter'', rfl⟩, spaces', rest, hrest, hspaces', rfl⟩
    simp only [Cursor.skip_after] at hafter' hafter'' hrest
    refine ⟨spaces, spaces', rest, ?_, hspaces, hspaces', by simp⟩
    rw [hafter, hafter', hafter'', hrest]
  · rintro ⟨spaces, spaces', rest, hafter, hspaces, hspaces', rfl⟩
    exact ⟨_, ⟨_, ⟨_, ⟨_, hafter, rfl⟩, spaces, _, rfl, hspaces, rfl⟩, _, rfl, rfl⟩,
      spaces', rest, rfl, hspaces', by simp⟩

/-- A match at a place is a directive there, and the group holds its digits. -/
theorem maxAgeAt_of_first {c c' : Cursor UInt16} (before : Utf16)
    (h : first maxAgePattern c = some c') :
    ∃ digits, c'.groups 1 = some digits ∧ MaxAgeAt (before ++ c.after) before digits := by
  obtain ⟨mid, hmid, hgroup⟩ := first_seq h
  obtain ⟨hne, hdigits⟩ := first_group_plus hgroup
  obtain ⟨spaces, spaces', rest, hafter, hspaces, hspaces', rfl⟩ := mem_ways_maxAgeFront.mp hmid
  rw [Cursor.skip_after] at hne hdigits
  refine ⟨_, hdigits, spaces, spaces', rest.dropWhile (isDigit UInt16.toNat), ?_, hspaces, hspaces',
    hne, fun c hc => List.mem_takeWhile_imp hc, fun c hc => head?_dropWhile_eq_false hc⟩
  rw [List.takeWhile_append_dropWhile, hafter]

/-- Where there is a directive, there is a match. -/
theorem MaxAgeAt.first_ne_none {header before digits : Utf16} (h : MaxAgeAt header before digits) :
    ∃ after, header = before ++ after ∧
      ∀ before', first maxAgePattern ⟨before', after, fun _ => none⟩ ≠ none := by
  obtain ⟨spaces, spaces', rest, heq, hspaces, hspaces', hne, hdigits, -⟩ := h
  refine ⟨_, heq, fun before' => ?_⟩
  apply Regex.first_ne_none
  exact mem_ways_seq.mpr ⟨_, mem_ways_maxAgeFront.mpr ⟨spaces, spaces', digits ++ rest, rfl,
    hspaces, hspaces', rfl⟩, mem_ways_group_plus.mpr ⟨digits, rest, rfl, hne, hdigits, rfl⟩⟩

theorem find_maxAgePattern_some {header : Utf16} {c : Cursor UInt16}
    (h : maxAgePattern.find header = some c) :
    ∃ digits, c.groups 1 = some digits ∧ FirstMaxAge header (value UInt16.toNat digits) := by
  obtain ⟨pre, post, rfl, hfirst, hearlier⟩ := findFrom_eq_some h
  obtain ⟨digits, hgroup, hat⟩ := maxAgeAt_of_first pre hfirst
  refine ⟨digits, hgroup, pre, digits, hat, rfl, ?_⟩
  intro before' digits' hat'
  by_contra! hlt
  obtain ⟨post', hsplit, hfound⟩ := hat'.first_ne_none
  exact hfound _ (hearlier before' post' hsplit hlt)

theorem find_maxAgePattern_none {header : Utf16} (h : maxAgePattern.find header = none)
    (before digits : Utf16) : ¬ MaxAgeAt header before digits := by
  intro hat
  obtain ⟨post, hsplit, hfound⟩ := hat.first_ne_none
  exact hfound _ (findFrom_eq_none h hsplit)

theorem isRegexSpace_of_isDigit {c : UInt16} (h : isDigit UInt16.toNat c = true) :
    isRegexSpace c = false := by
  have hc : 48 ≤ c.toNat ∧ c.toNat ≤ 57 := of_decide_eq_true h
  have hblank : c ≠ 0x20 := by rintro rfl; simp at hc
  have hcontrol : ¬ c ≤ 0x0D := by
    rw [UInt16.le_iff_toNat_le]
    change ¬ c.toNat ≤ 13
    omega
  simp [isRegexSpace, hblank, hcontrol]

/-- A place has at most one directive: each part ends where the next begins. -/
theorem MaxAgeAt.unique {header before digits before' digits' : Utf16}
    (h : MaxAgeAt header before digits) (h' : MaxAgeAt header before' digits')
    (hplace : before.length = before'.length) : digits = digits' := by
  obtain ⟨spaces₁, spaces₂, rest, heq, hspaces₁, hspaces₂, hne, hdigits, hrest⟩ := h
  obtain ⟨spaces₁', spaces₂', rest', heq', hspaces₁', hspaces₂', hne', hdigits', hrest'⟩ := h'
  have hequals {s : Utf16} : ∀ a, (text "=" ++ s).head? = some a → isRegexSpace a = false := by
    rintro a ⟨⟩
    decide
  have hfront {d r : Utf16} (hd : d ≠ []) (hall : ∀ c ∈ d, isDigit UInt16.toNat c = true) :
      ∀ a, (d ++ r).head? = some a → isRegexSpace a = false := by
    obtain ⟨c, d, rfl⟩ := List.exists_cons_of_ne_nil hd
    rintro a ⟨⟩
    exact isRegexSpace_of_isDigit (hall c List.mem_cons_self)
  obtain ⟨-, hname⟩ := List.append_inj (heq.symm.trans heq') hplace
  obtain ⟨-, hassign⟩ := run_unique (List.append_cancel_left hname) hspaces₁ hspaces₁' hequals
    hequals
  obtain ⟨-, hnumber⟩ := run_unique (List.append_cancel_left hassign) hspaces₂ hspaces₂'
    (hfront hne hdigits) (hfront hne' hdigits')
  exact (run_unique hnumber hdigits hdigits' hrest hrest').1

theorem FirstMaxAge.unique {header : Utf16} {n n' : ℕ} (h : FirstMaxAge header n)
    (h' : FirstMaxAge header n') : n = n' := by
  obtain ⟨before, digits, hat, rfl, hfirst⟩ := h
  obtain ⟨before', digits', hat', rfl, hfirst'⟩ := h'
  rw [hat.unique hat' (le_antisymm (hfirst _ _ hat') (hfirst' _ _ hat))]

/-! ## The number of seconds -/

/-- Without a directive the default applies, and otherwise the first number, if it fits in
a `long`. -/
theorem getMaxAgeSecs_cases (header : Option Utf16) :
    ((∀ h n, header = some h → ¬ FirstMaxAge h n) ∧
      getMaxAgeSecs header = .ok defaultCacheDurationSecs) ∨
    ∃ h n, header = some h ∧ FirstMaxAge h n ∧
      ((n ≤ longMax ∧ getMaxAgeSecs header = .ok (n : ℤ)) ∨
        (longMax < n ∧ ∃ message, getMaxAgeSecs header = .error (.illegalArgument message))) := by
  cases header with
  | none => exact .inl ⟨by simp, rfl⟩
  | some header =>
    cases hfind : maxAgePattern.find header with
    | none =>
      left
      refine ⟨?_, by simp [getMaxAgeSecs, hfind]⟩
      rintro h n ⟨⟩ ⟨before, digits, hat, -⟩
      exact find_maxAgePattern_none hfind before digits hat
    | some c =>
      right
      obtain ⟨digits, hgroup, hfirst⟩ := find_maxAgePattern_some hfind
      refine ⟨header, _, rfl, hfirst, ?_⟩
      have hcompute : getMaxAgeSecs (some header) = (parseLong digits).bind (fun age =>
          if 0 ≤ age then .ok age else .ok defaultCacheDurationSecs) := by
        simp [getMaxAgeSecs, hfind, hgroup, bind]
      by_cases hfits : value UInt16.toNat digits ≤ longMax
      · left
        refine ⟨hfits, ?_⟩
        rw [hcompute, parseLong, if_pos hfits]
        simp [Except.bind]
      · right
        rw [hcompute, parseLong, if_neg hfits]
        exact ⟨not_le.mp hfits, _, rfl⟩

theorem toNanos_nonneg {seconds : ℤ} (h : 0 ≤ seconds) :
    0 ≤ toNanos seconds ∧ toNanos seconds ≤ longMax := by
  have hmax : (longMax : ℤ) = 9223372036854775807 := rfl
  unfold toNanos
  rw [hmax]
  dsimp only
  split_ifs with hbig hsmall
  · omega
  · omega
  · omega

/-! ## A response is cached and used -/

/-- The issuer answers with status 200, the given header and a body whose keys parse. -/
structure Delivers {Key : Type} (lib : KeyLibrary Key) (exchange : JwksExchange)
    (header : Option Utf16) (keys : List (String × Key)) : Prop where
  request : ∃ uri, exchange.getJwksUri = .ok uri ∧ exchange.newRequest uri = .ok ()
  response : ∃ body jwksResponse, exchange.send = .ok ⟨200, header, body⟩ ∧
    exchange.readValue body = .ok jwksResponse ∧ parseKeys lib jwksResponse = .ok keys

/-- A call that has to fetch stores what it was given and answers from it. -/
def CachedAndUsed {Key : Type} (lib : KeyLibrary Key) (exchange : JwksExchange)
    (keys : List (String × Key)) : Prop :=
  ∀ (request : KeyRequest) entry, request.firstExchange = exchange →
    present request.time entry = none →
    (∃ data, data.keys = keys ∧
      (getKey (request.toCall lib) entry).entry = some ⟨data, request.time⟩) ∧
    (getKey (request.toCall lib) entry).result = .returned (keys.lookup request.keyId)

/-- No response with this header fails for the header's sake. -/
structure NeverFails (header : Option Utf16) : Prop where
  returns : ∃ secs, getMaxAgeSecs header = .ok secs ∧ 0 ≤ secs ∧ secs ≤ longMax ∧
    (∀ h n, header = some h → FirstMaxAge h n → n ≤ longMax → secs = n) ∧
    0 ≤ expireAfterCreate secs ∧ expireAfterCreate secs ≤ longMax
  used : ∀ {Key : Type} (lib : KeyLibrary Key) exchange keys,
    Delivers lib exchange header keys → CachedAndUsed lib exchange keys

def FitsLong (header : Option Utf16) : Prop :=
  ∀ h n, header = some h → FirstMaxAge h n → n ≤ longMax

theorem fetchJwks_of_delivers {Key : Type} {lib : KeyLibrary Key} {exchange : JwksExchange}
    {header : Option Utf16} {keys : List (String × Key)} {secs : ℤ}
    (h : Delivers lib exchange header keys) (hsecs : getMaxAgeSecs header = .ok secs) :
    fetchJwks lib exchange = .ok ⟨keys, secs.toNat⟩ := by
  obtain ⟨⟨uri, huri, hrequest⟩, body, jwksResponse, hsend, hread, hparse⟩ := h
  simp [fetchJwks, exchangeJwks, huri, hrequest, hsend, hread, hparse, hsecs, bind, Except.bind,
    Except.mapError, pure, Except.pure]

/-- What was fetched just now is not fetched again for a key it lacks. -/
theorem cachedAndUsed_of_fetch {Key : Type} {lib : KeyLibrary Key} {exchange : JwksExchange}
    {jwks : Jwks Key} (hfetch : fetchJwks lib exchange = .ok jwks) :
    CachedAndUsed lib exchange jwks.keys := by
  rintro request entry rfl hmiss
  have hget : cacheGet request.time (fetchJwks lib request.firstExchange).toOption entry =
      ⟨some (jwks.toData request.time), some ⟨jwks.toData request.time, request.time⟩,
        some (jwks.toData request.time)⟩ := by
    simp [cacheGet, hmiss, hfetch, Except.toOption]
  have hrecent : shouldAttemptRefresh request.time (jwks.toData request.time) = false := by
    simp [shouldAttemptRefresh, Jwks.toData]
  have hkeys : (jwks.toData request.time).keys = jwks.keys := rfl
  simp only [getKey, KeyRequest.toCall, hget, hrecent, hkeys]
  cases jwks.keys.lookup request.keyId with
  | some key => exact ⟨⟨_, rfl, rfl⟩, rfl⟩
  | none => exact ⟨⟨_, rfl, rfl⟩, rfl⟩

theorem neverFails_of_returns {header : Option Utf16} {secs : ℤ}
    (hsecs : getMaxAgeSecs header = .ok secs) (hnonneg : 0 ≤ secs) (hle : secs ≤ longMax)
    (hfirst : ∀ h n, header = some h → FirstMaxAge h n → secs = n) : NeverFails header := by
  constructor
  · exact ⟨secs, hsecs, hnonneg, hle, fun h n hheader hn _ => hfirst h n hheader hn,
      toNanos_nonneg hnonneg⟩
  · intro Key lib exchange keys hdelivers
    exact cachedAndUsed_of_fetch (fetchJwks_of_delivers hdelivers hsecs)

/-- A response is always cached and used exactly when the first number of its header, if
there is one, fits in a `long`. -/
theorem neverFails_iff (header : Option Utf16) : NeverFails header ↔ FitsLong header := by
  rcases getMaxAgeSecs_cases header with ⟨hnone, hsecs⟩ | ⟨h, n, rfl, hfirst, hcases⟩
  · constructor
    · intro _ h n hheader hfirst
      exact absurd hfirst (hnone h n hheader)
    · intro _
      apply neverFails_of_returns hsecs (by decide) (by decide)
      intro h n hheader hfirst
      exact absurd hfirst (hnone h n hheader)
  · rcases hcases with ⟨hfits, hsecs⟩ | ⟨hlarge, message, hthrown⟩
    · constructor
      · rintro _ _ m ⟨⟩ hm
        rw [hm.unique hfirst]
        exact hfits
      · intro _
        apply neverFails_of_returns hsecs (Int.natCast_nonneg n) (by exact_mod_cast hfits)
        rintro _ m ⟨⟩ hm
        rw [hm.unique hfirst]
    · constructor
      · intro hnever
        obtain ⟨secs, hsecs, -⟩ := hnever.returns
        rw [hthrown] at hsecs
        cases hsecs
      · intro hall
        exact absurd (hall h n rfl hfirst) (not_le.mpr hlarge)

/-- One more than the largest `long`. -/
def overflowingHeader : Utf16 := text "max-age=9223372036854775808"

def overflowingExchange : JwksExchange where
  getJwksUri := .ok []
  newRequest _ := .ok ()
  send := .ok ⟨200, some overflowingHeader, []⟩
  readValue _ := .ok (some ⟨some []⟩)

theorem overflowingHeader_throws :
    Delivers demoLibrary overflowingExchange (some overflowingHeader) [] ∧
      getMaxAgeSecs (some overflowingHeader) = .error (.illegalArgument
        (text "For input string: \"9223372036854775808\"")) ∧
      ¬ NeverFails (some overflowingHeader) := by
  have hthrown : getMaxAgeSecs (some overflowingHeader) = .error (.illegalArgument
      (text "For input string: \"9223372036854775808\"")) := by decide +kernel
  refine ⟨⟨⟨[], rfl, rfl⟩, [], _, rfl, rfl, rfl⟩, hthrown, ?_⟩
  intro hnever
  obtain ⟨secs, hsecs, -⟩ := hnever.returns
  rw [hthrown] at hsecs
  cases hsecs

end PublicEndorsement.Pes.Oidc
