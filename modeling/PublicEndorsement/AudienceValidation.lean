import PublicEndorsement.TrustDomain

/-!
# The audience of a token

`OidcAudienceValidator.validateAudience` accepts a token for the deployment it was minted
for. Each audience is matched against a pattern, and the host name it captures is compared
with the names of the deployment.

* `OwnAudience` says which texts name the deployment, without the pattern;
* `validateAudience_iff` says that exactly those are accepted.
-/

namespace PublicEndorsement.Pes.OidcAudienceValidator

open Oidc Regex

def lineFeed : UInt16 := 0x0A
def carriageReturn : UInt16 := 0x0D

/-- `$`: at the end of the text or in front of the line terminator that ends it, but not
between the two characters of one. -/
def dollar (before after : Utf16) : Bool :=
  match after with
  | [] => true
  | [c] =>
    if c = lineFeed then before.head? ≠ some carriageReturn
    else c = carriageReturn || c = 0x85 || c = 0x2028 || c = 0x2029
  | [c, d] => c = carriageReturn && d = lineFeed
  | _ => false

def isNotSlash (c : UInt16) : Bool := c ≠ JavaUri.slash

def httpsScheme : Utf16 := text "https://"
def endorsementsPath : Utf16 := text "/v1/endorsements"

/-- `AUDIENCE_PATTERN`, which is `^https://([^/]+)(?:/v1/endorsements)?$`. -/
def audiencePattern : Regex UInt16 :=
  .seq (.seq (.seq (.seq (.look (fun before _ => before.isEmpty)) (.literal httpsScheme))
    (.group 1 (.plus isNotSlash))) (.optional (.literal endorsementsPath))) (.look dollar)

variable (metadata : AwsInstanceMetadata)

def globalHostname : Utf16 := text "pes." ++ metadata.environment ++ text "." ++ metadata.domain

def regionalHostname : Utf16 := metadata.region ++ text "." ++ globalHostname metadata

def isValidHostname (hostname trustDomain : Utf16) : Bool :=
  hostname = trustDomain || hostname = globalHostname metadata ||
    hostname = regionalHostname metadata

def isAccepted (trustDomain audience : Utf16) : Bool :=
  match audiencePattern.fullMatch audience with
  | some m => isValidHostname metadata ((m.groups 1).getD []) trustDomain
  | none => false

/-- The audiences are a set, the order of which does not matter; `resolved` is the outcome
of `resolveTrustDomain`. -/
def validateAudience (resolved : Except OidcExn Utf16) (audiences : List Utf16) :
    Except OidcExn Unit := do
  let trustDomain ← resolved
  if audiences.any (isAccepted metadata trustDomain) then .ok ()
  else .error (.audienceValidation (text "OIDC audience binding validation failed."))

/-- The text is an origin with the host `h`, alone or with the path of the service. -/
def HasHost (audience h : Utf16) : Prop :=
  h ≠ [] ∧ JavaUri.slash ∉ h ∧
    (audience = httpsScheme ++ h ∨ audience = httpsScheme ++ h ++ endorsementsPath)

def OwnAudience (trustDomain audience : Utf16) : Prop :=
  ∃ h, HasHost audience h ∧
    (h = trustDomain ∨ h = globalHostname metadata ∨ h = regionalHostname metadata)

/-! ## What the pattern captures -/

theorem forall_isNotSlash {h : Utf16} : (∀ c ∈ h, isNotSlash c = true) ↔ JavaUri.slash ∉ h := by
  constructor
  · intro hall hmem
    exact absurd (hall _ hmem) (by decide)
  · intro hnot c hc
    simp only [isNotSlash, decide_eq_true_eq]
    rintro rfl
    exact hnot hc

/-- Every way to the end of the text captures a host of it. -/
theorem hasHost_of_mem_ways {audience : Utf16} {c : Cursor UInt16}
    (hc : c ∈ ways audiencePattern (Cursor.start audience)) (hend : c.after = []) :
    ∃ h, c.groups 1 = some h ∧ HasHost audience h := by
  simp only [audiencePattern, mem_ways_seq, mem_ways_look, mem_ways_optional, mem_ways_literal,
    mem_ways_group_plus] at hc
  obtain ⟨_, ⟨_, ⟨_, ⟨_, ⟨-, rfl⟩, rest, haudience, rfl⟩, h, rest', hrest, hne, hall, rfl⟩, hpath⟩,
    -, rfl⟩ := hc
  change audience = httpsScheme ++ rest at haudience
  change rest = h ++ rest' at hrest
  have hslash := forall_isNotSlash.mp hall
  rcases hpath with ⟨rest'', hrest', rfl⟩ | rfl
  · change rest' = endorsementsPath ++ rest'' at hrest'
    rw [Cursor.skip_after] at hend
    refine ⟨h, by simp, hne, hslash, .inr ?_⟩
    rw [haudience, hrest, hrest', hend, List.append_nil, List.append_assoc]
  · rw [Cursor.capture_after, Cursor.skip_after] at hend
    refine ⟨h, by simp, hne, hslash, .inl ?_⟩
    rw [haudience, hrest, hend, List.append_nil]

/-- A text with a host has a way to its end. -/
theorem exists_mem_ways_of_hasHost {audience h : Utf16} (hhost : HasHost audience h) :
    ∃ c ∈ ways audiencePattern (Cursor.start audience), c.after = [] := by
  obtain ⟨hne, hslash, haudience⟩ := hhost
  have hall := forall_isNotSlash.mpr hslash
  simp only [audiencePattern, mem_ways_seq, mem_ways_look, mem_ways_optional, mem_ways_literal,
    mem_ways_group_plus]
  rcases haudience with rfl | rfl
  · exact ⟨_, ⟨_, ⟨_, ⟨_, ⟨_, ⟨rfl, rfl⟩, h, rfl, rfl⟩, h, [], by simp, hne, hall, rfl⟩, .inr rfl⟩,
      rfl, rfl⟩, rfl⟩
  · exact ⟨_, ⟨_, ⟨_, ⟨_, ⟨_, ⟨rfl, rfl⟩, h ++ endorsementsPath, List.append_assoc _ _ _, rfl⟩,
      h, endorsementsPath, rfl, hne, hall, rfl⟩, .inl ⟨[], by simp, rfl⟩⟩, rfl, rfl⟩, rfl⟩

/-- A text has at most one host: it ends at the first slash or with the text. -/
theorem HasHost.unique {audience h h' : Utf16} (hhost : HasHost audience h)
    (hhost' : HasHost audience h') : h = h' := by
  have hsplit {h : Utf16} (hhost : HasHost audience h) :
      ∃ path, audience = httpsScheme ++ (h ++ path) ∧
        ∀ c, path.head? = some c → isNotSlash c = false := by
    rcases hhost.2.2 with haudience | haudience
    · exact ⟨[], by simpa using haudience, by simp⟩
    · refine ⟨endorsementsPath, by simpa using haudience, ?_⟩
      rintro c ⟨⟩
      decide
  obtain ⟨path, haudience, hpath⟩ := hsplit hhost
  obtain ⟨path', haudience', hpath'⟩ := hsplit hhost'
  have heq := List.append_cancel_left (haudience.symm.trans haudience')
  exact (run_unique heq (forall_isNotSlash.mpr hhost.2.1) (forall_isNotSlash.mpr hhost'.2.1) hpath
    hpath').1

theorem hasHost_of_fullMatch {audience : Utf16} {m : Cursor UInt16}
    (hm : audiencePattern.fullMatch audience = some m) :
    ∃ h, m.groups 1 = some h ∧ HasHost audience h := by
  have hend := List.find?_some hm
  exact hasHost_of_mem_ways (List.mem_of_find?_eq_some hm) (by simpa using hend)

theorem fullMatch_of_hasHost {audience h : Utf16} (hhost : HasHost audience h) :
    ∃ m, audiencePattern.fullMatch audience = some m ∧ m.groups 1 = some h := by
  obtain ⟨c, hc, hend⟩ := exists_mem_ways_of_hasHost hhost
  cases hm : audiencePattern.fullMatch audience with
  | none =>
    have hnone := List.find?_eq_none.mp hm c hc
    simp [hend] at hnone
  | some m =>
    obtain ⟨h', hgroup, hhost'⟩ := hasHost_of_fullMatch hm
    rw [hhost'.unique hhost] at hgroup
    exact ⟨m, rfl, hgroup⟩

theorem isValidHostname_iff (h trustDomain : Utf16) :
    isValidHostname metadata h trustDomain = true ↔
      h = trustDomain ∨ h = globalHostname metadata ∨ h = regionalHostname metadata := by
  simp [isValidHostname, or_assoc]

theorem isAccepted_iff (trustDomain audience : Utf16) :
    isAccepted metadata trustDomain audience = true ↔
      OwnAudience metadata trustDomain audience := by
  constructor
  · intro haccepted
    rw [isAccepted] at haccepted
    cases hm : audiencePattern.fullMatch audience with
    | none => simp [hm] at haccepted
    | some m =>
      obtain ⟨h, hgroup, hhost⟩ := hasHost_of_fullMatch hm
      simp only [hm, hgroup, Option.getD_some, isValidHostname_iff] at haccepted
      exact ⟨h, hhost, haccepted⟩
  · rintro ⟨h, hhost, hname⟩
    obtain ⟨m, hm, hgroup⟩ := fullMatch_of_hasHost hhost
    simp only [isAccepted, hm, hgroup, Option.getD_some, isValidHostname_iff]
    exact hname

example : isAccepted ⟨text "us-east-1", [], text "dev", text "example.com"⟩ (text "pes.example.com")
    (text "https://us-east-1.pes.dev.example.com/v1/endorsements") = true := by decide +kernel

/-- The pattern takes a newline at the end for a part of the host name. -/
example : isAccepted ⟨text "us-east-1", [], text "dev", text "example.com"⟩ (text "pes.example.com")
    (text "https://pes.example.com\n") = false := by decide +kernel

theorem validateAudience_eq_ok (resolved : Except OidcExn Utf16) (audiences : List Utf16) :
    validateAudience metadata resolved audiences = .ok () ↔
      ∃ trustDomain, resolved = .ok trustDomain ∧
        ∃ audience ∈ audiences, OwnAudience metadata trustDomain audience := by
  have hany (trustDomain : Utf16) : audiences.any (isAccepted metadata trustDomain) = true ↔
      ∃ audience ∈ audiences, OwnAudience metadata trustDomain audience := by
    simp only [List.any_eq_true, isAccepted_iff]
  rw [validateAudience, except_bind_eq_ok]
  apply exists_congr
  intro trustDomain
  apply and_congr_right
  intro _
  rw [← hany]
  by_cases haccepted : audiences.any (isAccepted metadata trustDomain) = true
  · simp [haccepted]
  · simp [haccepted]

theorem validateAudience_eq_error {resolved : Except OidcExn Utf16} {audiences : List Utf16}
    {e : OidcExn} (h : validateAudience metadata resolved audiences = .error e) :
    resolved = .error e ∨
      e = .audienceValidation (text "OIDC audience binding validation failed.") := by
  cases resolved with
  | error e' =>
    cases h
    exact .inl rfl
  | ok trustDomain =>
    right
    change (if audiences.any (isAccepted metadata trustDomain) then _ else _) = _ at h
    split_ifs at h
    cases h
    rfl

/-- The deployment's own audiences are accepted and no others; what is not accepted is
refused as such, unless there is no trust domain to compare it with. -/
theorem validateAudience_iff (resolved : Except OidcExn Utf16) (audiences : List Utf16) :
    (validateAudience metadata resolved audiences = .ok () ↔
      ∃ trustDomain, resolved = .ok trustDomain ∧
        ∃ audience ∈ audiences, OwnAudience metadata trustDomain audience) ∧
    ∀ e, validateAudience metadata resolved audiences = .error e → resolved = .error e ∨
      e = .audienceValidation (text "OIDC audience binding validation failed.") :=
  ⟨validateAudience_eq_ok metadata resolved audiences,
    fun _ h => validateAudience_eq_error metadata h⟩

end PublicEndorsement.Pes.OidcAudienceValidator
