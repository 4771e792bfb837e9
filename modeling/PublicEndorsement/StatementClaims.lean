import PublicEndorsement.EndorsementVerification
import PublicEndorsement.SeparatedText

/-!
# The claims of a statement

The constructor of `Claim` and the grammars of its annotations. Three types of claim
are checked when they are built, every other type is taken as it is.

* `Claim.create` is the constructor, with the text of each exception;
* `Claim.WellFormed` says what the annotations of each type hold, in terms of parts
  joined by separators;
* `Claim.create_iff` says that the constructor builds exactly the well-formed claims;
* `Claim.create_acceptsExactly` adds which exception the others are refused with.
-/

namespace PublicEndorsement.Pes

/-- A Java map of texts, where a value may be null. -/
abbrev TextMap := List (Utf16 × Option Utf16)

def charBetween (first last : Char) (c : UInt16) : Bool :=
  first.toNat ≤ c.toNat && c.toNat ≤ last.toNat

namespace Claim

def workloadClaimType : Utf16 := text
  "https://github.com/private-compute-infra-toolkit/public-endorsement-service/blob/main/docs/claims/workload.md"

def workloadIdKey : Utf16 := text "workload_id"

def operatorRolesClaimType : Utf16 := text
  "https://github.com/private-compute-infra-toolkit/public-endorsement-service/blob/main/docs/claims/operator_roles.md"

def allowedOperatorRolesKey : Utf16 := text "allowed_operator_roles"

def maxAllowedOperatorRolesLength : ℕ := 1024

def dot : UInt16 := 0x2E
def space : UInt16 := 0x20
def commercialAt : UInt16 := 0x40

def isLabelChar (c : UInt16) : Bool :=
  charBetween 'a' 'z' c || charBetween '0' '9' c || charBetween '_' '_' c || charBetween '-' '-' c

def isDomainChar (c : UInt16) : Bool := isLabelChar c || c = dot

def isSpiffeChar (c : UInt16) : Bool := isDomainChar c || charBetween 'A' 'Z' c

/-- The pattern `^[a-zA-Z0-9._-]+$`, matched against the whole text. -/
def spiffeChars (value : Utf16) : Bool := value ≠ [] && value.all isSpiffeChar

def domainChars (value : Utf16) : Bool := value ≠ [] && value.all isDomainChar

def validateSpiffePart (value partName : Utf16) (pattern : Utf16 → Bool) : Except Exn Unit :=
  if value = [] then .error (.illegalArgument (partName ++ text " cannot be null or empty"))
  else if 255 < value.length then
    .error (.illegalArgument (partName ++ text " must be between 1 and 255 characters"))
  else if !pattern value then
    .error (.illegalArgument (partName ++ text " contains invalid characters"))
  else .ok ()

def validatePublisherId (publisherId : Utf16) : Except Exn Unit :=
  if publisherId = [] then
    .error (.illegalArgument (text "publisher_id cannot be null or empty"))
  else match publisherId.splitOn commercialAt with
    | [role, domain] => do
      validateSpiffePart role (text "publisher role") spiffeChars
      validateSpiffePart domain (text "publisher domain") domainChars
      if [dot] <+: domain ∨ [dot] <:+ domain ∨ [dot, dot] <:+: domain then
        .error (.illegalArgument (text "publisher domain must be a valid domain"))
      else .ok ()
    | _ => .error (.illegalArgument (text "publisher_id must be in format <role>@<domain>"))

def validateAllowedOperatorRoles (allowedOperatorRoles : Utf16) : Except Exn Unit :=
  if allowedOperatorRoles = [] then
    .error (.illegalArgument (text "allowed_operator_roles cannot be empty"))
  else if maxAllowedOperatorRolesLength < allowedOperatorRoles.length then
    .error (.illegalArgument
      (text (s!"allowed_operator_roles must be no longer than {maxAllowedOperatorRolesLength}" ++
        " characters")))
  else if [space] <+: allowedOperatorRoles ∨ [space] <:+ allowedOperatorRoles ∨
      [space, space] <:+: allowedOperatorRoles then
    .error (.illegalArgument (text ("allowed_operator_roles must be separated by a single space," ++
      " with no leading or trailing spaces")))
  else forM (allowedOperatorRoles.splitOn space) (fun role =>
    validateSpiffePart role (text "operator role") spiffeChars)

/-- `annotations.get(key)`, null also where the map itself is null. -/
def annotationValue (annotations : Option TextMap) (key : Utf16) : Option Utf16 :=
  annotations.bind (fun map => (map.lookup key).join)

/-- What the three checks have in common: the annotation has to be there. -/
def validateAnnotation (claimName : String) (key : Utf16) (check : Utf16 → Except Exn Unit)
    (annotations : Option TextMap) : Except Exn Unit :=
  match annotationValue annotations key with
  | none => .error (.illegalArgument (text claimName ++
      text " claim needs to have annotations object with " ++ key ++ text " key!"))
  | some value => check value

def validatePublisherClaim : Option TextMap → Except Exn Unit :=
  validateAnnotation "Publisher" publisherIdKey validatePublisherId

def validateWorkloadClaim : Option TextMap → Except Exn Unit :=
  validateAnnotation "Workload" workloadIdKey
    (fun workloadId => validateSpiffePart workloadId (text "workload_id") spiffeChars)

def validateOperatorRolesClaim : Option TextMap → Except Exn Unit :=
  validateAnnotation "Operator roles" allowedOperatorRolesKey validateAllowedOperatorRoles

def validate (type : Utf16) (annotations : Option TextMap) : Except Exn Unit :=
  if type = publisherClaimType then validatePublisherClaim annotations
  else if type = workloadClaimType then validateWorkloadClaim annotations
  else if type = operatorRolesClaimType then validateOperatorRolesClaim annotations
  else .ok ()

def create (type : Option Utf16) (annotations : Option TextMap) : Except Exn Claim :=
  match type with
  | none => .error (.illegalArgument (text "Claim type is null!"))
  | some type => do
    validate type annotations
    .ok ⟨type, annotations⟩

/-! ## The grammars -/

def IsSpiffePart (s : Utf16) : Prop :=
  s ≠ [] ∧ s.length ≤ 255 ∧ ∀ c ∈ s, isSpiffeChar c = true

/-- At most 255 characters: labels over `[a-z0-9_-]` joined by dots. -/
def IsDomain (s : Utf16) : Prop :=
  s.length ≤ 255 ∧ Joined dot (fun label => label ≠ [] ∧ ∀ c ∈ label, isLabelChar c = true) s

/-- A role, an at sign and a domain. -/
def IsPublisherId (s : Utf16) : Prop :=
  ∃ role domain, s = role ++ commercialAt :: domain ∧ IsSpiffePart role ∧ IsDomain domain

/-- At most 1024 characters: roles joined by spaces. -/
def IsOperatorRoles (s : Utf16) : Prop := s.length ≤ 1024 ∧ Joined space IsSpiffePart s

/-- The annotations of a claim of the three types hold a text of the type's grammar. -/
structure WellFormed (type : Utf16) (value : Utf16 → Option Utf16) : Prop where
  publisher : type = publisherClaimType →
    ∃ publisherId, value publisherIdKey = some publisherId ∧ IsPublisherId publisherId
  workload : type = workloadClaimType →
    ∃ workloadId, value workloadIdKey = some workloadId ∧ IsSpiffePart workloadId
  operatorRoles : type = operatorRolesClaimType →
    ∃ roles, value allowedOperatorRolesKey = some roles ∧ IsOperatorRoles roles

theorem commercialAt_notMem {s : Utf16} (h : ∀ c ∈ s, isSpiffeChar c = true) :
    commercialAt ∉ s := fun hmem => absurd (h _ hmem) (by decide)

theorem validateSpiffePart_iff (value partName : Utf16) (pattern : Utf16 → Bool) :
    validateSpiffePart value partName pattern = .ok () ↔
      value ≠ [] ∧ value.length ≤ 255 ∧ pattern value = true := by
  unfold validateSpiffePart
  split_ifs with hempty hlong hpattern
  · simp [hempty]
  · simp only [false_iff]
    omega
  · simp_all
  · simp_all

theorem validateSpiffePart_spiffeChars (value partName : Utf16) :
    validateSpiffePart value partName spiffeChars = .ok () ↔ IsSpiffePart value := by
  rw [validateSpiffePart_iff, IsSpiffePart]
  simp only [spiffeChars, ne_eq, decide_not, Bool.and_eq_true, Bool.not_eq_eq_eq_not, Bool.not_true,
    decide_eq_false_iff_not, List.all_eq_true]
  tauto

/-- A domain passes the pattern and the test of its dots together. -/
theorem isDomain_iff (s : Utf16) :
    IsDomain s ↔ s.length ≤ 255 ∧ (∀ c ∈ s, isDomainChar c = true) ∧ s ≠ [] ∧
      ¬ ([dot] <+: s ∨ [dot] <:+ s ∨ [dot, dot] <:+: s) := by
  have hfree : ∀ label : Utf16, (label ≠ [] ∧ ∀ c ∈ label, isLabelChar c = true) → dot ∉ label :=
    fun label h hmem => absurd (h.2 _ hmem) (by decide)
  have hchars : (∀ c ∈ s, c ≠ dot → isLabelChar c = true) ↔ ∀ c ∈ s, isDomainChar c = true := by
    refine forall₂_congr fun c _ => ?_
    simp only [isDomainChar, Bool.or_eq_true, decide_eq_true_eq]
    tauto
  have hnonempty : (∀ label ∈ s.splitOn dot, label ≠ []) ↔ [] ∉ s.splitOn dot :=
    ⟨fun h hmem => h _ hmem rfl, fun h label hmem heq => h (heq ▸ hmem)⟩
  rw [IsDomain, joined_iff hfree]
  simp only [forall_and]
  rw [hnonempty, forall_mem_splitOn, hchars, nil_notMem_splitOn_iff]
  tauto

theorem validateDomain_iff (domain partName : Utf16) :
    validateSpiffePart domain partName domainChars = .ok () ∧
      ¬ ([dot] <+: domain ∨ [dot] <:+ domain ∨ [dot, dot] <:+: domain) ↔ IsDomain domain := by
  rw [validateSpiffePart_iff, isDomain_iff]
  simp only [domainChars, ne_eq, decide_not, Bool.and_eq_true, Bool.not_eq_eq_eq_not, Bool.not_true,
    decide_eq_false_iff_not, List.all_eq_true]
  tauto

theorem validatePublisherId_iff (publisherId : Utf16) :
    validatePublisherId publisherId = .ok () ↔ IsPublisherId publisherId := by
  constructor
  · intro h
    unfold validatePublisherId at h
    split_ifs at h with hempty
    split at h
    · rename_i role domain hsplit
      obtain ⟨rfl, -, -⟩ := (splitOn_eq_pair_iff ..).mp hsplit
      obtain ⟨_, hrole, h⟩ := except_bind_eq_ok.mp h
      obtain ⟨_, hdomain, h⟩ := except_bind_eq_ok.mp h
      split_ifs at h with hdots
      exact ⟨role, domain, rfl, (validateSpiffePart_spiffeChars ..).mp hrole,
        (validateDomain_iff ..).mp ⟨hdomain, hdots⟩⟩
    · cases h
  · rintro ⟨role, domain, rfl, hrole, hdomain⟩
    have hat : commercialAt ∉ domain := by
      refine commercialAt_notMem fun c hc => ?_
      simp [isSpiffeChar, ((isDomain_iff domain).mp hdomain).2.1 c hc]
    have hsplit : (role ++ commercialAt :: domain).splitOn commercialAt = [role, domain] :=
      (splitOn_eq_pair_iff ..).mpr ⟨rfl, commercialAt_notMem hrole.2.2, hat⟩
    obtain ⟨hchars, hdots⟩ := (validateDomain_iff domain (text "publisher domain")).mpr hdomain
    simp only [validatePublisherId, hsplit, hchars, hdots,
      (validateSpiffePart_spiffeChars role (text "publisher role")).mpr hrole]
    simp [bind, Except.bind]

/-- The test for stray spaces refuses nothing that the roles' own check would take. -/
theorem validateAllowedOperatorRoles_iff (roles : Utf16) :
    validateAllowedOperatorRoles roles = .ok () ↔ IsOperatorRoles roles := by
  have hfree : ∀ role, IsSpiffePart role → space ∉ role :=
    fun role h hmem => absurd (h.2.2 _ hmem) (by decide)
  have hnonempty : (∀ role ∈ roles.splitOn space, IsSpiffePart role) → [] ∉ roles.splitOn space :=
    fun h hmem => (h _ hmem).1 rfl
  rw [nil_notMem_splitOn_iff] at hnonempty
  rw [IsOperatorRoles, joined_iff hfree]
  unfold validateAllowedOperatorRoles
  split_ifs with hempty hlong hspaces
  · simp only [false_iff]
    exact fun h => (hnonempty h.2).1 hempty
  · simp only [false_iff]
    exact fun h => absurd h.1 (not_le.mpr hlong)
  · simp only [false_iff]
    exact fun h => (hnonempty h.2).2 hspaces
  · simp only [except_forM_eq_ok, validateSpiffePart_spiffeChars]
    exact ⟨fun h => ⟨not_lt.mp hlong, h⟩, fun h => h.2⟩

theorem validateAnnotation_iff {claimName : String} {key : Utf16} {check : Utf16 → Except Exn Unit}
    {Accepted : Utf16 → Prop} (hcheck : ∀ value, check value = .ok () ↔ Accepted value)
    (annotations : Option TextMap) :
    validateAnnotation claimName key check annotations = .ok () ↔
      ∃ value, annotationValue annotations key = some value ∧ Accepted value := by
  unfold validateAnnotation
  cases annotationValue annotations key with
  | none => simp
  | some value => simp [hcheck]

theorem claimTypes_distinct : publisherClaimType ≠ workloadClaimType ∧
    publisherClaimType ≠ operatorRolesClaimType ∧ workloadClaimType ≠ operatorRolesClaimType := by
  unfold publisherClaimType workloadClaimType operatorRolesClaimType
  simp

theorem validate_iff (type : Utf16) (annotations : Option TextMap) :
    validate type annotations = .ok () ↔ WellFormed type (annotationValue annotations) := by
  obtain ⟨hpw, hpo, hwo⟩ := claimTypes_distinct
  unfold validate
  -- one type at a time: the other two grammars ask nothing of it
  split_ifs with hpublisher hworkload hroles
  · rw [validatePublisherClaim, validateAnnotation_iff validatePublisherId_iff]
    exact ⟨fun h => ⟨fun _ => h, fun heq => absurd (hpublisher.symm.trans heq) hpw,
      fun heq => absurd (hpublisher.symm.trans heq) hpo⟩, fun h => h.publisher hpublisher⟩
  · rw [validateWorkloadClaim, validateAnnotation_iff (validateSpiffePart_spiffeChars · _)]
    exact ⟨fun h => ⟨fun heq => absurd heq hpublisher, fun _ => h,
      fun heq => absurd (hworkload.symm.trans heq) hwo⟩, fun h => h.workload hworkload⟩
  · rw [validateOperatorRolesClaim, validateAnnotation_iff validateAllowedOperatorRoles_iff]
    exact ⟨fun h => ⟨fun heq => absurd heq hpublisher, fun heq => absurd heq hworkload,
      fun _ => h⟩, fun h => h.operatorRoles hroles⟩
  · simp only [true_iff]
    exact ⟨fun heq => absurd heq hpublisher, fun heq => absurd heq hworkload,
      fun heq => absurd heq hroles⟩

/-- The constructor builds exactly the claims whose annotations follow their grammar. -/
theorem create_iff (type : Option Utf16) (annotations : Option TextMap) (claim : Claim) :
    create type annotations = .ok claim ↔
      type = some claim.type ∧ annotations = claim.annotations ∧
        WellFormed claim.type (annotationValue claim.annotations) := by
  cases type with
  | none => simp [create]
  | some type =>
    simp only [create, except_bind_eq_ok, Except.ok.injEq, Option.some.injEq]
    constructor
    · rintro ⟨u, hvalid, rfl⟩
      exact ⟨rfl, rfl, (validate_iff type annotations).mp hvalid⟩
    · rintro ⟨rfl, rfl, hwell⟩
      exact ⟨(), (validate_iff _ _).mpr hwell, rfl⟩

/-! ## What is refused -/

def IsIllegalArgument (e : Exn) : Prop := ∃ message, e = .illegalArgument message

theorem onlyThrows_illegalArgument {α : Type} (message : Utf16) :
    OnlyThrows IsIllegalArgument (.error (.illegalArgument message) : Except Exn α) :=
  .error ⟨message, rfl⟩

theorem validateSpiffePart_onlyThrows (value partName : Utf16) (pattern : Utf16 → Bool) :
    OnlyThrows IsIllegalArgument (validateSpiffePart value partName pattern) := by
  unfold validateSpiffePart
  split_ifs
  · exact onlyThrows_illegalArgument _
  · exact onlyThrows_illegalArgument _
  · exact onlyThrows_illegalArgument _
  · exact OnlyThrows.ok ()

theorem validatePublisherId_onlyThrows (publisherId : Utf16) :
    OnlyThrows IsIllegalArgument (validatePublisherId publisherId) := by
  unfold validatePublisherId
  split_ifs
  · exact onlyThrows_illegalArgument _
  · split
    · refine (validateSpiffePart_onlyThrows _ _ _).bind fun _ => ?_
      refine (validateSpiffePart_onlyThrows _ _ _).bind fun _ => ?_
      split_ifs
      · exact onlyThrows_illegalArgument _
      · exact OnlyThrows.ok ()
    · exact onlyThrows_illegalArgument _

theorem validateAllowedOperatorRoles_onlyThrows (roles : Utf16) :
    OnlyThrows IsIllegalArgument (validateAllowedOperatorRoles roles) := by
  unfold validateAllowedOperatorRoles
  split_ifs
  · exact onlyThrows_illegalArgument _
  · exact onlyThrows_illegalArgument _
  · exact onlyThrows_illegalArgument _
  · exact OnlyThrows.forM (fun role => validateSpiffePart_onlyThrows role _ _) _

/-- A claim of this type is built exactly when the annotation is there and follows the
grammar, and the constructor throws an `IllegalArgumentException` otherwise. -/
def AcceptsExactly (type key : Utf16) (Grammar : Utf16 → Prop) : Prop :=
  ∀ annotations : Option TextMap,
    ((∃ value, annotationValue annotations key = some value ∧ Grammar value) ∧
      create (some type) annotations = .ok ⟨type, annotations⟩) ∨
    ((¬ ∃ value, annotationValue annotations key = some value ∧ Grammar value) ∧
      ∃ message, create (some type) annotations = .error (.illegalArgument message))

theorem acceptsExactly_of_check {type key : Utf16} {Grammar : Utf16 → Prop}
    {check : Utf16 → Except Exn Unit} (claimName : String)
    (hvalidate : ∀ annotations,
      validate type annotations = validateAnnotation claimName key check annotations)
    (hcheck : ∀ value, check value = .ok () ↔ Grammar value)
    (hrefuses : ∀ value, OnlyThrows IsIllegalArgument (check value)) :
    AcceptsExactly type key Grammar := by
  intro annotations
  have hiff : validateAnnotation claimName key check annotations = .ok () ↔ _ :=
    validateAnnotation_iff hcheck annotations
  simp only [← hiff, create, hvalidate]
  cases hresult : validateAnnotation claimName key check annotations with
  | ok u => exact .inl ⟨rfl, rfl⟩
  | error e =>
    refine .inr ⟨by simp, ?_⟩
    unfold validateAnnotation at hresult
    split at hresult
    · cases hresult
      exact ⟨_, rfl⟩
    · obtain ⟨message, rfl⟩ := hrefuses _ e hresult
      exact ⟨message, rfl⟩

/-- The three types of claim that are checked accept exactly their grammars. -/
theorem create_acceptsExactly :
    AcceptsExactly publisherClaimType publisherIdKey IsPublisherId ∧
      AcceptsExactly workloadClaimType workloadIdKey IsSpiffePart ∧
      AcceptsExactly operatorRolesClaimType allowedOperatorRolesKey IsOperatorRoles := by
  obtain ⟨hpw, hpo, hwo⟩ := claimTypes_distinct
  refine ⟨?_, ?_, ?_⟩
  · refine acceptsExactly_of_check "Publisher" (fun annotations => ?_) validatePublisherId_iff
      validatePublisherId_onlyThrows
    rw [validate, if_pos rfl, validatePublisherClaim]
  · refine acceptsExactly_of_check "Workload" (fun annotations => ?_)
      (validateSpiffePart_spiffeChars · (text "workload_id"))
      (fun workloadId => validateSpiffePart_onlyThrows workloadId _ _)
    rw [validate, if_neg hpw.symm, if_pos rfl, validateWorkloadClaim]
  · refine acceptsExactly_of_check "Operator roles" (fun annotations => ?_)
      validateAllowedOperatorRoles_iff validateAllowedOperatorRoles_onlyThrows
    rw [validate, if_neg hpo.symm, if_neg hwo.symm, if_pos rfl, validateOperatorRolesClaim]

end Claim
end PublicEndorsement.Pes
