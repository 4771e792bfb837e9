import PublicEndorsement.JsonStatement

/-!
# The rules an accepted statement follows

The documented rules of a statement, read off its JSON tree, and how far the nested
constructors enforce them. Each reader is inverted once: what a successful read says
about the tree it was given. A null is never given to a constructor, so each level
relies on another one to refuse it; the one null that nobody refuses is a null in the
place of the only subject descriptor.
-/

namespace PublicEndorsement.Pes

open Mbs Jackson

/-! ## What a successful read says about the tree -/

section Readers

variable {α : Type} {fields : List (Utf16 × Json)} {name : Utf16} {tree : Json}

theorem textAt_of_field {sub : Json} (h : tree.field? name = some sub) (path : List Utf16) :
    tree.textAt (name :: path) = sub.textAt path := by
  rw [Json.textAt, h, Option.bind_some]

theorem required_eq_ok {read : Json → Except BindingProblem (Option α)} {value : Option α} :
    required fields name read = .ok value ↔
      ∃ tree, (Json.object fields).field? name = some tree ∧ read tree = .ok value := by
  simp only [required, Json.field?]
  cases fields.lookup name with
  | none => simp
  | some tree => simp

theorem readString_eq_ok {value : Option Utf16} (h : readString tree = .ok value) :
    value = tree.asText := by
  cases tree <;> simp_all [readString, Json.asText]

theorem required_readString {value : Option Utf16}
    (h : required fields name readString = .ok value) :
    value = (Json.object fields).textAt [name] := by
  obtain ⟨tree, hfield, hread⟩ := required_eq_ok.mp h
  rw [textAt_of_field hfield, readString_eq_ok hread, Json.textAt]

/-- A map holds the texts of the object it was read from. -/
theorem readMap_eq_ok {entries : Option TextMap} (h : readMap tree = .ok entries) (key : Utf16) :
    Claim.annotationValue entries key = tree.textAt [key] := by
  cases tree with
  | null =>
    cases h
    rfl
  | object fields =>
    obtain ⟨map, hmap, hentries⟩ := except_bind_eq_ok.mp h
    cases hentries
    rw [except_mapM_eq_ok] at hmap
    clear h
    simp only [Claim.annotationValue, Option.bind_some, Json.textAt, Json.field?]
    induction hmap with
    | nil => rfl
    | @cons entry pair rest pairs hentry _ ih =>
      obtain ⟨value, hvalue, hpair⟩ := except_bind_eq_ok.mp hentry
      cases hpair
      rw [List.lookup_cons, List.lookup_cons]
      cases key == entry.1 with
      | true => simp [readString_eq_ok hvalue]
      | false => exact ih
  | bool | number | string | array => cases h

theorem optional_readMap {entries : Option TextMap}
    (h : Jackson.optional fields name readMap = .ok entries) (key : Utf16) :
    Claim.annotationValue entries key = (Json.object fields).textAt [name, key] := by
  simp only [Jackson.optional] at h
  cases hfield : fields.lookup name with
  | none =>
    rw [hfield] at h
    cases h
    simp [Json.textAt, Json.field?, hfield, Claim.annotationValue]
  | some tree =>
    rw [hfield] at h
    have htree : (Json.object fields).field? name = some tree := hfield
    rw [readMap_eq_ok h key, textAt_of_field htree]

theorem construct_eq_ok {result : Except Exn α} {value : α} :
    construct result = .ok (some value) ↔ result = .ok value := by
  cases result <;> simp [construct]

theorem readObject_eq_ok {creator : List (Utf16 × Json) → Except BindingProblem (Option α)}
    {value : α} :
    readObject creator tree = .ok (some value) ↔
      ∃ fields, tree = .object fields ∧ creator fields = .ok (some value) := by
  cases tree <;> simp [readObject]

theorem readList_eq_ok {read : Json → Except BindingProblem (Option α)} {values : List (Option α)} :
    readList read tree = .ok (some values) ↔
      ∃ elements, tree = .array elements ∧
        List.Forall₂ (fun element value => read element = .ok value) elements values := by
  cases tree <;> simp [readList, except_bind_eq_ok, except_mapM_eq_ok]

end Readers

theorem Claim.read_eq_ok {tree : Json} {claim : Claim} (h : Claim.read tree = .ok (some claim)) :
    tree.textAt [text "type"] = some claim.type ∧
      Claim.WellFormed claim.type (fun key => tree.textAt [text "annotations", key]) := by
  obtain ⟨fields, rfl, h⟩ := readObject_eq_ok.mp h
  obtain ⟨type, htype, h⟩ := except_bind_eq_ok.mp h
  obtain ⟨annotations, hannotations, h⟩ := except_bind_eq_ok.mp h
  obtain ⟨htext, rfl, hwell⟩ := (Claim.create_iff ..).mp (construct_eq_ok.mp h)
  refine ⟨(required_readString htype).symm.trans htext, ?_⟩
  have hvalues : Claim.annotationValue claim.annotations =
      fun key => (Json.object fields).textAt [text "annotations", key] :=
    funext (optional_readMap hannotations)
  rw [← hvalues]
  exact hwell

theorem Validity.read_eq_ok {tree : Json} {validity : Validity}
    (h : Validity.read tree = .ok (some validity)) :
    validity.notAfter = tree.textAt [text "notAfter"] := by
  obtain ⟨fields, rfl, h⟩ := readObject_eq_ok.mp h
  obtain ⟨_, _, h⟩ := except_bind_eq_ok.mp h
  obtain ⟨notAfter, hnotAfter, h⟩ := except_bind_eq_ok.mp h
  cases construct_eq_ok.mp h
  exact required_readString hnotAfter

theorem construct_ne_none {α : Type} (result : Except Exn α) : construct result ≠ .ok none := by
  cases result <;> simp [construct]

def IsSha256 (digest : Utf16) : Prop :=
  digest.length = 64 ∧ ∀ c ∈ digest, ResourceDescriptor.isLowerHex c = true

namespace ResourceDescriptor

theorem validateAlgorithm_eq_ok {digest : TextMap} {foundValid found : Bool}
    {entry : Utf16 × (Utf16 → Bool)} :
    validateAlgorithm digest foundValid entry = .ok found ↔
      (digest.lookup entry.1 = none ∧ found = foundValid) ∨
        ∃ value, digest.lookup entry.1 = some (some value) ∧ entry.2 value = true ∧
          found = true := by
  unfold validateAlgorithm
  cases digest.lookup entry.1 with
  | none =>
    constructor
    · intro h
      cases h
      exact .inl ⟨rfl, rfl⟩
    · rintro (⟨_, rfl⟩ | ⟨_, hvalue, _⟩)
      · rfl
      · cases hvalue
  | some value =>
    cases value with
    | none => simp
    | some value =>
      by_cases hmatch : entry.2 value = true
      · cases found <;> simp [hmatch]
      · simp [hmatch]

theorem validateDigest_iff (digest : TextMap) :
    validateDigest digest = .ok () ↔
      ∃ value, digest.lookup (text "sha256") = some (some value) ∧ IsSha256 value := by
  have hpattern : ∀ value : Utf16,
      (decide (value.length = 64) && value.all isLowerHex) = true ↔ IsSha256 value := by
    simp [IsSha256]
  unfold validateDigest
  simp only [intotoDigestPatterns, List.foldlM_cons, List.foldlM_nil, bind_pure]
  constructor
  · intro h
    split_ifs at h with hempty
    obtain ⟨found, hloop, h⟩ := except_bind_eq_ok.mp h
    split_ifs at h with hfound
    rcases validateAlgorithm_eq_ok.mp hloop with ⟨_, rfl⟩ | ⟨value, hvalue, hmatch, _⟩
    · cases hfound
    · exact ⟨value, hvalue, (hpattern value).mp hmatch⟩
  · rintro ⟨value, hvalue, hsha⟩
    have hempty : digest ≠ [] := by
      rintro rfl
      cases hvalue
    rw [if_neg hempty, except_bind_eq_ok]
    exact ⟨true, validateAlgorithm_eq_ok.mpr (.inr ⟨value, hvalue, (hpattern value).mpr hsha, rfl⟩),
      rfl⟩

theorem read_eq_ok {tree : Json} {descriptor : ResourceDescriptor}
    (h : read tree = .ok (some descriptor)) :
    ∃ digest, tree.textAt [text "digest", text "sha256"] = some digest ∧ IsSha256 digest := by
  obtain ⟨fields, rfl, h⟩ := readObject_eq_ok.mp h
  obtain ⟨_, _, h⟩ := except_bind_eq_ok.mp h
  obtain ⟨digest, hdigest, h⟩ := except_bind_eq_ok.mp h
  have hcreate := construct_eq_ok.mp h
  cases digest with
  | none => cases hcreate
  | some digest =>
    obtain ⟨_, hvalid, _⟩ := except_bind_eq_ok.mp hcreate
    obtain ⟨value, hvalue, hsha⟩ := (validateDigest_iff digest).mp hvalid
    refine ⟨value, ?_, hsha⟩
    rw [← optional_readMap hdigest, Claim.annotationValue, Option.bind_some, hvalue,
      Option.join_some]

/-- No constructor returns null: a null descriptor was a null in the tree. -/
theorem eq_null_of_read {tree : Json} (h : read tree = .ok none) : tree = .null := by
  cases tree with
  | null => rfl
  | object fields =>
    obtain ⟨_, _, h⟩ := except_bind_eq_ok.mp h
    obtain ⟨_, _, h⟩ := except_bind_eq_ok.mp h
    exact absurd h (construct_ne_none _)
  | bool | number | string | array => cases h

end ResourceDescriptor

namespace OakPredicate

theorem eq_map_some_of_mapM {α : Type} {xs : List (Option α)} {ys : List α}
    (h : xs.mapM id = some ys) : xs = ys.map some := by
  induction xs generalizing ys with
  | nil =>
    cases h
    rfl
  | cons x xs ih =>
    simp only [List.mapM_cons, id_eq, Option.bind_eq_bind, Option.bind_eq_some_iff] at h
    obtain ⟨y, rfl, rest, hrest, heq⟩ := h
    cases heq
    rw [ih hrest, List.map_cons]

theorem create_eq_ok {validity : Option Validity} {claims : Option (List (Option Claim))}
    {predicate : OakPredicate} (h : create validity claims = .ok predicate) :
    claims = some (predicate.claims.map some) ∧ predicate.validity = validity ∧
      predicate.claims.countP (fun claim => claim.type = Claim.operatorRolesClaimType) ≤ 1 := by
  unfold create at h
  split at h
  · cases h
  · cases h
  · split at h
    · cases h
    · rename_i claims _ present hpresent
      simp only at h
      split_ifs at h with hcount
      cases h
      exact ⟨congrArg some (eq_map_some_of_mapM hpresent), rfl, not_lt.mp hcount⟩

/-- The claims of a predicate are those of the tree, one by one. -/
theorem read_eq_ok {tree : Json} {predicate : OakPredicate}
    (h : read tree = .ok (some predicate)) :
    (∃ elements, tree.field? (text "claims") = some (.array elements) ∧
      List.Forall₂ (fun element claim => Claim.read element = .ok (some claim)) elements
        predicate.claims) ∧
      predicate.claims.countP (fun claim => claim.type = Claim.operatorRolesClaimType) ≤ 1 ∧
      ∀ validity, predicate.validity = some validity →
        validity.notAfter = tree.textAt [text "validity", text "notAfter"] := by
  obtain ⟨fields, rfl, h⟩ := readObject_eq_ok.mp h
  obtain ⟨_, _, h⟩ := except_bind_eq_ok.mp h
  obtain ⟨validity, hvalidity, h⟩ := except_bind_eq_ok.mp h
  obtain ⟨claims, hclaims, h⟩ := except_bind_eq_ok.mp h
  obtain ⟨rfl, rfl, hcount⟩ := create_eq_ok (construct_eq_ok.mp h)
  obtain ⟨claimsTree, hclaimsField, hclaims⟩ := required_eq_ok.mp hclaims
  obtain ⟨elements, rfl, hall⟩ := readList_eq_ok.mp hclaims
  rw [List.forall₂_map_right_iff] at hall
  refine ⟨⟨elements, hclaimsField, hall⟩, hcount, ?_⟩
  intro v hv
  obtain ⟨validityTree, hvalidityField, hvalidity⟩ := required_eq_ok.mp hvalidity
  rw [hv] at hvalidity
  rw [Validity.read_eq_ok hvalidity, textAt_of_field hvalidityField]

end OakPredicate

namespace InTotoStatement

theorem create_eq_ok {type predicateType : Option Utf16}
    {subject : Option (List (Option ResourceDescriptor))} {predicate : Option OakPredicate}
    {statement : InTotoStatement}
    (h : create type subject predicateType predicate = .ok statement) :
    type = some typeV1 ∧ predicateType = some oakPredicateV1Type ∧
      (∃ descriptor, subject = some [descriptor]) ∧ statement.predicate = predicate := by
  unfold create at h
  split at h
  · cases h
  · split_ifs at h with htype
    split at h
    · cases h
    · split_ifs at h with hpredicateType
      split at h
      · cases h
        exact ⟨congrArg some (not_not.mp htype), congrArg some (not_not.mp hpredicateType),
          ⟨_, rfl⟩, rfl⟩
      · cases h

theorem read_eq_ok {tree : Json} {statement : InTotoStatement}
    (h : read tree = .ok (some statement)) :
    tree.textAt [text "_type"] = some typeV1 ∧
      tree.textAt [text "predicateType"] = some oakPredicateV1Type ∧
      (∃ element descriptor, tree.field? (text "subject") = some (.array [element]) ∧
        ResourceDescriptor.read element = .ok descriptor) ∧
      ∀ predicate, statement.predicate = some predicate →
        ∃ predicateTree, tree.field? (text "predicate") = some predicateTree ∧
          OakPredicate.read predicateTree = .ok (some predicate) := by
  obtain ⟨fields, rfl, h⟩ := readObject_eq_ok.mp h
  obtain ⟨type, htype, h⟩ := except_bind_eq_ok.mp h
  obtain ⟨subject, hsubject, h⟩ := except_bind_eq_ok.mp h
  obtain ⟨predicateType, hpredicateType, h⟩ := except_bind_eq_ok.mp h
  obtain ⟨predicate, hpredicate, h⟩ := except_bind_eq_ok.mp h
  obtain ⟨rfl, rfl, ⟨descriptor, rfl⟩, rfl⟩ := create_eq_ok (construct_eq_ok.mp h)
  obtain ⟨subjectTree, hsubjectField, hsubject⟩ := required_eq_ok.mp hsubject
  obtain ⟨elements, rfl, hall⟩ := readList_eq_ok.mp hsubject
  obtain ⟨element, _, helement, hnil, rfl⟩ := List.forall₂_cons_right_iff.mp hall
  cases List.forall₂_nil_right_iff.mp hnil
  refine ⟨(required_readString htype).symm, (required_readString hpredicateType).symm,
    ⟨element, descriptor, hsubjectField, helement⟩, ?_⟩
  intro p hp
  rw [hp] at hpredicate
  exact required_eq_ok.mp hpredicate

end InTotoStatement

/-! ## The documented rules -/

def Json.isClaimOf (type : Utf16) (claim : Json) : Bool := claim.textAt [text "type"] = some type

/-- The rules of a statement: its two types, one subject descriptor with a SHA-256
digest, one publisher claim, at most one claim of operator roles, well-formed claims,
and a validity that ends in time. -/
structure MeetsRules (parsers : Parsers) (maxNotAfter : Instant) (tree : Json) : Prop where
  type : tree.textAt [text "_type"] = some InTotoStatement.typeV1
  predicateType : tree.textAt [text "predicateType"] = some InTotoStatement.oakPredicateV1Type
  subject : ∃ descriptor digest, tree.field? (text "subject") = some (.array [descriptor]) ∧
    descriptor.textAt [text "digest", text "sha256"] = some digest ∧ IsSha256 digest
  claims : ∃ predicate claims, tree.field? (text "predicate") = some predicate ∧
    predicate.field? (text "claims") = some (.array claims) ∧
    claims.countP (Json.isClaimOf Claim.publisherClaimType) = 1 ∧
    claims.countP (Json.isClaimOf Claim.operatorRolesClaimType) ≤ 1 ∧
    ∀ claim ∈ claims, ∃ type, claim.textAt [text "type"] = some type ∧
      Claim.WellFormed type (fun key => claim.textAt [text "annotations", key])
  notAfter : ∃ notAfter t,
    tree.textAt [text "predicate", text "validity", text "notAfter"] = some notAfter ∧
    parsers.parseInstant notAfter = some t ∧ t ≤ maxNotAfter

/-- As many claims of each type stand in the tree as in the predicate read from it. -/
theorem countP_claims {elements : List Json} {claims : List Claim}
    (h : List.Forall₂ (fun element claim => Claim.read element = .ok (some claim)) elements claims)
    (type : Utf16) :
    elements.countP (Json.isClaimOf type) = claims.countP (fun claim => claim.type = type) := by
  induction h with
  | nil => rfl
  | cons hread _ ih =>
    rw [List.countP_cons, List.countP_cons, ih, Json.isClaimOf, (Claim.read_eq_ok hread).1]
    simp only [Option.some.injEq]

theorem exists_claim_of_mem {elements : List Json} {claims : List Claim}
    (h : List.Forall₂ (fun element claim => Claim.read element = .ok (some claim)) elements claims)
    {element : Json} (hmem : element ∈ elements) :
    ∃ claim, Claim.read element = .ok (some claim) := by
  induction h with
  | nil => cases hmem
  | cons hread _ ih =>
    rcases List.mem_cons.mp hmem with rfl | hrest
    · exact ⟨_, hread⟩
    · exact ih hrest

theorem ObjectMapper.readValue_eq_ok {mapper : ObjectMapper} {content : Bytes} {tree : Json}
    (htree : mapper.readTree content = .ok tree) {statement : Option InTotoStatement} :
    mapper.readValue content = .ok statement ↔ InTotoStatement.read tree = .ok statement := by
  simp only [ObjectMapper.readValue, htree, bind, Except.bind]
  cases InTotoStatement.read tree <;> simp

theorem not_meetsRules_of_null {parsers : Parsers} {maxNotAfter : Instant} {tree : Json}
    (hnull : tree.field? (text "subject") = some (.array [.null])) :
    ¬ MeetsRules parsers maxNotAfter tree := by
  intro hrules
  obtain ⟨descriptor, digest, hsubject, hdigest, -⟩ := hrules.subject
  rw [hnull] at hsubject
  cases hsubject
  cases hdigest

variable {ω : Type}

/-- Among the statements that are accepted, those that break a rule are those whose
only subject descriptor is a null. -/
theorem accepted_meetsRules_iff (parsers : Parsers) (mapper : ObjectMapper) (store : PolicyStore)
    (statement : Statement) (identity : CallerIdentity) (signature : StatementSignature)
    (maxNotAfter : Instant) (tree : Json) (verified : VerifiedEndorsement)
    (htree : mapper.readTree statement.serialized = .ok tree)
    (haccepted : (EndorsementVerifier.parseAndVerify { parsers with readValue := mapper.readValue }
        store statement identity signature maxNotAfter :
        Traced (Event ω) Exn VerifiedEndorsement).outcome = .ok verified) :
    MeetsRules parsers maxNotAfter tree ↔
      tree.field? (text "subject") ≠ some (.array [.null]) := by
  constructor
  · intro hrules hnull
    exact not_meetsRules_of_null hnull hrules
  · intro hsubject
    obtain ⟨parsed, predicate, t, hread, hpredicate, hexpires, hlatest, hnames⟩ :=
      ((parseAndVerify_iff ..).mp haccepted).parses
    obtain ⟨htype, hpredicateType, ⟨element, descriptor, helement, hdescriptor⟩, hpredicates⟩ :=
      InTotoStatement.read_eq_ok ((ObjectMapper.readValue_eq_ok htree).mp hread)
    obtain ⟨predicateTree, hpredicateTree, hreadPredicate⟩ := hpredicates predicate hpredicate
    obtain ⟨⟨elements, helements, hall⟩, hroles, hvalidity⟩ :=
      OakPredicate.read_eq_ok hreadPredicate
    obtain ⟨validity, notAfter, hvalid, hnotAfter, hparse⟩ := hexpires
    obtain ⟨claim, annotations, hclaim, -⟩ := hnames
    refine ⟨htype, hpredicateType, ?_, ?_, ?_⟩
    · cases descriptor with
      | none =>
        rw [ResourceDescriptor.eq_null_of_read hdescriptor] at helement
        exact absurd helement hsubject
      | some descriptor =>
        obtain ⟨digest, hdigest, hsha⟩ := ResourceDescriptor.read_eq_ok hdescriptor
        exact ⟨element, digest, helement, hdigest, hsha⟩
    · refine ⟨predicateTree, elements, hpredicateTree, helements, ?_, ?_, ?_⟩
      · rw [countP_claims hall, List.countP_eq_length_filter]
        exact congrArg List.length hclaim
      · rw [countP_claims hall]
        exact hroles
      · intro element hmem
        obtain ⟨claim, hread⟩ := exists_claim_of_mem hall hmem
        exact ⟨claim.type, Claim.read_eq_ok hread⟩
    · refine ⟨notAfter, t, ?_, hparse, hlatest⟩
      rw [textAt_of_field hpredicateTree, ← hvalidity validity hvalid, hnotAfter]

/-! ## A statement with and without its descriptor -/

theorem lookup_text {α : Type} (name key : String) (value : α) (rest : List (Utf16 × α)) :
    ((text key, value) :: rest).lookup (text name) =
      if name = key then some value else rest.lookup (text name) := by
  rw [List.lookup_cons]
  by_cases h : name = key
  · simp [h]
  · have hne : (text name == text key) = false := by simp [h]
    simp [h, hne]

theorem required_string {fields : List (Utf16 × Json)} {name value : Utf16}
    (h : fields.lookup name = some (.string value)) :
    required fields name readString = .ok (some value) :=
  required_eq_ok.mpr ⟨_, h, rfl⟩

def demoClaimTree : Json := .object [
  (text "type", .string Claim.publisherClaimType),
  (text "annotations", .object [(text "publisher_id", .string (text "role@domain"))])]

def demoStartTime : Utf16 := text "2026-01-01T00:00:00Z"
def demoEndTime : Utf16 := text "2027-01-01T00:00:00Z"

def demoValidityTree : Json := .object [
  (text "notBefore", .string demoStartTime), (text "notAfter", .string demoEndTime)]

def demoPredicateTree : Json := .object [
  (text "issuedOn", .string demoStartTime), (text "validity", demoValidityTree),
  (text "claims", .array [demoClaimTree])]

/-- A statement that follows every rule but, maybe, the one on its subject. -/
def demoTree (descriptor : Json) : Json := .object [
  (text "_type", .string InTotoStatement.typeV1),
  (text "subject", .array [descriptor]),
  (text "predicateType", .string InTotoStatement.oakPredicateV1Type),
  (text "predicate", demoPredicateTree)]

def demoDescriptor : Json := .object [
  (text "digest", .object [(text "sha256", .string (List.replicate 64 0x30))])]

def demoClaim : Claim :=
  ⟨Claim.publisherClaimType, some [(text "publisher_id", some (text "role@domain"))]⟩

def demoPredicate : OakPredicate := ⟨some ⟨some demoEndTime⟩, [demoClaim]⟩

theorem read_demoDescriptor : ResourceDescriptor.read demoDescriptor =
    .ok (some ⟨none, [(text "sha256", some (List.replicate 64 0x30))]⟩) := by
  refine readObject_eq_ok.mpr ⟨_, rfl, ?_⟩
  refine except_bind_eq_ok.mpr ⟨none, by simp [Jackson.optional, lookup_text], ?_⟩
  refine except_bind_eq_ok.mpr ⟨some [(text "sha256", some (List.replicate 64 0x30))], ?_, ?_⟩
  · rw [Jackson.optional, lookup_text, if_pos rfl]
    rfl
  · have hvalid : ResourceDescriptor.validateDigest
        [(text "sha256", some (List.replicate 64 0x30))] = .ok () := by
      rw [ResourceDescriptor.validateDigest_iff]
      refine ⟨_, by rw [lookup_text, if_pos rfl], List.length_replicate, fun c hc => ?_⟩
      rw [List.eq_of_mem_replicate hc]
      decide
    exact construct_eq_ok.mpr (except_bind_eq_ok.mpr ⟨(), hvalid, rfl⟩)

theorem read_demoClaimTree : Claim.read demoClaimTree = .ok (some demoClaim) := by
  have hvalid : Claim.validate Claim.publisherClaimType demoClaim.annotations = .ok () := by
    rw [Claim.validate, if_pos rfl]
    decide +kernel
  refine readObject_eq_ok.mpr ⟨_, rfl, ?_⟩
  refine except_bind_eq_ok.mpr ⟨some Claim.publisherClaimType, required_string ?_, ?_⟩
  · rw [lookup_text, if_pos rfl]
  refine except_bind_eq_ok.mpr ⟨demoClaim.annotations, ?_, ?_⟩
  · rw [Jackson.optional, lookup_text, if_neg (by simp), lookup_text, if_pos rfl]
    rfl
  · exact construct_eq_ok.mpr (except_bind_eq_ok.mpr ⟨(), hvalid, rfl⟩)

theorem read_demoValidityTree : Validity.read demoValidityTree = .ok (some ⟨some demoEndTime⟩) := by
  refine readObject_eq_ok.mpr ⟨_, rfl, ?_⟩
  refine except_bind_eq_ok.mpr ⟨some demoStartTime, required_string ?_, ?_⟩
  · rw [lookup_text, if_pos rfl]
  · exact except_bind_eq_ok.mpr ⟨some demoEndTime, required_string (by simp [lookup_text]), rfl⟩

theorem read_demoPredicateTree :
    OakPredicate.read demoPredicateTree = .ok (some demoPredicate) := by
  have hcreate : OakPredicate.create (some ⟨some demoEndTime⟩) (some [some demoClaim]) =
      .ok demoPredicate := by
    simp [OakPredicate.create, demoPredicate, demoClaim, Claim.claimTypes_distinct]
  refine readObject_eq_ok.mpr ⟨_, rfl, ?_⟩
  refine except_bind_eq_ok.mpr ⟨some demoStartTime, required_string ?_, ?_⟩
  · rw [lookup_text, if_pos rfl]
  refine except_bind_eq_ok.mpr ⟨some ⟨some demoEndTime⟩, required_eq_ok.mpr
    ⟨demoValidityTree, by simp [Json.field?, lookup_text], read_demoValidityTree⟩, ?_⟩
  refine except_bind_eq_ok.mpr ⟨some [some demoClaim], required_eq_ok.mpr
    ⟨.array [demoClaimTree], by simp [Json.field?, lookup_text], ?_⟩, ?_⟩
  · exact readList_eq_ok.mpr ⟨_, rfl, .cons read_demoClaimTree .nil⟩
  · exact construct_eq_ok.mpr hcreate

/-- Any descriptor that can be read will do. -/
theorem read_demoTree {descriptor : Json} {read : Option ResourceDescriptor}
    (h : ResourceDescriptor.read descriptor = .ok read) :
    InTotoStatement.read (demoTree descriptor) = .ok (some ⟨some demoPredicate⟩) := by
  refine readObject_eq_ok.mpr ⟨_, rfl, ?_⟩
  refine except_bind_eq_ok.mpr ⟨some InTotoStatement.typeV1, required_string ?_, ?_⟩
  · rw [lookup_text, if_pos rfl]
  refine except_bind_eq_ok.mpr ⟨some [read], required_eq_ok.mpr
    ⟨.array [descriptor], by simp [Json.field?, lookup_text], ?_⟩, ?_⟩
  · exact readList_eq_ok.mpr ⟨_, rfl, .cons h .nil⟩
  refine except_bind_eq_ok.mpr ⟨some InTotoStatement.oakPredicateV1Type,
    required_string (by simp [lookup_text]), ?_⟩
  refine except_bind_eq_ok.mpr ⟨some demoPredicate, required_eq_ok.mpr
    ⟨demoPredicateTree, by simp [Json.field?, lookup_text], read_demoPredicateTree⟩, ?_⟩
  exact construct_eq_ok.mpr (by simp [InTotoStatement.create])

def demoMapper (tree : Json) : ObjectMapper := ⟨fun _ => .ok tree, fun _ => []⟩

def demoParsers : Parsers := ⟨fun _ => .ok none, fun _ => some 0, fun _ => []⟩

def demoMaterial : VerificationMaterial := ⟨[4], .ecdsaP256Sha256⟩

def demoStore : PolicyStore where
  bucketName := []
  getObject := fun _ => .stream (some [])
  parseJson := fun _ => some ⟨text "role@domain", [⟨[105], [115]⟩],
    [{ material := some (.ecdsaP256Sha256 { derBytes := [4] }) }]⟩

theorem demoIssuer_not_blank : isBlank [105] = false := by decide

theorem demoSubject_not_blank : isBlank [115] = false := by decide

def demoCaller : CallerIdentity :=
  ⟨[105], [115], [], demoIssuer_not_blank, demoSubject_not_blank⟩

theorem demoTree_accepted {descriptor : Json} {read : Option ResourceDescriptor}
    (h : ResourceDescriptor.read descriptor = .ok read) :
    (EndorsementVerifier.parseAndVerify
      { demoParsers with readValue := (demoMapper (demoTree descriptor)).readValue } demoStore
      ⟨.jsonIntoto, []⟩ demoCaller ⟨[2], demoMaterial⟩ 0 :
      Traced (Event Empty) Exn VerifiedEndorsement).outcome = .ok ⟨text "role@domain"⟩ := by
  rw [parseAndVerify_iff]
  refine ⟨by decide, ⟨⟨some demoPredicate⟩, demoPredicate, 0, ?_, rfl, ⟨_, _, rfl, rfl, rfl⟩,
    le_rfl, ?_⟩, ⟨_, rfl, rfl, List.Mem.head _, List.Mem.head _⟩⟩
  · exact (ObjectMapper.readValue_eq_ok rfl).mpr (read_demoTree h)
  · refine ⟨demoClaim, _, ?_, rfl, ?_⟩
    · simp [OakPredicate.publisherClaims, demoPredicate, demoClaim]
    · rw [Claim.publisherIdKey, lookup_text, if_pos rfl, Option.join_some]

theorem demo_meetsRules :
    (EndorsementVerifier.parseAndVerify
      { demoParsers with readValue := (demoMapper (demoTree demoDescriptor)).readValue } demoStore
      ⟨.jsonIntoto, []⟩ demoCaller ⟨[2], demoMaterial⟩ 0 :
      Traced (Event Empty) Exn VerifiedEndorsement).outcome = .ok ⟨text "role@domain"⟩ ∧
      MeetsRules demoParsers 0 (demoTree demoDescriptor) := by
  have haccepted := demoTree_accepted read_demoDescriptor
  refine ⟨haccepted, (accepted_meetsRules_iff demoParsers _ _ _ _ _ 0 _ _ rfl haccepted).mpr ?_⟩
  simp [demoTree, demoDescriptor, Json.field?, lookup_text]

/-- A statement about nothing is accepted: its only subject is `null`. -/
theorem null_subject_accepted :
    (EndorsementVerifier.parseAndVerify
      { demoParsers with readValue := (demoMapper (demoTree .null)).readValue } demoStore
      ⟨.jsonIntoto, []⟩ demoCaller ⟨[2], demoMaterial⟩ 0 :
      Traced (Event Empty) Exn VerifiedEndorsement).outcome = .ok ⟨text "role@domain"⟩ ∧
      (demoMapper (demoTree .null)).readTree [] = .ok (demoTree .null) ∧
      ¬ MeetsRules demoParsers 0 (demoTree .null) := by
  refine ⟨demoTree_accepted rfl, rfl, not_meetsRules_of_null ?_⟩
  simp [demoTree, Json.field?, lookup_text]

end PublicEndorsement.Pes
