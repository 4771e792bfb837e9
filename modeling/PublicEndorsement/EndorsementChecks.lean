import PublicEndorsement.EndorsementService

/-!
# What each check decides

`Admissible` says, in terms of the request and the contents of the stores, when an
endorsement may be published. Each check of the code decides its share of it and
causes no event but the approval of a publisher.
-/

namespace PublicEndorsement.Pes

open Mbs

variable {ω : Type}

def OakPredicate.NamesPublisher (predicate : OakPredicate) (publisherId : Utf16) : Prop :=
  ∃ claim annotations, predicate.publisherClaims = [claim] ∧
    claim.annotations = some annotations ∧
    (annotations.lookup Claim.publisherIdKey).join = some publisherId

def OakPredicate.ExpiresAt (parsers : Parsers) (predicate : OakPredicate) (t : Instant) : Prop :=
  ∃ validity notAfter, predicate.validity = some validity ∧ validity.notAfter = some notAfter ∧
    parsers.parseInstant notAfter = some t

/-- A policy authorises this caller to publish under this id with this key material. -/
structure PublisherPolicy.Authorises (policy : PublisherPolicy) (publisherId : Utf16)
    (identity : CallerIdentity) (material : VerificationMaterial) : Prop where
  names : policy.publisherId = publisherId
  lists_caller : ⟨identity.issuer, identity.subject⟩ ∈ policy.oidcTokenClaims
  lists_material : material ∈ policy.verificationMaterialList

def SignatureVerifies (jca : Jca) (signature : StatementSignature) (data : Bytes) : Prop :=
  ∃ key algorithm, PublicKeyParser.parse jca signature.verificationMaterial = .ok key ∧
    SignatureVerifierImpl.deduceAlgorithm key = .ok algorithm ∧
    jca.verify algorithm key data signature.signature = .ok true

/-- The request may be published by publisher `publisherId` and signed with `mbcs`. -/
structure Admissible (ports : Ports ω) (e : Endorsement) (identity : CallerIdentity)
    (mbcs : List MeasurementBoundCertificate) (publisherId : Utf16) : Prop where
  format_specified : e.statement.format ≠ .formatUnspecified
  has_provider : (publisherIdProviders ports.parsers e.statement.format).isSome
  trust_package : ports.getActiveTrustPackage = .ok mbcs
  trust_package_nonempty : mbcs ≠ []
  parses : ∃ statement predicate t,
    ports.parsers.readValue e.statement.serialized = .ok (some statement) ∧
    statement.predicate = some predicate ∧ predicate.ExpiresAt ports.parsers t ∧
    (∀ mbc ∈ mbcs, t ≤ notAfterInstant mbc.certificate) ∧ predicate.NamesPublisher publisherId
  policy : ∃ policy,
    S3PolicyProvider.get ports.store (CallerIdentity.escape publisherId) = .ok (some policy) ∧
    policy.Authorises publisherId identity e.statementSignature.verificationMaterial
  issuer_not_blank : isBlank identity.issuer = false
  subject_not_blank : isBlank identity.subject = false
  material_nonempty : e.statementSignature.verificationMaterial.content ≠ []
  material_supported : e.statementSignature.verificationMaterial.format = .x509Der ∨
    e.statementSignature.verificationMaterial.format = .ecdsaP256Sha256
  verifies : SignatureVerifies ports.jca e.statementSignature e.statement.serialized

section Checks

theorem parse_material {jca : Jca} {m : VerificationMaterial} {key : PublicKey}
    (h : PublicKeyParser.parse jca m = .ok key) :
    m.content ≠ [] ∧ (m.format = .x509Der ∨ m.format = .ecdsaP256Sha256) := by
  unfold PublicKeyParser.parse at h
  split_ifs at h with hempty
  refine ⟨hempty, ?_⟩
  cases hformat : m.format with
  | formatUnspecified => simp [hformat] at h
  | x509Der => exact .inl rfl
  | ecdsaP256Sha256 => exact .inr rfl

theorem signature_verify_iff (jca : Jca) (signature : StatementSignature) (data : Bytes) :
    SignatureVerifierImpl.verify jca signature data = .ok () ↔
      SignatureVerifies jca signature data := by
  unfold SignatureVerifierImpl.verify SignatureVerifies
  cases PublicKeyParser.parse jca signature.verificationMaterial with
  | error e => simp [bind, Except.bind]
  | ok key =>
    cases halg : SignatureVerifierImpl.deduceAlgorithm key with
    | error e => simp [bind, Except.bind, halg]
    | ok algorithm =>
      simp only [bind, Except.bind, halg]
      cases hverify : jca.verify algorithm key data signature.signature with
      | error f => cases f <;> simp [halg, hverify]
      | ok verdict => cases verdict <;> simp [halg, hverify]

theorem getValidPublisherId_iff (parsers : Parsers) (bytes : Bytes) (publisherId : Utf16) :
    JsonPublisherIdProvider.getValidPublisherId parsers bytes = .ok (some publisherId) ↔
      ∃ statement predicate, parsers.readValue bytes = .ok (some statement) ∧
        statement.predicate = some predicate ∧ predicate.NamesPublisher publisherId := by
  unfold JsonPublisherIdProvider.getValidPublisherId OakPredicate.NamesPublisher
  cases hread : parsers.readValue bytes with
  | error message => simp
  | ok parsed =>
    cases parsed with
    | none => simp
    | some statement =>
      cases hpred : statement.predicate with
      | none => simp [hpred]
      | some predicate =>
        simp only [hpred, Except.ok.injEq, Option.some.injEq, exists_and_left, exists_eq_left']
        rcases predicate.publisherClaims with _ | ⟨claim, _ | ⟨second, rest⟩⟩
        · simp
        · cases hann : claim.annotations with
          | none => simp [hann]
          | some annotations => simp [hann]
        · simp

theorem validatePredicateType_iff (parsed : Option InTotoStatement) (predicate : OakPredicate) :
    EndorsementVerifier.validatePredicateType parsed = .ok predicate ↔
      ∃ statement, parsed = some statement ∧ statement.predicate = some predicate := by
  unfold EndorsementVerifier.validatePredicateType
  cases parsed with
  | none => simp
  | some statement =>
    cases hpred : statement.predicate with
    | none => simp [hpred]
    | some p => simp [hpred]

theorem validateNotAfter_iff (parsers : Parsers) (predicate : OakPredicate) (latest : Instant) :
    EndorsementVerifier.validateNotAfter parsers predicate latest = .ok () ↔
      ∃ t, predicate.ExpiresAt parsers t ∧ t ≤ latest := by
  unfold EndorsementVerifier.validateNotAfter OakPredicate.ExpiresAt
  cases predicate.validity with
  | none => simp
  | some validity =>
    cases hstr : validity.notAfter with
    | none => simp [hstr]
    | some notAfter =>
      cases hparse : parsers.parseInstant notAfter with
      | none => simp [EndorsementVerifier.parseInstant, hstr, hparse, bind, Except.bind]
      | some t =>
        by_cases hlate : latest < t
        · simp [EndorsementVerifier.parseInstant, hstr, hparse, bind, Except.bind, hlate]
        · simp [EndorsementVerifier.parseInstant, hstr, hparse, bind, Except.bind, hlate,
            not_lt.mp hlate, pure, Except.pure]

/-- The earliest expiry is the bound that every certificate of the package sets. -/
theorem getEarliestCertificateExpiry_iff (mbcs : List MeasurementBoundCertificate) (t : Instant) :
    (∃ latest, PublicEndorsementService.getEarliestCertificateExpiry mbcs = .ok latest ∧
      t ≤ latest) ↔ mbcs ≠ [] ∧ ∀ mbc ∈ mbcs, t ≤ notAfterInstant mbc.certificate := by
  unfold PublicEndorsementService.getEarliestCertificateExpiry
  cases hmin : (mbcs.map (fun mbc => notAfterInstant mbc.certificate)).min? with
  | none =>
    have hnil : mbcs = [] := by simpa using List.min?_eq_none_iff.mp hmin
    simp [hnil]
  | some latest =>
    have hne : mbcs ≠ [] := by
      rintro rfl
      simp at hmin
    have hle := List.le_min?_iff hmin (x := t)
    simp only [List.mem_map, forall_exists_index, and_imp, forall_apply_eq_imp_iff₂] at hle
    simp [hne, hle]

theorem publisherVerifier_iff (store : PolicyStore) (publisherId : Utf16)
    (identity : CallerIdentity) (signature : StatementSignature) :
    (PublisherVerifier.verify store publisherId identity signature :
        Traced (Event ω) Exn Unit).outcome = .ok () ↔
      ∃ policy, S3PolicyProvider.get store (CallerIdentity.escape publisherId) = .ok (some policy) ∧
        policy.Authorises publisherId identity signature.verificationMaterial := by
  unfold PublisherVerifier.verify
  cases hget : S3PolicyProvider.get store (CallerIdentity.escape publisherId) with
  | error e => simp [hget]
  | ok found =>
    cases found with
    | none => simp [hget]
    | some policy =>
      have hclaims : (policy.oidcTokenClaims.any (fun claims =>
          identity.issuer = claims.issuer && identity.subject = claims.subject)) = true ↔
          ⟨identity.issuer, identity.subject⟩ ∈ policy.oidcTokenClaims := by
        rw [List.any_eq_true]
        constructor
        · rintro ⟨⟨issuer, subject⟩, hmem, hmatch⟩
          simp only [Bool.and_eq_true, decide_eq_true_eq] at hmatch
          rwa [hmatch.1, hmatch.2]
        · intro hmem
          exact ⟨_, hmem, by simp⟩
      have hauthorises : (∃ q, (.ok (some policy) : Except Exn (Option PublisherPolicy)) =
          .ok (some q) ∧ q.Authorises publisherId identity signature.verificationMaterial) ↔
          policy.publisherId = publisherId ∧
            ⟨identity.issuer, identity.subject⟩ ∈ policy.oidcTokenClaims ∧
            signature.verificationMaterial ∈ policy.verificationMaterialList := by
        constructor
        · rintro ⟨q, hq, hauth⟩
          cases hq
          exact ⟨hauth.names, hauth.lists_caller, hauth.lists_material⟩
        · rintro ⟨hname, hcaller, hmaterial⟩
          exact ⟨policy, rfl, hname, hcaller, hmaterial⟩
      rw [hauthorises, ← hclaims]
      simp only [hget, Traced.quiet_ok_bind]
      by_cases hcaller : (policy.oidcTokenClaims.any (fun claims =>
          identity.issuer = claims.issuer && identity.subject = claims.subject)) = true
      · by_cases hname : publisherId = policy.publisherId
        · by_cases hmaterial : signature.verificationMaterial ∈ policy.verificationMaterialList
          · simp [hcaller, hname, hmaterial]
          · simp [hcaller, hname, hmaterial]
        · simp [hcaller, hname, Ne.symm hname]
      · simp [hcaller]

structure StatementOk (parsers : Parsers) (store : PolicyStore) (statement : Statement)
    (identity : CallerIdentity) (material : VerificationMaterial) (latest : Instant)
    (publisherId : Utf16) : Prop where
  format_specified : statement.format ≠ .formatUnspecified
  parses : ∃ parsed predicate t, parsers.readValue statement.serialized = .ok (some parsed) ∧
    parsed.predicate = some predicate ∧ predicate.ExpiresAt parsers t ∧ t ≤ latest ∧
    predicate.NamesPublisher publisherId
  policy : ∃ policy,
    S3PolicyProvider.get store (CallerIdentity.escape publisherId) = .ok (some policy) ∧
    policy.Authorises publisherId identity material

theorem validatePublisher_iff (parsers : Parsers) (store : PolicyStore) (statement : Statement)
    (identity : CallerIdentity) (signature : StatementSignature) (publisherId : Utf16) :
    (EndorsementVerifier.validatePublisherAndGetPublisherId parsers store statement identity
        signature : Traced (Event ω) Exn Utf16).outcome = .ok publisherId ↔
      statement.format ≠ .formatUnspecified ∧
      (∃ parsed predicate, parsers.readValue statement.serialized = .ok (some parsed) ∧
        parsed.predicate = some predicate ∧ predicate.NamesPublisher publisherId) ∧
      ∃ policy, S3PolicyProvider.get store (CallerIdentity.escape publisherId) = .ok (some policy) ∧
        policy.Authorises publisherId identity signature.verificationMaterial := by
  unfold EndorsementVerifier.validatePublisherAndGetPublisherId
  cases hformat : statement.format with
  | formatUnspecified => simp [publisherIdProviders]
  | jsonIntoto =>
    rw [← getValidPublisherId_iff]
    simp only [publisherIdProviders, ne_eq, reduceCtorEq, not_false_eq_true, true_and]
    cases hid : JsonPublisherIdProvider.getValidPublisherId parsers statement.serialized with
    | error e => simp
    | ok found =>
      cases found with
      | none => simp
      | some p =>
        rw [Traced.quiet_ok_bind, Traced.bind_outcome_eq_ok]
        simp only [Traced.pure_outcome, Except.ok.injEq, Option.some.injEq]
        constructor
        · rintro ⟨u, hverify, rfl⟩
          exact ⟨rfl, (publisherVerifier_iff store p identity signature).mp hverify⟩
        · rintro ⟨rfl, hpolicy⟩
          exact ⟨(), (publisherVerifier_iff store p identity signature).mpr hpolicy, rfl⟩

theorem parseAndVerify_iff (parsers : Parsers) (store : PolicyStore) (statement : Statement)
    (identity : CallerIdentity) (signature : StatementSignature) (latest : Instant)
    (v : VerifiedEndorsement) :
    (EndorsementVerifier.parseAndVerify parsers store statement identity signature latest :
        Traced (Event ω) Exn VerifiedEndorsement).outcome = .ok v ↔
      StatementOk parsers store statement identity signature.verificationMaterial latest
        v.publisherId := by
  unfold EndorsementVerifier.parseAndVerify
  by_cases hformat : statement.format = .formatUnspecified
  · simp only [hformat, if_true, Traced.throw_bind, Traced.throw_outcome, reduceCtorEq, false_iff]
    exact fun h => h.format_specified hformat
  simp only [hformat, if_false]
  cases hread : parsers.readValue statement.serialized with
  | error message =>
    simp only [Traced.throw_outcome, reduceCtorEq, false_iff]
    intro h
    obtain ⟨parsed, predicate, t, hparsed, -⟩ := h.parses
    rw [hread] at hparsed
    cases hparsed
  | ok parsed =>
    simp only [Traced.bind_outcome_eq_ok, Traced.quiet_outcome, Traced.pure_outcome]
    constructor
    · rintro ⟨predicate, hpred, u, hnotAfter, publisherId, hpublisher, hv⟩
      cases hv
      obtain ⟨statement', rfl, hpred'⟩ := (validatePredicateType_iff _ _).mp hpred
      obtain ⟨t, hexpires, hlatest⟩ := (validateNotAfter_iff _ _ _).mp hnotAfter
      obtain ⟨-, ⟨parsed, q, hparsed, hq, hnames⟩, hpolicy⟩ :=
        (validatePublisher_iff ..).mp hpublisher
      -- both readers parsed the same bytes
      rw [hread] at hparsed
      cases hparsed
      rw [hpred'] at hq
      cases hq
      exact ⟨hformat, ⟨_, predicate, t, hread, hpred', hexpires, hlatest, hnames⟩, hpolicy⟩
    · rintro ⟨-, ⟨statement', predicate, t, hparsed, hpred, hexpires, hlatest, hnames⟩, hpolicy⟩
      have heq : parsed = some statement' := Except.ok.inj (hread.symm.trans hparsed)
      refine ⟨predicate, (validatePredicateType_iff _ _).mpr ⟨statement', heq, hpred⟩, (),
        (validateNotAfter_iff _ _ _).mpr ⟨t, hexpires, hlatest⟩, v.publisherId, ?_, rfl⟩
      exact (validatePublisher_iff ..).mpr
        ⟨hformat, ⟨statement', predicate, hparsed, hpred, hnames⟩, hpolicy⟩

end Checks

section Trace

def Event.post? : Event ω → Option Endorsement
  | .post endorsement => some endorsement
  | _ => none

def Event.generate? : Event ω → Option (Bytes × X509Certificate)
  | .generate data certificate _ => some (data, certificate)
  | _ => none

def Event.count? : Event ω → Option Utf16
  | .incrementEndorsementCounter publisherId => some publisherId
  | _ => none

/-- Nothing irreversible: only the approval of a publisher may be recorded. -/
def Event.IsApproval (e : Event ω) : Prop := ∃ publisherId, e = .approvePublisher publisherId

theorem publisherVerifier_trace (store : PolicyStore) (publisherId : Utf16)
    (identity : CallerIdentity) (signature : StatementSignature) :
    ∀ e ∈ (PublisherVerifier.verify store publisherId identity signature :
      Traced (Event ω) Exn Unit).trace, e.IsApproval := by
  intro e he
  unfold PublisherVerifier.verify at he
  cases hget : S3PolicyProvider.get store (CallerIdentity.escape publisherId) with
  | error ex => simp [hget] at he
  | ok found =>
    cases found with
    | none => simp [hget] at he
    | some policy =>
      simp only [hget, Traced.quiet_ok_bind] at he
      split_ifs at he <;> simp at he
      exact ⟨publisherId, he⟩

theorem parseAndVerify_trace (parsers : Parsers) (store : PolicyStore) (statement : Statement)
    (identity : CallerIdentity) (signature : StatementSignature) (latest : Instant) :
    ∀ e ∈ (EndorsementVerifier.parseAndVerify parsers store statement identity signature latest :
      Traced (Event ω) Exn VerifiedEndorsement).trace, e.IsApproval := by
  intro e he
  unfold EndorsementVerifier.parseAndVerify at he
  split_ifs at he
  · simp at he
  cases hread : parsers.readValue statement.serialized with
  | error message => simp [hread] at he
  | ok parsed =>
    simp only [hread, Traced.mem_trace_bind, Traced.quiet_trace, List.not_mem_nil, false_or,
      Traced.pure_trace, and_false, exists_false, or_false] at he
    obtain ⟨predicate, -, u, -, he⟩ := he
    unfold EndorsementVerifier.validatePublisherAndGetPublisherId at he
    cases hprovider : publisherIdProviders parsers statement.format with
    | none => simp [hprovider] at he
    | some provider =>
      simp only [hprovider, Traced.mem_trace_bind, Traced.quiet_trace, List.not_mem_nil,
        false_or] at he
      obtain ⟨found, -, he⟩ := he
      cases found with
      | none => simp at he
      | some publisherId =>
        simp only [Traced.mem_trace_bind, Traced.pure_trace, List.not_mem_nil, and_false,
          exists_false, or_false] at he
        exact publisherVerifier_trace store publisherId identity signature e he

end Trace
end PublicEndorsement.Pes
