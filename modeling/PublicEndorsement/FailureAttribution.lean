import PublicEndorsement.EndorsementResponse

/-!
# Which failures are blamed on the request

The handler tells the client that its request is invalid for three classes of
exceptions, and lets three other classes leave the call unanswered. The verifier of the
publisher's signature also verifies the ledger's, so its exceptions say nothing about
whose fault it was. `attributed_iff` says for which behaviour of the ports a call is
answered, and answered rightly.
-/

namespace PublicEndorsement.Pes

open Mbs

namespace Exn

def isReported : Exn → Bool
  | .pesSignature _ => false
  | .nullPointer => false
  | .other _ => false
  | _ => true

def blamesRequest : Exn → Bool
  | .illegalArgument _ => true
  | .invalidSignature _ => true
  | .invalidVerificationMaterial _ => true
  | _ => false

/-- The exception is reported, and not as a fault of the request. -/
def isServerSide (x : Exn) : Bool := x.isReported && !x.blamesRequest

end Exn

namespace HandlerEvent

def terminal? : HandlerEvent → Option ObserverEvent
  | .observer .onCompleted => some .onCompleted
  | .observer (.onError code description) => some (.onError code description)
  | _ => none

def post? : HandlerEvent → Option Endorsement
  | .service e => e.post?
  | .observer _ => none

end HandlerEvent

def CallContext.ofIdentity (identity : CallerIdentity) : CallContext :=
  ⟨some identity.issuer, some identity.subject, some identity.audiences⟩

/-- The call is ended once, and the request is called invalid only before the ledger was
called. -/
def Attributed (trace : List HandlerEvent) : Prop :=
  (∃ o, trace.filterMap HandlerEvent.terminal? = [o]) ∧
    ∀ description,
      .onError .invalidArgument description ∈ trace.filterMap HandlerEvent.terminal? →
        trace.filterMap HandlerEvent.post? = []

/-! ## The behaviour of the ports -/

/-- A single publisher claim has an id, and its policy can be read or fails as reported. -/
def PublisherReports (store : PolicyStore) (predicate : OakPredicate) : Prop :=
  ∀ claim, predicate.publisherClaims = [claim] →
    ∃ publisherId, predicate.NamesPublisher publisherId ∧
      ∀ x, store.getObject (CallerIdentity.escape publisherId) = .failure x → x.isReported = true

def LedgerPorts.answer (ledger : LedgerPorts) (posted : Endorsement) : HttpOutcome :=
  ledger.execute (ledger.tLedgerUrl ++ TLedger.tledgerPostSufix)
    (ledger.print (.ofRawEntry (TLedger.formatRawEntry ledger posted)))

def LedgerReturns (ledger : LedgerPorts) (posted : Endorsement) (entry : Proto.Entry) : Prop :=
  ∃ responseBody, ledger.answer posted = .body responseBody ∧
    ledger.merge responseBody = some entry ∧ TLedger.formatRawEntry ledger posted = entry.rawEntry

def UsableCertificate (jca : Jca) (content : Bytes) : Prop :=
  content ≠ [] ∧ ∃ key, jca.certificatePublicKey content = some key ∧
    (key.algorithm = "RSA" ∨ key.algorithm = "EC")

def LedgerSigned (jca : Jca) (ledger : LedgerPorts) (entry : Proto.Entry) : Prop :=
  ∃ content, ledger.certificateObject = .stream (some content) ∧
    SignatureVerifies jca ⟨entry.signature, ⟨content, .x509Der⟩⟩ entry.rawEntry

/-- The ledger can be reached or fails in a way that is reported as its own. -/
structure LedgerReports (jca : Jca) (ledger : LedgerPorts) (posted : Endorsement) : Prop where
  fails : ∀ x, ledger.answer posted = .failure x → x.isServerSide = true
  certificate : ∀ entry, LedgerReturns ledger posted entry →
    (∀ x, ledger.certificateObject = .failure x → x.isServerSide = true) ∧
    ∀ content, ledger.certificateObject = .stream (some content) → UsableCertificate jca content

def Signable (signing : SigningPorts) (data : Bytes) (mbc : MeasurementBoundCertificate) (n : ℕ) :
    Prop :=
  mbc.certificate.encoded ≠ none ∧ ∃ algorithm,
    SignatureGeneratorImpl.getSigningAlgorithm mbc.privateKey.algorithm = .ok algorithm ∧
    signing.sign n algorithm mbc.privateKey data ≠ none

open PublicEndorsementService in
/-- What the ports must not do for the call to be answered rightly. -/
structure PortsReport (deployed : DeployedPorts) (e : Endorsement) (identity : CallerIdentity) :
    Prop where
  trustPackage : e.statement.format ≠ .formatUnspecified →
    ∀ x, deployed.getActiveTrustPackage = .error x → x.isReported = true
  policy : ∀ mbcs statement predicate t, e.statement.format ≠ .formatUnspecified →
    deployed.getActiveTrustPackage = .ok mbcs → mbcs ≠ [] →
    deployed.parsers.readValue e.statement.serialized = .ok (some statement) →
    statement.predicate = some predicate → predicate.ExpiresAt deployed.parsers t →
    (∀ mbc ∈ mbcs, t ≤ notAfterInstant mbc.certificate) →
    PublisherReports deployed.store predicate
  ledger : ∀ mbcs publisherId, Admissible deployed.ports e identity mbcs publisherId →
    LedgerReports deployed.jca deployed.ledger (posted deployed.ports e)
  signing : ∀ mbcs publisherId entry, Admissible deployed.ports e identity mbcs publisherId →
    LedgerReturns deployed.ledger (posted deployed.ports e) entry →
    LedgerSigned deployed.jca deployed.ledger entry →
    ∀ mbc n, (mbc, n) ∈ mbcs.zipIdx → Signable deployed.signing
      (PreAuthenticationEncoding.calculate e.statement e.statementSignature ⟨entry.name⟩) mbc n

/-! ## From the handler to the service -/

namespace PesGrpcHandler

theorem report_terminal (x : Exn) :
    (report x).trace.filterMap HandlerEvent.terminal? = [] ∧ x.isReported = false ∨
      ∃ code description, (report x).trace.filterMap HandlerEvent.terminal? =
        [.onError code description] ∧ x.isReported = true ∧
        (code = .invalidArgument ↔ x.blamesRequest = true) := by
  cases x with
  | pesSignature message => exact .inl ⟨rfl, rfl⟩
  | nullPointer => exact .inl ⟨rfl, rfl⟩
  | other message => exact .inl ⟨rfl, rfl⟩
  | _ => exact .inr ⟨_, _, rfl, rfl, by simp [Exn.blamesRequest]⟩

theorem filterMap_terminal_service (l : List (Event LedgerEvent)) :
    (l.map HandlerEvent.service).filterMap HandlerEvent.terminal? = [] := by
  simp [List.filterMap_map, Function.comp_def, HandlerEvent.terminal?]

theorem filterMap_post_service (l : List (Event LedgerEvent)) :
    (l.map HandlerEvent.service).filterMap HandlerEvent.post? = l.filterMap Event.post? := by
  simp [List.filterMap_map, Function.comp_def, HandlerEvent.post?]

theorem report_posts (x : Exn) : (report x).trace.filterMap HandlerEvent.post? = [] := by
  cases x <;> rfl

theorem create_of_identity (identity : CallerIdentity) :
    CallerIdentity.create identity.issuer identity.subject identity.audiences = .ok identity := by
  simp [CallerIdentity.create, identity.issuer_not_blank, identity.subject_not_blank]

/-- A call is attributed rightly if the service returns, or throws what is reported and,
once the ledger was called, not blamed on the request. -/
theorem attributed_iff_outcome (deployed : DeployedPorts) (identity : CallerIdentity)
    (request : Proto.CreatePublicEndorsementRequest) :
    Attributed (createPublicEndorsement deployed (.ofIdentity identity) request).trace ↔
      Traced.Raises (PublicEndorsementService.createEndorsement deployed.ports
          (EndorsementMapper.toDomain request.getPublicEndorsement) identity)
        (fun x => x.isReported = true ∧ (x.blamesRequest = true →
          (PublicEndorsementService.createEndorsement deployed.ports
            (EndorsementMapper.toDomain request.getPublicEndorsement) identity).trace.filterMap
              Event.post? = [])) := by
  simp only [createPublicEndorsement, CallContext.ofIdentity, create_of_identity,
    Traced.quiet_ok_bind]
  unfold Traced.Raises
  cases hrun : (PublicEndorsementService.createEndorsement deployed.ports
      (EndorsementMapper.toDomain request.getPublicEndorsement) identity).outcome with
  | ok result =>
    rw [Traced.bind_of_ok (by rw [Traced.embed_outcome, hrun]), Traced.tryCatch_of_ok rfl]
    simp only [reduceCtorEq, false_implies, implies_true, iff_true]
    refine ⟨⟨.onCompleted, ?_⟩, fun description h => ?_⟩
    · rw [Traced.embed_trace, List.filterMap_append, filterMap_terminal_service]
      rfl
    · rw [Traced.embed_trace, List.filterMap_append, filterMap_terminal_service] at h
      simp [observe, HandlerEvent.terminal?, Traced.bind_of_ok (Traced.emit_outcome _)] at h
  | error x =>
    rw [Traced.bind_of_error (by rw [Traced.embed_outcome, hrun]), Traced.tryCatch_of_error rfl]
    simp only [Except.error.injEq, forall_eq', Attributed, Traced.embed_trace,
      List.filterMap_append, filterMap_terminal_service, filterMap_post_service, report_posts,
      List.nil_append, List.append_nil]
    rcases report_terminal x with ⟨hterminal, hreported⟩ | ⟨code, description, hterminal,
      hreported, hblames⟩
    · simp [hterminal, hreported]
    · simp only [hterminal, hreported, true_and, List.mem_singleton, ← hblames]
      constructor
      · rintro ⟨-, h⟩ rfl
        exact h description rfl
      · refine fun h => ⟨⟨_, rfl⟩, fun description' heq => h ?_⟩
        cases heq
        rfl

end PesGrpcHandler

/-! ## Before the ledger is called -/

namespace PublicEndorsementService

variable {ω : Type}

/-- The exceptions of the checks need only be reported, the later ones must not blame the
request. -/
theorem raises_createEndorsement_iff (ports : Ports ω) (e : Endorsement)
    (identity : CallerIdentity) :
    Traced.Raises (createEndorsement ports e identity) (fun x => x.isReported = true ∧
        (x.blamesRequest = true →
          (createEndorsement ports e identity).trace.filterMap Event.post? = [])) ↔
      Traced.Raises (vet ports e identity) (fun x => x.isReported = true) ∧
        ∀ mbcs v, (vet ports e identity).outcome = .ok (mbcs, v) →
          Traced.Raises (publish ports e mbcs v) (fun x => x.isServerSide = true) := by
  rw [createEndorsement_eq]
  cases hvet : (vet ports e identity).outcome with
  | error x =>
    rw [Traced.bind_of_error hvet]
    simp [Traced.Raises, hvet, vet_filterMap ports e identity (f := Event.post?) (fun _ => rfl)]
  | ok r =>
    obtain ⟨mbcs, v⟩ := r
    rw [Traced.bind_of_ok hvet]
    simp [Traced.Raises, hvet, vet_filterMap ports e identity (f := Event.post?) (fun _ => rfl),
      publish_posts, Exn.isServerSide]

end PublicEndorsementService

section Checks

variable {ω : Type}

theorem getEarliestCertificateExpiry_reported (mbcs : List MeasurementBoundCertificate) (x : Exn)
    (h : PublicEndorsementService.getEarliestCertificateExpiry mbcs = .error x) :
    x.isReported = true := by
  unfold PublicEndorsementService.getEarliestCertificateExpiry at h
  split at h
  · cases h
  · cases h
    rfl

theorem Exn.isReported_of_blamesRequest {x : Exn} (h : x.blamesRequest = true) :
    x.isReported = true := by
  cases x with
  | pesSignature message => cases h
  | nullPointer => cases h
  | other message => cases h
  | _ => rfl

theorem publicKeyParser_blames {jca : Jca} {m : VerificationMaterial} {x : Exn}
    (h : PublicKeyParser.parse jca m = .error x) : x.blamesRequest = true := by
  unfold PublicKeyParser.parse at h
  split_ifs at h
  · cases h
    rfl
  · repeat' split at h
    all_goals cases h
    all_goals rfl

theorem signatureVerifier_blames {jca : Jca} {signature : StatementSignature} {data : Bytes}
    {x : Exn} (h : SignatureVerifierImpl.verify jca signature data = .error x) :
    x.blamesRequest = true := by
  unfold SignatureVerifierImpl.verify at h
  cases hkey : PublicKeyParser.parse jca signature.verificationMaterial with
  | error x' =>
    rw [hkey] at h
    cases h
    exact publicKeyParser_blames hkey
  | ok key =>
    cases halgorithm : SignatureVerifierImpl.deduceAlgorithm key with
    | error x' =>
      simp only [hkey, halgorithm, bind, Except.bind] at h
      cases h
      unfold SignatureVerifierImpl.deduceAlgorithm at halgorithm
      split at halgorithm <;> cases halgorithm
      rfl
    | ok algorithm =>
      simp only [hkey, halgorithm, bind, Except.bind] at h
      split at h <;> cases h
      all_goals rfl

theorem validatePredicateType_reported {parsed : Option InTotoStatement} {x : Exn}
    (h : EndorsementVerifier.validatePredicateType parsed = .error x) : x.isReported = true := by
  unfold EndorsementVerifier.validatePredicateType at h
  split at h <;> cases h
  rfl

theorem validateNotAfter_reported {parsers : Parsers} {predicate : OakPredicate}
    {latest : Instant} {x : Exn}
    (h : EndorsementVerifier.validateNotAfter parsers predicate latest = .error x) :
    x.isReported = true := by
  unfold EndorsementVerifier.validateNotAfter EndorsementVerifier.parseInstant at h
  split at h
  · cases h
    rfl
  · split at h
    · cases h
      rfl
    · rename_i notAfterStr _
      cases ht : parsers.parseInstant notAfterStr with
      | none =>
        simp only [ht, bind, Except.bind] at h
        cases h
        rfl
      | some t =>
        simp only [ht, bind, Except.bind] at h
        split_ifs at h
        · cases h
          rfl
        · cases h

theorem s3PolicyProvider_reported_iff (store : PolicyStore) (key : Utf16) :
    (∀ x, S3PolicyProvider.get store key = .error x → x.isReported = true) ↔
      ∀ x, store.getObject key = .failure x → x.isReported = true := by
  unfold S3PolicyProvider.get
  cases store.getObject key with
  | noSuchKey => simp
  | s3Exception => simp [Exn.isReported]
  | failure e => simp
  | stream content =>
    cases content with
    | none => simp [Exn.isReported]
    | some bytes =>
      cases hjson : store.parseJson bytes with
      | none => simp [hjson, Exn.isReported]
      | some protoConfig => simp [hjson]

theorem raises_publisherVerifier_iff (store : PolicyStore) (publisherId : Utf16)
    (identity : CallerIdentity) (signature : StatementSignature) :
    Traced.Raises (PublisherVerifier.verify store publisherId identity signature :
        Traced (Event ω) Exn Unit) (fun x => x.isReported = true) ↔
      ∀ x, store.getObject (CallerIdentity.escape publisherId) = .failure x →
        x.isReported = true := by
  rw [← s3PolicyProvider_reported_iff, PublisherVerifier.verify, Traced.raises_bind,
    Traced.raises_quiet]
  refine and_iff_left fun found _ => ?_
  cases found with
  | none => exact (Traced.raises_throw _).mpr rfl
  | some policy =>
    simp only
    split_ifs
    all_goals simp [Exn.isReported]

theorem raises_validatePublisher_iff {parsers : Parsers} (store : PolicyStore)
    {statement : Statement} (hformat : statement.format ≠ .formatUnspecified)
    {parsed : InTotoStatement} {predicate : OakPredicate}
    (hread : parsers.readValue statement.serialized = .ok (some parsed))
    (hpred : parsed.predicate = some predicate) (identity : CallerIdentity)
    (signature : StatementSignature) :
    Traced.Raises (EndorsementVerifier.validatePublisherAndGetPublisherId parsers store statement
        identity signature : Traced (Event ω) Exn Utf16) (fun x => x.isReported = true) ↔
      PublisherReports store predicate := by
  unfold EndorsementVerifier.validatePublisherAndGetPublisherId PublisherReports
  cases hf : statement.format with
  | formatUnspecified => exact absurd hf hformat
  | jsonIntoto =>
    simp only [publisherIdProviders, JsonPublisherIdProvider.getValidPublisherId, hread, hpred]
    -- no publisher claim and several of them are reported by the check itself
    rcases hclaims : predicate.publisherClaims with _ | ⟨claim, _ | ⟨claim', rest⟩⟩
    · simp [Exn.isReported]
    · cases hann : claim.annotations with
      | none => simp [hann, OakPredicate.NamesPublisher, hclaims, Exn.isReported]
      | some annotations =>
        cases hid : (annotations.lookup Claim.publisherIdKey).join with
        | none => simp [hann, hid, OakPredicate.NamesPublisher, hclaims, Exn.isReported]
        | some publisherId =>
          simp [hann, hid, OakPredicate.NamesPublisher, hclaims, Traced.raises_map,
            raises_publisherVerifier_iff]
    · simp [Exn.isReported]

theorem raises_parseAndVerify_iff (parsers : Parsers) (store : PolicyStore)
    {statement : Statement} (hformat : statement.format ≠ .formatUnspecified)
    (identity : CallerIdentity) (signature : StatementSignature) (latest : Instant) :
    Traced.Raises (EndorsementVerifier.parseAndVerify parsers store statement identity signature
        latest : Traced (Event ω) Exn VerifiedEndorsement) (fun x => x.isReported = true) ↔
      ∀ parsed predicate t, parsers.readValue statement.serialized = .ok (some parsed) →
        parsed.predicate = some predicate → predicate.ExpiresAt parsers t → t ≤ latest →
        PublisherReports store predicate := by
  unfold EndorsementVerifier.parseAndVerify
  simp only [hformat, if_false]
  cases hread : parsers.readValue statement.serialized with
  | error message => simp [Exn.isReported]
  | ok parsed =>
    simp only [Traced.raises_bind, Traced.raises_quiet, Traced.quiet_outcome, Traced.raises_pure,
      implies_true, and_true]
    constructor
    · rintro ⟨-, h⟩ parsed' predicate t hparsed hpred hexpires hlatest
      cases hparsed
      have hvalid := (validateNotAfter_iff parsers predicate latest).mpr ⟨t, hexpires, hlatest⟩
      have htype := (validatePredicateType_iff (some parsed') predicate).mpr ⟨_, rfl, hpred⟩
      exact (raises_validatePublisher_iff store hformat hread hpred identity signature).mp
        ((h predicate htype).2 () hvalid)
    · intro h
      refine ⟨fun x => validatePredicateType_reported, fun predicate htype =>
        ⟨fun x => validateNotAfter_reported, fun u hvalid => ?_⟩⟩
      obtain ⟨parsed', rfl, hpred⟩ := (validatePredicateType_iff _ _).mp htype
      obtain ⟨t, hexpires, hlatest⟩ := (validateNotAfter_iff _ _ _).mp hvalid
      exact (raises_validatePublisher_iff store hformat hread hpred identity signature).mpr
        (h parsed' predicate t rfl hpred hexpires hlatest)

open PublicEndorsementService in
theorem raises_vet_iff (ports : Ports ω) (e : Endorsement) (identity : CallerIdentity) :
    Traced.Raises (vet ports e identity) (fun x => x.isReported = true) ↔
      (e.statement.format ≠ .formatUnspecified →
        ∀ x, ports.getActiveTrustPackage = .error x → x.isReported = true) ∧
      ∀ mbcs parsed predicate t, e.statement.format ≠ .formatUnspecified →
        ports.getActiveTrustPackage = .ok mbcs → mbcs ≠ [] →
        ports.parsers.readValue e.statement.serialized = .ok (some parsed) →
        parsed.predicate = some predicate → predicate.ExpiresAt ports.parsers t →
        (∀ mbc ∈ mbcs, t ≤ notAfterInstant mbc.certificate) →
        PublisherReports ports.store predicate := by
  unfold vet
  by_cases hformat : e.statement.format = .formatUnspecified
  · simp [hformat, Exn.isReported]
  simp only [hformat, if_false, Traced.raises_bind, Traced.raises_quiet, Traced.quiet_outcome,
    Traced.raises_pure, implies_true, and_true, ne_eq, not_false_eq_true, true_implies,
    raises_parseAndVerify_iff ports.parsers ports.store hformat]
  refine and_congr_right fun _ => ?_
  constructor
  · intro h mbcs parsed predicate t htrust hne hread hpred hexpires hall
    obtain ⟨latest, hlatest, ht⟩ := (getEarliestCertificateExpiry_iff mbcs t).mpr ⟨hne, hall⟩
    exact ((h mbcs htrust).2 latest hlatest).1 parsed predicate t hread hpred hexpires ht
  · intro h mbcs htrust
    refine ⟨getEarliestCertificateExpiry_reported mbcs, fun latest hlatest => ⟨?_, ?_⟩⟩
    · intro parsed predicate t hread hpred hexpires ht
      obtain ⟨hne, hall⟩ := (getEarliestCertificateExpiry_iff mbcs t).mp ⟨latest, hlatest, ht⟩
      exact h mbcs parsed predicate t htrust hne hread hpred hexpires hall
    · exact fun v _ x h => Exn.isReported_of_blamesRequest (signatureVerifier_blames h)

end Checks

/-! ## Once the ledger is called -/

section Ledger

variable (jca : Jca) (ledger : LedgerPorts)

theorem deduceAlgorithm_isOk_iff (key : PublicKey) :
    (∃ algorithm, SignatureVerifierImpl.deduceAlgorithm key = .ok algorithm) ↔
      key.algorithm = "RSA" ∨ key.algorithm = "EC" := by
  unfold SignatureVerifierImpl.deduceAlgorithm
  split
  · simp [*]
  · simp [*]
  · simp_all

theorem deduceAlgorithm_error {key : PublicKey} {x : Exn}
    (h : SignatureVerifierImpl.deduceAlgorithm key = .error x) :
    ∃ message, x = .illegalArgument message := by
  unfold SignatureVerifierImpl.deduceAlgorithm at h
  split at h <;> cases h
  exact ⟨_, rfl⟩

/-- Of the exceptions of the verifier only one class is turned into a failure of the
ledger, and the certificate decides whether there are others. -/
theorem verify_ledger_iff (signature content data : Bytes) :
    (∀ x, SignatureVerifierImpl.verify jca ⟨signature, ⟨content, .x509Der⟩⟩ data = .error x →
      ∃ message, x = .invalidSignature message) ↔ UsableCertificate jca content := by
  by_cases hempty : content = []
  · simp [SignatureVerifierImpl.verify, PublicKeyParser.parse, UsableCertificate, hempty, bind,
      Except.bind]
  cases hkey : jca.certificatePublicKey content with
  | none =>
    simp [SignatureVerifierImpl.verify, PublicKeyParser.parse, UsableCertificate, hempty, hkey,
      bind, Except.bind]
  | some key =>
    have hparse : PublicKeyParser.parse jca ⟨content, .x509Der⟩ = .ok key := by
      simp [PublicKeyParser.parse, hempty, hkey]
    have husable : UsableCertificate jca content ↔
        ∃ algorithm, SignatureVerifierImpl.deduceAlgorithm key = .ok algorithm := by
      simp [UsableCertificate, hempty, hkey, deduceAlgorithm_isOk_iff]
    rw [husable]
    cases halgorithm : SignatureVerifierImpl.deduceAlgorithm key with
    | error x =>
      obtain ⟨message, rfl⟩ := deduceAlgorithm_error halgorithm
      simp [SignatureVerifierImpl.verify, hparse, halgorithm, bind, Except.bind]
    | ok algorithm =>
      simp only [Except.ok.injEq, exists_eq', iff_true]
      intro x hx
      simp only [SignatureVerifierImpl.verify, hparse, halgorithm, bind, Except.bind] at hx
      split at hx <;> cases hx
      all_goals exact ⟨_, rfl⟩

theorem verifyTLedgerSignature_ok_iff (entry : Proto.Entry) :
    TLedger.verifyTLedgerSignature jca ledger entry = .ok () ↔ LedgerSigned jca ledger entry := by
  unfold TLedger.verifyTLedgerSignature LedgerSigned TLedgerCertificatFetcher.fetch
  cases ledger.certificateObject with
  | s3Exception => simp [bind, Except.bind]
  | failure x => simp [bind, Except.bind]
  | stream content =>
    cases content with
    | none => simp [bind, Except.bind]
    | some content =>
      simp only [bind, Except.bind, CertificateObject.stream.injEq, Option.some.injEq,
        exists_eq_left']
      rw [← signature_verify_iff]
      cases SignatureVerifierImpl.verify jca ⟨entry.signature, ⟨content, .x509Der⟩⟩
          entry.rawEntry with
      | ok u => simp
      | error x => cases x <;> simp

theorem verifyTLedgerSignature_serverSide_iff (entry : Proto.Entry) :
    (∀ x, TLedger.verifyTLedgerSignature jca ledger entry = .error x → x.isServerSide = true) ↔
      (∀ x, ledger.certificateObject = .failure x → x.isServerSide = true) ∧
      ∀ content, ledger.certificateObject = .stream (some content) →
        UsableCertificate jca content := by
  unfold TLedger.verifyTLedgerSignature TLedgerCertificatFetcher.fetch
  cases ledger.certificateObject with
  | s3Exception => simp [bind, Except.bind, Exn.isServerSide, Exn.isReported, Exn.blamesRequest]
  | failure x => simp [bind, Except.bind]
  | stream content =>
    cases content with
    | none => simp [bind, Except.bind, Exn.isServerSide, Exn.isReported, Exn.blamesRequest]
    | some content =>
      simp only [bind, Except.bind, CertificateObject.stream.injEq, Option.some.injEq, forall_eq',
        reduceCtorEq, false_implies, implies_true, true_and]
      rw [← verify_ledger_iff jca entry.signature content entry.rawEntry]
      cases hverify : SignatureVerifierImpl.verify jca ⟨entry.signature, ⟨content, .x509Der⟩⟩
          entry.rawEntry with
      | ok u => simp
      | error x =>
        have hblames := signatureVerifier_blames hverify
        cases x with
        | invalidSignature message =>
          simp [Exn.isServerSide, Exn.isReported, Exn.blamesRequest]
        | _ => simp [Exn.isServerSide, hblames]

def receiptOf (rawEntry : Bytes) : HttpOutcome → Except Exn TLogReceipt
  | .httpResponseException statusCode =>
    .error (.tLog (text (s!"TLedger API Error: {statusCode}")))
  | .ioException => .error (.tLog (text "Failed to communicate with Transparency Ledger"))
  | .failure e => .error e
  | .body responseBody =>
    match ledger.merge responseBody with
    | none => .error (.tLog (text "Failed to parse TLedger response"))
    | some resultEntry =>
      if rawEntry ≠ resultEntry.rawEntry then
        .error (.tLog (text "TLedger response raw entry does not match sent raw entry"))
      else (TLedger.verifyTLedgerSignature jca ledger resultEntry).map (fun _ => ⟨resultEntry.name⟩)

theorem post_outcome (posted : Endorsement) :
    (TLedger.post jca ledger posted).outcome =
      receiptOf jca ledger (TLedger.formatRawEntry ledger posted) (ledger.answer posted) := by
  have hanswer : ledger.execute (ledger.tLedgerUrl ++ TLedger.tledgerPostSufix)
      (ledger.print (.ofRawEntry (TLedger.formatRawEntry ledger posted))) =
        ledger.answer posted := rfl
  unfold TLedger.post receiptOf
  simp only [Traced.bind_of_ok (Traced.emit_outcome _), hanswer]
  cases ledger.answer posted with
  | body responseBody =>
    cases hmerge : ledger.merge responseBody with
    | none => simp [hmerge]
    | some entry =>
      by_cases hraw : TLedger.formatRawEntry ledger posted = entry.rawEntry
      · simp [hmerge, hraw]
      · simp [hmerge, hraw]
  | _ => rfl

/-- The ledger's entry is taken if it is a copy of what was sent and its signature verifies. -/
theorem post_ok_iff (posted : Endorsement) (receipt : TLogReceipt) :
    (TLedger.post jca ledger posted).outcome = .ok receipt ↔
      ∃ entry, LedgerReturns ledger posted entry ∧ LedgerSigned jca ledger entry ∧
        receipt = ⟨entry.name⟩ := by
  rw [post_outcome]
  unfold LedgerReturns receiptOf
  cases ledger.answer posted with
  | body responseBody =>
    cases hmerge : ledger.merge responseBody with
    | none => simp [hmerge]
    | some entry =>
      by_cases hraw : TLedger.formatRawEntry ledger posted = entry.rawEntry
      · simp only [← verifyTLedgerSignature_ok_iff]
        cases hverify : TLedger.verifyTLedgerSignature jca ledger entry with
        | ok u => simp [hmerge, hraw, hverify, Except.map, eq_comm]
        | error x => simp [hmerge, hraw, hverify, Except.map]
      · simp [hmerge, hraw]
  | _ => simp

theorem raises_post_iff (posted : Endorsement) :
    Traced.Raises (TLedger.post jca ledger posted) (fun x => x.isServerSide = true) ↔
      LedgerReports jca ledger posted := by
  have hreports : LedgerReports jca ledger posted ↔
      (∀ x, ledger.answer posted = .failure x → x.isServerSide = true) ∧
      ∀ entry, LedgerReturns ledger posted entry → ∀ x,
        TLedger.verifyTLedgerSignature jca ledger entry = .error x → x.isServerSide = true := by
    simp only [verifyTLedgerSignature_serverSide_iff]
    exact ⟨fun h => ⟨h.fails, h.certificate⟩, fun h => ⟨h.1, h.2⟩⟩
  rw [hreports, Traced.Raises, post_outcome]
  unfold LedgerReturns receiptOf
  cases ledger.answer posted with
  | failure x => simp
  | httpResponseException statusCode => simp [Exn.isServerSide, Exn.isReported, Exn.blamesRequest]
  | ioException => simp [Exn.isServerSide, Exn.isReported, Exn.blamesRequest]
  | body responseBody =>
    cases hmerge : ledger.merge responseBody with
    | none => simp [hmerge, Exn.isServerSide, Exn.isReported, Exn.blamesRequest]
    | some entry =>
      by_cases hraw : TLedger.formatRawEntry ledger posted = entry.rawEntry
      · cases hverify : TLedger.verifyTLedgerSignature jca ledger entry with
        | ok u => simp [hmerge, hraw, hverify, Except.map]
        | error x => simp [hmerge, hraw, hverify, Except.map]
      · simp [hmerge, hraw, Exn.isServerSide, Exn.isReported, Exn.blamesRequest]

end Ledger

section Signing

variable (signing : SigningPorts) (n : ℕ) (data : Bytes) (mbc : MeasurementBoundCertificate)

theorem generate_isOk_iff :
    (∃ signature, (SignatureGeneratorImpl.generate signing n data mbc.certificate
      mbc.privateKey).outcome = .ok signature) ↔ Signable signing data mbc n := by
  unfold SignatureGeneratorImpl.generate Signable
  simp only [Traced.bind_outcome_eq_ok, Traced.quiet_outcome, Traced.pure_outcome,
    SignatureGeneratorImpl.getCertificateBytes, SignatureGeneratorImpl.sign]
  cases mbc.certificate.encoded with
  | none => simp
  | some der =>
    cases SignatureGeneratorImpl.getSigningAlgorithm mbc.privateKey.algorithm with
    | error x => simp
    | ok algorithm =>
      cases hsign : signing.sign n algorithm mbc.privateKey data with
      | none => simp [hsign]
      | some signature => simp [hsign]

/-- A failure to sign is of a class that no catch clause names. -/
theorem generate_unreported {x : Exn} (h : (SignatureGeneratorImpl.generate signing n data
    mbc.certificate mbc.privateKey).outcome = .error x) : x.isReported = false := by
  unfold SignatureGeneratorImpl.generate at h
  cases hder : SignatureGeneratorImpl.getCertificateBytes mbc.certificate with
  | error x' =>
    rw [hder] at h
    cases h
    unfold SignatureGeneratorImpl.getCertificateBytes at hder
    split at hder <;> cases hder
    rfl
  | ok der =>
    rw [hder, Traced.quiet_ok_bind] at h
    cases halgorithm : SignatureGeneratorImpl.getSigningAlgorithm mbc.privateKey.algorithm with
    | error x' =>
      rw [halgorithm] at h
      cases h
      unfold SignatureGeneratorImpl.getSigningAlgorithm at halgorithm
      split at halgorithm <;> cases halgorithm
      rfl
    | ok algorithm =>
      rw [halgorithm, Traced.quiet_ok_bind] at h
      cases hsign : SignatureGeneratorImpl.sign signing n data mbc.privateKey algorithm with
      | error x' =>
        rw [hsign] at h
        cases h
        unfold SignatureGeneratorImpl.sign at hsign
        split at hsign <;> cases hsign
        rfl
      | ok bytes =>
        rw [hsign, Traced.quiet_ok_bind] at h
        cases h

end Signing

namespace PublicEndorsementService

variable (deployed : DeployedPorts)

theorem raises_signWithAll_iff (data : Bytes) (mbcs : List MeasurementBoundCertificate) :
    Traced.Raises (signWithAll deployed.ports data mbcs) (fun x => x.isServerSide = true) ↔
      ∀ mbc n, (mbc, n) ∈ mbcs.zipIdx → Signable deployed.signing data mbc n := by
  unfold signWithAll
  rw [Traced.raises_mapM_iff]
  · simp only [Prod.forall, Traced.bind_outcome_eq_ok, Traced.emit_outcome, true_and, exists_const,
      Traced.embed_outcome]
    exact forall₂_congr fun mbc n => forall_congr' fun _ => generate_isOk_iff _ _ _ _
  · rintro ⟨mbc, n⟩ - x hx
    simp only [Traced.bind_of_ok (Traced.emit_outcome _), Traced.embed_outcome] at hx
    have hunreported : x.isReported = false := generate_unreported _ _ _ _ hx
    simp [Exn.isServerSide, hunreported]

theorem raises_publish_iff (e : Endorsement) (mbcs : List MeasurementBoundCertificate)
    (v : VerifiedEndorsement) :
    Traced.Raises (publish deployed.ports e mbcs v) (fun x => x.isServerSide = true) ↔
      LedgerReports deployed.jca deployed.ledger (posted deployed.ports e) ∧
      ∀ entry, LedgerReturns deployed.ledger (posted deployed.ports e) entry →
        LedgerSigned deployed.jca deployed.ledger entry →
        ∀ mbc n, (mbc, n) ∈ mbcs.zipIdx → Signable deployed.signing
          (PreAuthenticationEncoding.calculate e.statement e.statementSignature ⟨entry.name⟩)
          mbc n := by
  unfold publish settle
  simp only [Traced.raises_bind, Traced.raises_emit, Traced.raises_pure, implies_true, and_true,
    true_and, Traced.emit_outcome, forall_const, Traced.raises_embed, Traced.embed_outcome,
    raises_signWithAll_iff]
  rw [show Traced.Raises (deployed.ports.post (posted deployed.ports e)) _ ↔ _ from
    raises_post_iff deployed.jca deployed.ledger (posted deployed.ports e)]
  refine and_congr_right fun _ => ?_
  have hreceipt : ∀ receipt, (deployed.ports.post (posted deployed.ports e)).outcome =
      .ok receipt ↔ _ := post_ok_iff deployed.jca deployed.ledger (posted deployed.ports e)
  constructor
  · intro h entry hreturns hsigned
    exact h ⟨entry.name⟩ ((hreceipt _).mpr ⟨entry, hreturns, hsigned, rfl⟩)
  · intro h receipt houtcome
    obtain ⟨entry, hreturns, hsigned, rfl⟩ := (hreceipt _).mp houtcome
    exact h entry hreturns hsigned

end PublicEndorsementService

namespace PesGrpcHandler

open PublicEndorsementService

/-- A call is ended once and blames the request rightly exactly for these behaviours of the
ports: what fails before the ledger is called is reported, the ledger fails as a ledger, its
certificate can be used, and each bundle can sign. -/
theorem attributed_iff (deployed : DeployedPorts) (identity : CallerIdentity)
    (request : Proto.CreatePublicEndorsementRequest) :
    Attributed (createPublicEndorsement deployed (.ofIdentity identity) request).trace ↔
      PortsReport deployed (EndorsementMapper.toDomain request.getPublicEndorsement) identity := by
  rw [attributed_iff_outcome, raises_createEndorsement_iff, raises_vet_iff]
  simp only [vet_iff, raises_publish_iff]
  constructor
  · rintro ⟨⟨htrust, hpolicy⟩, hpublish⟩
    refine ⟨htrust, hpolicy, fun mbcs publisherId hadmissible => ?_, ?_⟩
    · exact (hpublish mbcs ⟨publisherId⟩ hadmissible).1
    · intro mbcs publisherId entry hadmissible
      exact (hpublish mbcs ⟨publisherId⟩ hadmissible).2 entry
  · intro h
    refine ⟨⟨h.trustPackage, h.policy⟩, fun mbcs v hadmissible => ?_⟩
    exact ⟨h.ledger mbcs v.publisherId hadmissible,
      fun entry => h.signing mbcs v.publisherId entry hadmissible⟩

def demoIdentity : CallerIdentity := ⟨[105], [115], [], by decide, by decide⟩

def emptyCertificateDeployment : DeployedPorts :=
  { demoDeployment with
    ledger := { demoDeployment.ledger with certificateObject := .stream (some []) } }

def failedSigningDeployment : DeployedPorts :=
  { demoDeployment with signing := { demoDeployment.signing with sign := fun _ _ _ _ => none } }

/-- An empty certificate of the ledger is called an invalid request after the endorsement
was posted, and a failure to sign leaves the call without an end. -/
theorem ledger_failure_blames_request :
    ¬ Attributed (createPublicEndorsement emptyCertificateDeployment (.ofIdentity demoIdentity)
        demoRequest).trace ∧
      ¬ Attributed (createPublicEndorsement failedSigningDeployment (.ofIdentity demoIdentity)
        demoRequest).trace := by
  constructor
  · rintro ⟨-, hblame⟩
    have hposts := hblame (text "Invalid request: " ++
      text "The verification material cannot be empty!") (by decide +kernel)
    revert hposts
    decide +kernel
  · rintro ⟨⟨o, hterminal⟩, -⟩
    have hnone : (createPublicEndorsement failedSigningDeployment (.ofIdentity demoIdentity)
        demoRequest).trace.filterMap HandlerEvent.terminal? = [] := by decide +kernel
    rw [hnone] at hterminal
    cases hterminal

end PesGrpcHandler

end PublicEndorsement.Pes
