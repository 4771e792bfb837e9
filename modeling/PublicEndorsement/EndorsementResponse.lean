import PublicEndorsement.EndorsementGate
import PublicEndorsement.EndorsementAdapters

/-!
# A response can be verified from its own fields

What a client computes from the message it receives is what was signed, and what
was sent to the ledger is that message without signatures and receipt. The three
representations of an endorsement, the request, the domain record and the
response, are followed through the mappers.
-/

namespace PublicEndorsement.Pes

open Mbs

namespace Proto

def MaterialCase.derBytes : MaterialCase → Bytes
  | .x509Certificate certificate => certificate.derBytes
  | .ecdsaP256Sha256 key => key.derBytes

def VerificationMaterial.derBytes (m : VerificationMaterial) : Bytes :=
  (m.material.map MaterialCase.derBytes).getD []

def Signature.certificateDer (s : Signature) : Option Bytes :=
  match s.getVerificationMaterial.material with
  | some (.x509Certificate certificate) => some certificate.derBytes
  | _ => none

def Signature.Carries (s : Signature) (certificate : X509Certificate) : Prop :=
  ∃ der, certificate.encoded = some der ∧ s.certificateDer = some der

/-- The encoding as a client computes it from a message. -/
def PublicEndorsementMessage.pae (m : PublicEndorsementMessage) : Bytes :=
  [PreAuthenticationEncoding.pesPrefix,
    PreAuthenticationEncoding.encode m.getStatement.serialized,
    PreAuthenticationEncoding.encode m.getStatementSignature.getVerificationMaterial.derBytes,
    PreAuthenticationEncoding.encode m.getStatementSignature.signature,
    PreAuthenticationEncoding.encode (Utf16.utf8 m.getTlogReceipt.entryId)].flatten

def PublicEndorsementMessage.cleared (m : PublicEndorsementMessage) : PublicEndorsementMessage :=
  { m with endorsementSignatures := [], tlogReceipt := none }

def Statement.declared (s : Statement) : Statement := { s with unknownFields := [] }

def MaterialCase.declared : MaterialCase → MaterialCase
  | .x509Certificate certificate => .x509Certificate { certificate with unknownFields := [] }
  | .ecdsaP256Sha256 key => .ecdsaP256Sha256 { key with unknownFields := [] }

def VerificationMaterial.declared (m : VerificationMaterial) : VerificationMaterial :=
  { material := m.material.map MaterialCase.declared }

end Proto

section Mappers

theorem derBytes_toProto {m : VerificationMaterial} (h : m.format ≠ .formatUnspecified) :
    (VerificationMaterialMapper.toProto m).derBytes = m.content := by
  obtain ⟨content, format⟩ := m
  cases format with
  | formatUnspecified => exact absurd rfl h
  | _ => rfl

/-- A material that is present comes back with exactly its declared fields. -/
theorem material_toProto_toDomain {m : Proto.VerificationMaterial} (h : m.material ≠ none) :
    VerificationMaterialMapper.toProto (VerificationMaterialMapper.toDomain m) = m.declared := by
  obtain ⟨material, unknown⟩ := m
  cases material with
  | none => exact absurd rfl h
  | some c => cases c <;> rfl

theorem statement_toProto_toDomain {s : Proto.Statement}
    (h : (StatementMapper.toDomain s).format ≠ .formatUnspecified) :
    StatementMapper.toProto (StatementMapper.toDomain s) = s.declared := by
  obtain ⟨format, serialized, unknown⟩ := s
  cases format with
  | jsonIntoto => rfl
  | _ => exact absurd rfl h

/-- A message whose statement has a known format has a statement. -/
theorem statement_toProto_of_format {m : Proto.PublicEndorsementMessage}
    (h : (EndorsementMapper.toDomain m).statement.format ≠ .formatUnspecified) :
    some (StatementMapper.toProto (EndorsementMapper.toDomain m).statement) =
      m.statement.map Proto.Statement.declared := by
  cases hstatement : m.statement with
  | none =>
    refine absurd ?_ h
    simp only [EndorsementMapper.toDomain, Proto.PublicEndorsementMessage.getStatement, hstatement]
    rfl
  | some s =>
    have hget : m.getStatement = s := by
      rw [Proto.PublicEndorsementMessage.getStatement, hstatement, Option.getD_some]
    simp only [EndorsementMapper.toDomain, hget] at h ⊢
    rw [statement_toProto_toDomain h, Option.map_some]

theorem material_toProto_of_format {s : Proto.Signature}
    (h : (StatementSignatureMapper.toDomain s).verificationMaterial.format ≠ .formatUnspecified) :
    some (VerificationMaterialMapper.toProto
        (StatementSignatureMapper.toDomain s).verificationMaterial) =
      s.verificationMaterial.map Proto.VerificationMaterial.declared := by
  rw [StatementSignatureMapper.toDomain, ne_eq, material_format_eq_unspecified_iff] at h
  rw [StatementSignatureMapper.toDomain, material_toProto_toDomain h]
  cases hmaterial : s.verificationMaterial with
  | none =>
    rw [Proto.Signature.getVerificationMaterial, hmaterial] at h
    exact absurd rfl h
  | some m => rw [Proto.Signature.getVerificationMaterial, hmaterial, Option.getD_some,
      Option.map_some]

/-- The client's encoding of a response is the service's encoding of the record. -/
theorem pae_toProto {e : Endorsement}
    (h : e.statementSignature.verificationMaterial.format ≠ .formatUnspecified) :
    (EndorsementMapper.toProto e).pae = PreAuthenticationEncoding.calculate e.statement
      e.statementSignature e.tLogReceipt := by
  have hder := derBytes_toProto h
  simp only [Proto.PublicEndorsementMessage.pae, EndorsementMapper.toProto,
    Proto.PublicEndorsementMessage.getStatement, Proto.PublicEndorsementMessage.getTlogReceipt,
    Proto.PublicEndorsementMessage.getStatementSignature, Option.getD_some,
    StatementSignatureMapper.toProto, Proto.Signature.getVerificationMaterial, hder]
  rfl

end Mappers

section Run

def Event.rawEntry? : Event LedgerEvent → Option Bytes
  | .inside (.httpPost _ entry) => some entry.rawEntry
  | _ => none

theorem ledgerPost_trace (jca : Jca) (ports : LedgerPorts) (e : Endorsement) :
    (TLedger.post jca ports e).trace =
      [.httpPost (ports.tLedgerUrl ++ TLedger.tledgerPostSufix)
        (.ofRawEntry (TLedger.formatRawEntry ports e))] := by
  unfold TLedger.post
  rw [Traced.bind_of_ok (Traced.emit_outcome _), Traced.emit_trace]
  refine List.append_right_eq_self.mpr ?_
  split <;> try rfl
  split
  · rfl
  · split_ifs
    · rfl
    · rw [List.eq_nil_iff_forall_not_mem]
      intro ev hev
      simp only [Traced.mem_trace_bind, Traced.quiet_trace, Traced.pure_trace, List.not_mem_nil,
        and_false, exists_false, or_false] at hev

/-- A generated signature carries the certificate it was made for. -/
theorem generate_outcome {ports : SigningPorts} {n : ℕ} {data : Bytes}
    {certificate : X509Certificate} {privateKey : PrivateKey} {s : Signature}
    (h : (SignatureGeneratorImpl.generate ports n data certificate privateKey).outcome = .ok s) :
    (SignatureMapper.toProto s).Carries certificate := by
  unfold SignatureGeneratorImpl.generate at h
  simp only [Traced.bind_outcome_eq_ok, Traced.quiet_outcome, Traced.pure_outcome] at h
  obtain ⟨der, hder, algorithm, -, bytes, -, hs⟩ := h
  cases hs
  unfold SignatureGeneratorImpl.getCertificateBytes at hder
  cases hencoded : certificate.encoded with
  | none => simp [hencoded] at hder
  | some encoded =>
    rw [hencoded] at hder
    cases hder
    exact ⟨_, hencoded, rfl⟩

theorem generate_trace (ports : SigningPorts) (n : ℕ) (data : Bytes)
    (certificate : X509Certificate) (privateKey : PrivateKey) :
    (SignatureGeneratorImpl.generate ports n data certificate privateKey).trace = [] := by
  rw [List.eq_nil_iff_forall_not_mem]
  intro ev hev
  simp only [SignatureGeneratorImpl.generate, Traced.mem_trace_bind, Traced.quiet_trace,
    Traced.pure_trace, List.not_mem_nil, and_false, exists_false, or_false] at hev

variable (deployed : DeployedPorts)

open PublicEndorsementService

theorem signWithAll_ok {data : Bytes} {mbcs : List MeasurementBoundCertificate}
    {signatures : List Signature}
    (h : (signWithAll deployed.ports data mbcs).outcome = .ok signatures) :
    List.Forall₂ (fun mbc s => s.Carries mbc.certificate) mbcs
        (signatures.map SignatureMapper.toProto) ∧
      (signWithAll deployed.ports data mbcs).trace =
        mbcs.map (fun mbc => .generate data mbc.certificate mbc.privateKey) := by
  obtain ⟨hall, htrace⟩ := Traced.mapM_outcome_ok h
  constructor
  · rw [← List.zipIdx_map_fst 0 mbcs, List.forall₂_map_left_iff, List.forall₂_map_right_iff]
    refine hall.imp ?_
    intro p s hs
    obtain ⟨u, -, hgen⟩ := Traced.bind_outcome_eq_ok.mp hs
    exact generate_outcome hgen
  · rw [signWithAll, htrace]
    have hone : ∀ p : MeasurementBoundCertificate × ℕ,
        (do
          Traced.emit (.generate data p.1.certificate p.1.privateKey)
          Traced.embed .inside (deployed.ports.generate p.2 data p.1.certificate p.1.privateKey) :
          Traced (Event LedgerEvent) Exn Signature).trace =
        [.generate data p.1.certificate p.1.privateKey] := by
      intro p
      have hgen : (deployed.ports.generate p.2 data p.1.certificate p.1.privateKey).trace = [] :=
        generate_trace _ _ _ _ _
      rw [Traced.bind_of_ok (Traced.emit_outcome _)]
      simp [hgen]
    simp only [hone]
    conv_rhs => rw [← List.zipIdx_map_fst 0 mbcs, List.map_map]
    rw [← List.flatMap_pure_eq_map]
    rfl

/-- Everything a successful publication does, in order. -/
theorem publish_ok {e result : Endorsement} {mbcs : List MeasurementBoundCertificate}
    {v : VerifiedEndorsement} (h : (publish deployed.ports e mbcs v).outcome = .ok result) :
    ∃ receipt signatures,
      result = { posted deployed.ports e with
        endorsementSignatures := signatures, tLogReceipt := receipt } ∧
      List.Forall₂ (fun mbc s => s.Carries mbc.certificate) mbcs
        (signatures.map SignatureMapper.toProto) ∧
      (publish deployed.ports e mbcs v).trace =
        .post (posted deployed.ports e) ::
        .inside (.httpPost (deployed.ledger.tLedgerUrl ++ TLedger.tledgerPostSufix)
          (.ofRawEntry (TLedger.formatRawEntry deployed.ledger (posted deployed.ports e)))) ::
        (mbcs.map (fun mbc => .generate (PreAuthenticationEncoding.calculate e.statement
          e.statementSignature receipt) mbc.certificate mbc.privateKey) ++
        [.incrementEndorsementCounter v.publisherId]) := by
  unfold publish settle at h ⊢
  obtain ⟨u, hemit, hrest⟩ := Traced.bind_outcome_eq_ok.mp h
  obtain ⟨receipt, hreceipt, hrest⟩ := Traced.bind_outcome_eq_ok.mp hrest
  obtain ⟨signatures, hsigned, hrest⟩ := Traced.bind_outcome_eq_ok.mp hrest
  obtain ⟨u', hcount, hresult⟩ := Traced.bind_outcome_eq_ok.mp hrest
  cases hresult
  obtain ⟨hcerts, hsignTrace⟩ := signWithAll_ok deployed hsigned
  refine ⟨receipt, signatures, rfl, hcerts, ?_⟩
  have hpost : (deployed.ports.post (posted deployed.ports e)).trace =
      [.httpPost (deployed.ledger.tLedgerUrl ++ TLedger.tledgerPostSufix)
        (.ofRawEntry (TLedger.formatRawEntry deployed.ledger (posted deployed.ports e)))] :=
    ledgerPost_trace deployed.jca deployed.ledger _
  rw [Traced.bind_of_ok hemit, Traced.bind_of_ok hreceipt, Traced.bind_of_ok hsigned,
    Traced.bind_of_ok hcount, hsignTrace, Traced.embed_trace, hpost]
  simp

/-- Everything a successful `createEndorsement` did. -/
theorem createEndorsement_ok {e result : Endorsement} {identity : CallerIdentity}
    (h : (createEndorsement deployed.ports e identity).outcome = .ok result) :
    ∃ mbcs publisherId, Admissible deployed.ports e identity mbcs publisherId ∧
      result.statement = e.statement ∧ result.statementSignature = e.statementSignature ∧
      List.Forall₂ (fun mbc s => s.Carries mbc.certificate) mbcs
        (result.endorsementSignatures.map SignatureMapper.toProto) ∧
      (createEndorsement deployed.ports e identity).trace.filterMap Event.generate? =
        mbcs.map (fun mbc => (PreAuthenticationEncoding.calculate result.statement
          result.statementSignature result.tLogReceipt, mbc.certificate)) ∧
      (createEndorsement deployed.ports e identity).trace.filterMap Event.rawEntry? =
        [TLedger.formatRawEntry deployed.ledger result] := by
  rw [createEndorsement_eq] at h ⊢
  obtain ⟨⟨mbcs, v⟩, hvet, hpublish⟩ := Traced.bind_outcome_eq_ok.mp h
  obtain ⟨receipt, signatures, rfl, hcerts, htrace⟩ := publish_ok deployed hpublish
  refine ⟨mbcs, v.publisherId, (vet_iff _ _ _ _ _).mp hvet, rfl, rfl, hcerts, ?_, ?_⟩
  · rw [Traced.bind_of_ok hvet, List.filterMap_append,
      vet_filterMap _ _ _ (fun _ => rfl), htrace]
    simp only [List.filterMap_cons, Event.generate?, List.filterMap_append, List.filterMap_map,
      List.filterMap_nil, List.append_nil, List.nil_append]
    exact congrFun List.filterMap_eq_map mbcs
  · rw [Traced.bind_of_ok hvet, List.filterMap_append,
      vet_filterMap _ _ _ (fun _ => rfl), htrace]
    simp [Event.rawEntry?, List.filterMap_cons, List.filterMap_append]
    rfl

end Run

namespace HandlerEvent

def observed? : HandlerEvent → Option ObserverEvent
  | .observer o => some o
  | .service _ => none

def signed? : HandlerEvent → Option (Bytes × X509Certificate)
  | .service e => e.generate?
  | .observer _ => none

def rawEntry? : HandlerEvent → Option Bytes
  | .service e => e.rawEntry?
  | .observer _ => none

theorem mem_of_observed {l : List HandlerEvent} {o : ObserverEvent}
    (h : o ∈ l.filterMap observed?) : .observer o ∈ l := by
  obtain ⟨ev, hev, ho⟩ := List.mem_filterMap.mp h
  cases ev with
  | service e => cases ho
  | observer o' =>
    cases ho
    exact hev

end HandlerEvent

namespace PesGrpcHandler

variable {deployed : DeployedPorts} {context : CallContext}
  {request : Proto.CreatePublicEndorsementRequest}

/-- The catch clauses never complete a call. -/
theorem onCompleted_notMem_report (e : Exn) :
    HandlerEvent.observer .onCompleted ∉ (report e).trace := by
  cases e <;> simp [report, observe]

/-- A call that completes is a successful run of the service followed by one response. -/
theorem createPublicEndorsement_completed
    (h : .observer .onCompleted ∈ (createPublicEndorsement deployed context request).trace) :
    ∃ identity result,
      (PublicEndorsementService.createEndorsement deployed.ports
        (EndorsementMapper.toDomain request.getPublicEndorsement) identity).outcome = .ok result ∧
      (createPublicEndorsement deployed context request).trace =
        (PublicEndorsementService.createEndorsement deployed.ports
          (EndorsementMapper.toDomain request.getPublicEndorsement) identity).trace.map .service ++
        [.observer (.onNext (EndorsementMapper.toProto result)), .observer .onCompleted] := by
  unfold createPublicEndorsement at h ⊢
  split at h
  case h_2 => simp [observe] at h
  case h_1 issuer subject audiences hi hs ha =>
    cases hidentity : CallerIdentity.create issuer subject audiences with
    | error e => simp [hidentity] at h
    | ok identity =>
      rw [hidentity, Traced.quiet_ok_bind] at h
      simp only [Traced.quiet_ok_bind]
      cases hrun : (PublicEndorsementService.createEndorsement deployed.ports
          (EndorsementMapper.toDomain request.getPublicEndorsement) identity).outcome with
      | error e =>
        rw [Traced.bind_of_error (by rw [Traced.embed_outcome, hrun]),
          Traced.tryCatch_of_error rfl] at h
        simp [onCompleted_notMem_report] at h
      | ok result =>
        refine ⟨identity, result, hrun, ?_⟩
        rw [Traced.bind_of_ok (by rw [Traced.embed_outcome, hrun]), Traced.tryCatch_of_ok rfl]
        rfl

/-- A completed call answers with one message. Its own fields give the bytes that were
signed for each certificate of the trust package; it repeats the declared fields of
the request; and without signatures and receipt it is what the ledger was sent. -/
theorem response_self_consistent
    (h : .observer .onCompleted ∈ (createPublicEndorsement deployed context request).trace) :
    ∃ response mbcs,
      (createPublicEndorsement deployed context request).trace.filterMap HandlerEvent.observed? =
        [.onNext response, .onCompleted] ∧
      deployed.getActiveTrustPackage = .ok mbcs ∧
      (createPublicEndorsement deployed context request).trace.filterMap HandlerEvent.signed? =
        mbcs.map (fun mbc => (response.pae, mbc.certificate)) ∧
      List.Forall₂ (fun mbc s => s.Carries mbc.certificate) mbcs response.endorsementSignatures ∧
      response.statement =
        request.getPublicEndorsement.statement.map Proto.Statement.declared ∧
      response.getStatementSignature.signature =
        request.getPublicEndorsement.getStatementSignature.signature ∧
      response.getStatementSignature.verificationMaterial =
        request.getPublicEndorsement.getStatementSignature.verificationMaterial.map
          Proto.VerificationMaterial.declared ∧
      (createPublicEndorsement deployed context request).trace.filterMap HandlerEvent.rawEntry? =
        [deployed.ledger.toByteString response.cleared] := by
  obtain ⟨identity, result, hrun, htrace⟩ := createPublicEndorsement_completed h
  obtain ⟨mbcs, publisherId, hadmissible, hstatement, hsignature, hcarries, hsigned, hraw⟩ :=
    createEndorsement_ok deployed hrun
  have hmaterial : result.statementSignature.verificationMaterial.format ≠ .formatUnspecified := by
    rw [hsignature]
    intro hformat
    rcases hadmissible.material_supported with hx509 | hecdsa
    · cases hformat.symm.trans hx509
    · cases hformat.symm.trans hecdsa
  rw [htrace]
  simp only [List.filterMap_append, List.filterMap_map]
  refine ⟨EndorsementMapper.toProto result, mbcs, ?_, hadmissible.trust_package, ?_, hcarries,
    ?_, ?_, ?_, ?_⟩
  · have hnone : ∀ l : List (Event LedgerEvent),
        l.filterMap (HandlerEvent.observed? ∘ HandlerEvent.service) = [] := by
      intro l
      exact List.filterMap_eq_nil_iff.mpr (fun _ _ => rfl)
    rw [hnone]
    rfl
  · rw [pae_toProto hmaterial, ← hsigned]
    exact List.append_nil _
  · rw [← statement_toProto_of_format hadmissible.format_specified, ← hstatement]
    rfl
  · change result.statementSignature.signature = _
    rw [hsignature]
    rfl
  · rw [hsignature] at hmaterial
    rw [← material_toProto_of_format hmaterial]
    change some (VerificationMaterialMapper.toProto
      result.statementSignature.verificationMaterial) = _
    rw [hsignature]
    rfl
  · have hentry : deployed.ledger.toByteString (EndorsementMapper.toProto result).cleared =
        TLedger.formatRawEntry deployed.ledger result := rfl
    rw [hentry, ← hraw]
    exact List.append_nil _

def demoKey : PublicKey := ⟨"EC", [1]⟩

def demoDeployment : DeployedPorts where
  parsers :=
    { readValue := fun _ => .ok (some ⟨some ⟨some ⟨some [50]⟩,
        [⟨Claim.publisherClaimType, some [(Claim.publisherIdKey, some [112])]⟩]⟩⟩)
      parseInstant := fun _ => some 0
      showInstant := fun _ => [] }
  store :=
    { bucketName := []
      getObject := fun _ => .stream (some [])
      parseJson := fun _ => some ⟨[112], [⟨[105], [115]⟩],
        [{ material := some (.ecdsaP256Sha256 { derBytes := [4] }) }]⟩ }
  jca :=
    { generatePublic := fun _ => some demoKey
      certificatePublicKey := fun _ => some demoKey
      verify := fun _ _ _ _ => .ok true }
  getActiveTrustPackage := .ok [⟨⟨some [5], demoKey, "", 0⟩, ⟨"EC", [6]⟩, ⟨[]⟩⟩,
    ⟨⟨some [15], demoKey, "", 1⟩, ⟨"EC", [16]⟩, ⟨[]⟩⟩]
  ledger :=
    { tLedgerUrl := [], certificateBucketName := [], certificateFileName := []
      toByteString := fun m => m.getStatement.serialized
      print := fun _ => []
      execute := fun _ _ => .body (some [])
      merge := fun _ => some ⟨[101], [123, 125], [9], [], []⟩
      certificateObject := .stream (some [8]) }
  signing :=
    { sign := fun _ _ _ _ => some [3]
      requestTimeStampToken := fun _ _ => none }
  randomUUID := [117]

def demoContext : CallContext := ⟨some [105], some [115], some []⟩

def demoRequest : Proto.CreatePublicEndorsementRequest :=
  { publicEndorsement := some
      { name := []
        statement := some { format := .jsonIntoto, serialized := [123, 125] }
        statementSignature := some
          { signature := [2]
            verificationMaterial := some
              { material := some (.ecdsaP256Sha256 { derBytes := [4] }) }
            timeStampToken := none }
        endorsementSignatures := []
        tlogReceipt := none } }

theorem demo_completes :
    .observer .onCompleted ∈
      (createPublicEndorsement demoDeployment demoContext demoRequest).trace :=
  HandlerEvent.mem_of_observed (by decide +kernel)

theorem demo_response_self_consistent :
    ∃ response mbcs,
      (createPublicEndorsement demoDeployment demoContext demoRequest).trace.filterMap
        HandlerEvent.observed? = [.onNext response, .onCompleted] ∧
      demoDeployment.getActiveTrustPackage = .ok mbcs ∧
      (createPublicEndorsement demoDeployment demoContext demoRequest).trace.filterMap
        HandlerEvent.signed? = mbcs.map (fun mbc => (response.pae, mbc.certificate)) := by
  obtain ⟨response, mbcs, hobserved, htrust, hsigned, -⟩ :=
    response_self_consistent demo_completes
  exact ⟨response, mbcs, hobserved, htrust, hsigned⟩

end PesGrpcHandler

end PublicEndorsement.Pes
