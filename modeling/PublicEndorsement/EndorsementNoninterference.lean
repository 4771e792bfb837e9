import PublicEndorsement.EndorsementResponse

/-!
# Output-only fields of a request

Clients may fill in fields that the service is to produce. Those reach the record
handed to `TLog.post`, and no further: two requests that agree on what the client is
asked for cannot be told apart by anything that does not look into that record.
-/

namespace PublicEndorsement.Pes

open Mbs Traced

/-- The requests agree on every field that is the client's to choose. -/
structure Proto.PublicEndorsementMessage.AgreeOnInputs (m m' : Proto.PublicEndorsementMessage) :
    Prop where
  statement : m.getStatement.declared = m'.getStatement.declared
  signature : m.getStatementSignature.signature = m'.getStatementSignature.signature
  material : m.getStatementSignature.getVerificationMaterial.declared =
    m'.getStatementSignature.getVerificationMaterial.declared

section Mappers

theorem statement_toDomain_declared (s : Proto.Statement) :
    StatementMapper.toDomain s.declared = StatementMapper.toDomain s := rfl

theorem material_toDomain_declared (m : Proto.VerificationMaterial) :
    VerificationMaterialMapper.toDomain m.declared = VerificationMaterialMapper.toDomain m := by
  obtain ⟨material, unknown⟩ := m
  cases material with
  | none => rfl
  | some c => cases c <;> rfl

variable {m m' : Proto.PublicEndorsementMessage}

theorem toDomain_statement_eq (h : m.AgreeOnInputs m') :
    (EndorsementMapper.toDomain m).statement = (EndorsementMapper.toDomain m').statement := by
  simp only [EndorsementMapper.toDomain]
  rw [← statement_toDomain_declared, h.statement, statement_toDomain_declared]

theorem toDomain_statementSignature_eq (h : m.AgreeOnInputs m') :
    (EndorsementMapper.toDomain m).statementSignature =
      (EndorsementMapper.toDomain m').statementSignature := by
  simp only [EndorsementMapper.toDomain, StatementSignatureMapper.toDomain]
  rw [h.signature, ← material_toDomain_declared, h.material, material_toDomain_declared]

end Mappers

namespace PublicEndorsementService

variable {deployed : DeployedPorts} {e e' : Endorsement}

theorem vet_congr {ω : Type} (ports : Ports ω) (identity : CallerIdentity)
    (hs : e.statement = e'.statement) (hg : e.statementSignature = e'.statementSignature) :
    vet ports e identity = vet ports e' identity := by
  unfold vet
  rw [hs, hg]

/-- The ledger client sends neither signatures nor receipt. -/
theorem ledgerPost_congr (hs : e.statement = e'.statement)
    (hg : e.statementSignature = e'.statementSignature) :
    deployed.ports.post (posted deployed.ports e) =
      deployed.ports.post (posted deployed.ports e') := by
  have hraw : TLedger.formatRawEntry deployed.ledger (posted deployed.ports e) =
      TLedger.formatRawEntry deployed.ledger (posted deployed.ports e') := by
    simp only [TLedger.formatRawEntry, EndorsementMapper.toProto, posted, hs, hg]
  change TLedger.post deployed.jca deployed.ledger (posted deployed.ports e) =
    TLedger.post deployed.jca deployed.ledger (posted deployed.ports e')
  unfold TLedger.post
  rw [hraw]

theorem settle_congr (mbcs : List MeasurementBoundCertificate) (v : VerifiedEndorsement)
    (hs : e.statement = e'.statement) (hg : e.statementSignature = e'.statementSignature) :
    settle deployed.ports e mbcs v = settle deployed.ports e' mbcs v := by
  unfold settle
  rw [ledgerPost_congr hs hg]
  simp only [posted, hs, hg]

variable {β : Type} {see : Event LedgerEvent → Option β}

/-- The runs of the service differ at most in the record handed to `TLog.post`. -/
theorem createEndorsement_indistinguishable (identity : CallerIdentity)
    (hsee : ∀ r r', see (.post r) = see (.post r'))
    (hs : e.statement = e'.statement) (hg : e.statementSignature = e'.statementSignature) :
    Indistinguishable see (createEndorsement deployed.ports e identity)
      (createEndorsement deployed.ports e' identity) := by
  rw [createEndorsement_eq, createEndorsement_eq, vet_congr deployed.ports identity hs hg]
  refine (Indistinguishable.refl _).bind ?_
  rintro ⟨mbcs, v⟩
  unfold publish
  refine (Indistinguishable.emit (hsee _ _)).bind ?_
  intro u
  rw [settle_congr mbcs v hs hg]
  exact Indistinguishable.refl _

end PublicEndorsementService

namespace PesGrpcHandler

variable (deployed : DeployedPorts) (context : CallContext)
  {request request' : Proto.CreatePublicEndorsementRequest}

theorem createPublicEndorsement_indistinguishable {β : Type} {see : HandlerEvent → Option β}
    (hsee : ∀ r r', see (.service (.post r)) = see (.service (.post r')))
    (h : request.getPublicEndorsement.AgreeOnInputs request'.getPublicEndorsement) :
    Indistinguishable see (createPublicEndorsement deployed context request)
      (createPublicEndorsement deployed context request') := by
  unfold createPublicEndorsement
  split
  case h_2 => exact Indistinguishable.refl _
  case h_1 issuer subject audiences hi hs ha =>
    refine (Indistinguishable.refl _).bind ?_
    intro identity
    refine Indistinguishable.tryCatch (Indistinguishable.bind ?_ ?_) report
    · exact Indistinguishable.embed
        (PublicEndorsementService.createEndorsement_indistinguishable identity hsee
          (toDomain_statement_eq h) (toDomain_statementSignature_eq h))
    · intro result
      exact Indistinguishable.refl _

/-- Requests that agree on the client's fields are accepted or refused alike, have the
same entry posted and the same bytes signed, and get the same response. -/
theorem output_only_fields_ignored
    (h : request.getPublicEndorsement.AgreeOnInputs request'.getPublicEndorsement) :
    (createPublicEndorsement deployed context request).outcome =
      (createPublicEndorsement deployed context request').outcome ∧
    (createPublicEndorsement deployed context request).trace.filterMap HandlerEvent.rawEntry? =
      (createPublicEndorsement deployed context request').trace.filterMap
        HandlerEvent.rawEntry? ∧
    (createPublicEndorsement deployed context request).trace.filterMap HandlerEvent.signed? =
      (createPublicEndorsement deployed context request').trace.filterMap HandlerEvent.signed? ∧
    (createPublicEndorsement deployed context request).trace.filterMap HandlerEvent.observed? =
      (createPublicEndorsement deployed context request').trace.filterMap
        HandlerEvent.observed? := by
  have hraw : Indistinguishable HandlerEvent.rawEntry? _ _ :=
    createPublicEndorsement_indistinguishable deployed context (fun _ _ => rfl) h
  have hsigned : Indistinguishable HandlerEvent.signed? _ _ :=
    createPublicEndorsement_indistinguishable deployed context (fun _ _ => rfl) h
  have hobserved : Indistinguishable HandlerEvent.observed? _ _ :=
    createPublicEndorsement_indistinguishable deployed context (fun _ _ => rfl) h
  exact ⟨hraw.outcome, hraw.seen, hsigned.seen, hobserved.seen⟩

def demoRequestFilledIn : Proto.CreatePublicEndorsementRequest :=
  { publicEndorsement := some
      { name := [120]
        statement := some
          { format := .jsonIntoto, serialized := [123, 125], unknownFields := [1] }
        statementSignature := some
          { signature := [2]
            verificationMaterial := some
              { material := some (.ecdsaP256Sha256 { derBytes := [4] }), unknownFields := [2] }
            timeStampToken := some { derBytes := [3] }
            unknownFields := [4] }
        endorsementSignatures := [Proto.Signature.default]
        tlogReceipt := some { entryId := [121] }
        unknownFields := [5] }
    unknownFields := [6] }

theorem demo_output_only_fields_ignored :
    (createPublicEndorsement demoDeployment demoContext demoRequest).trace.filterMap
        HandlerEvent.observed? =
      (createPublicEndorsement demoDeployment demoContext demoRequestFilledIn).trace.filterMap
        HandlerEvent.observed? := by
  have hagree : demoRequest.getPublicEndorsement.AgreeOnInputs
      demoRequestFilledIn.getPublicEndorsement := ⟨rfl, rfl, rfl⟩
  exact (output_only_fields_ignored demoDeployment demoContext hagree).2.2.2

end PesGrpcHandler
end PublicEndorsement.Pes
