import PublicEndorsement.FailureAttribution

/-!
# What a receipt of the ledger is worth

`TLedger.post` compares the entry that the ledger returns with the one it sent and verifies
its signature, but the name of the entry is taken as it comes. That name is the log id,
which the service signs and returns.

* `GenuineEntry` is an entry that deserves a receipt;
* `receiptsGenuine_iff` says when no other gets one;
* `response_entryId` follows the name into the response of a completed call.
-/

namespace PublicEndorsement.Pes

/-- The ledger has returned what was sent, under its signature and with a name. -/
structure GenuineEntry (jca : Jca) (ledger : LedgerPorts) (posted : Endorsement)
    (entry : Proto.Entry) : Prop where
  returned : ∃ responseBody, ledger.answer posted = .body responseBody ∧
    ledger.merge responseBody = some entry
  raw_entry : entry.rawEntry = TLedger.formatRawEntry ledger posted
  signed : LedgerSigned jca ledger entry
  named : entry.name ≠ []

structure ReceiptsGenuine (jca : Jca) (ledger : LedgerPorts) (posted : Endorsement) : Prop where
  genuine : ∀ receipt, (TLedger.post jca ledger posted).outcome = .ok receipt →
    ∃ entry, GenuineEntry jca ledger posted entry ∧ receipt.logId = entry.name
  throws : (∀ entry, ¬ GenuineEntry jca ledger posted entry) →
    ∃ e, (TLedger.post jca ledger posted).outcome = .error e

theorem genuineEntry_iff {jca : Jca} {ledger : LedgerPorts} {posted : Endorsement}
    {entry : Proto.Entry} :
    GenuineEntry jca ledger posted entry ↔
      LedgerReturns ledger posted entry ∧ LedgerSigned jca ledger entry ∧ entry.name ≠ [] := by
  constructor
  · rintro ⟨⟨responseBody, hbody, hmerge⟩, hraw, hsigned, hnamed⟩
    exact ⟨⟨responseBody, hbody, hmerge, hraw.symm⟩, hsigned, hnamed⟩
  · rintro ⟨⟨responseBody, hbody, hmerge, hraw⟩, hsigned, hnamed⟩
    exact ⟨⟨responseBody, hbody, hmerge⟩, hraw.symm, hsigned, hnamed⟩

/-- Receipts are for genuine entries exactly if the ledger names what it returns signed. -/
theorem receiptsGenuine_iff (jca : Jca) (ledger : LedgerPorts) (posted : Endorsement) :
    ReceiptsGenuine jca ledger posted ↔
      ∀ entry, LedgerReturns ledger posted entry → LedgerSigned jca ledger entry →
        entry.name ≠ [] := by
  constructor
  · intro h entry hreturns hsigned
    have hreceipt :=
      (post_ok_iff jca ledger posted ⟨entry.name⟩).mpr ⟨entry, hreturns, hsigned, rfl⟩
    obtain ⟨entry', hgenuine, hname⟩ := h.genuine _ hreceipt
    change entry.name = entry'.name at hname
    rw [hname]
    exact hgenuine.named
  · intro h
    have hgenuine : ∀ receipt, (TLedger.post jca ledger posted).outcome = .ok receipt →
        ∃ entry, GenuineEntry jca ledger posted entry ∧ receipt.logId = entry.name := by
      intro receipt hreceipt
      obtain ⟨entry, hreturns, hsigned, rfl⟩ := (post_ok_iff jca ledger posted receipt).mp hreceipt
      exact ⟨entry, genuineEntry_iff.mpr ⟨hreturns, hsigned, h entry hreturns hsigned⟩, rfl⟩
    refine ⟨hgenuine, ?_⟩
    intro hnone
    cases houtcome : (TLedger.post jca ledger posted).outcome with
    | error e => exact ⟨e, rfl⟩
    | ok receipt =>
      obtain ⟨entry, hentry, -⟩ := hgenuine receipt houtcome
      exact absurd hentry (hnone entry)

/-! ## The name in the response -/

namespace PesGrpcHandler

open PublicEndorsementService

/-- A successful run of the service carries the receipt that the ledger gave for it. -/
theorem createEndorsement_receipt (deployed : DeployedPorts) {e result : Endorsement}
    {identity : CallerIdentity}
    (h : (createEndorsement deployed.ports e identity).outcome = .ok result) :
    (TLedger.post deployed.jca deployed.ledger (posted deployed.ports e)).outcome =
      .ok result.tLogReceipt := by
  rw [createEndorsement_eq] at h
  obtain ⟨⟨mbcs, v⟩, -, hpublish⟩ := Traced.bind_outcome_eq_ok.mp h
  unfold publish settle at hpublish
  obtain ⟨_, -, hsettle⟩ := Traced.bind_outcome_eq_ok.mp hpublish
  obtain ⟨receipt, hreceipt, hrest⟩ := Traced.bind_outcome_eq_ok.mp hsettle
  obtain ⟨signatures, -, hrest⟩ := Traced.bind_outcome_eq_ok.mp hrest
  obtain ⟨_, -, hresult⟩ := Traced.bind_outcome_eq_ok.mp hrest
  cases hresult
  exact hreceipt

/-- The response of a completed call names the entry of the ledger, whatever its name. -/
theorem response_entryId {deployed : DeployedPorts} {context : CallContext}
    {request : Proto.CreatePublicEndorsementRequest}
    (h : .observer .onCompleted ∈ (createPublicEndorsement deployed context request).trace) :
    ∃ response entry,
      (createPublicEndorsement deployed context request).trace.filterMap HandlerEvent.observed? =
        [.onNext response, .onCompleted] ∧
      LedgerReturns deployed.ledger
        (posted deployed.ports (EndorsementMapper.toDomain request.getPublicEndorsement)) entry ∧
      LedgerSigned deployed.jca deployed.ledger entry ∧
      response.tlogReceipt.map (fun receipt => receipt.entryId) = some entry.name := by
  obtain ⟨identity, result, hrun, htrace⟩ := createPublicEndorsement_completed h
  have hreceipt := createEndorsement_receipt deployed hrun
  obtain ⟨entry, hreturns, hsigned, hname⟩ := (post_ok_iff _ _ _ _).mp hreceipt
  refine ⟨EndorsementMapper.toProto result, entry, ?_, hreturns, hsigned, ?_⟩
  · rw [htrace, List.filterMap_append, List.filterMap_map]
    have hnone (l : List (Event LedgerEvent)) :
        l.filterMap (HandlerEvent.observed? ∘ HandlerEvent.service) = [] :=
      List.filterMap_eq_nil_iff.mpr (fun _ _ => rfl)
    rw [hnone]
    rfl
  · change some result.tLogReceipt.logId = some entry.name
    rw [hname]

def namelessDeployment : DeployedPorts :=
  { demoDeployment with
    ledger := { demoDeployment.ledger with merge := fun _ => some ⟨[], [123, 125], [9], [], []⟩ } }

def demoPosted : Endorsement :=
  posted namelessDeployment.ports (EndorsementMapper.toDomain demoRequest.getPublicEndorsement)

theorem nameless_receipt :
    (TLedger.post namelessDeployment.jca namelessDeployment.ledger demoPosted).outcome = .ok ⟨[]⟩ ∧
    ¬ ReceiptsGenuine namelessDeployment.jca namelessDeployment.ledger demoPosted ∧
    ∃ response, (createPublicEndorsement namelessDeployment demoContext
        demoRequest).trace.filterMap HandlerEvent.observed? = [.onNext response, .onCompleted] ∧
      response.tlogReceipt.map (fun receipt => receipt.entryId) = some [] := by
  have hreceipt : (TLedger.post namelessDeployment.jca namelessDeployment.ledger
      demoPosted).outcome = .ok ⟨[]⟩ := by
    decide +kernel
  refine ⟨hreceipt, ?_, ?_⟩
  · intro h
    obtain ⟨entry, hgenuine, hname⟩ := h.genuine _ hreceipt
    exact hgenuine.named hname.symm
  · have hcompletes : .observer .onCompleted ∈
        (createPublicEndorsement namelessDeployment demoContext demoRequest).trace :=
      HandlerEvent.mem_of_observed (by decide +kernel)
    obtain ⟨response, entry, hobserved, ⟨responseBody, -, hmerge, -⟩, -, hname⟩ :=
      response_entryId hcompletes
    cases hmerge
    exact ⟨response, hobserved, hname⟩

end PesGrpcHandler
end PublicEndorsement.Pes
