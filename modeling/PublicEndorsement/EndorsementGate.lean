import PublicEndorsement.EndorsementChecks

/-!
# The gate in front of the ledger

`createEndorsement` is the checks followed by the publication. Publication is
reached exactly for admissible requests, and for all others nothing is posted,
signed or counted.
-/

namespace PublicEndorsement.Pes

open Mbs

variable {ω : Type}

namespace PublicEndorsementService

variable (ports : Ports ω) (e : Endorsement) (identity : CallerIdentity)

/-- The part of `createEndorsement` before the ledger. -/
def vet : Traced (Event ω) Exn (List MeasurementBoundCertificate × VerifiedEndorsement) := do
  if e.statement.format = .formatUnspecified then
    throw (.illegalArgument (text "The statement format has to be specified"))
  let mbcs ← Traced.quiet ports.getActiveTrustPackage
  let maxNotAfter ← Traced.quiet (getEarliestCertificateExpiry mbcs)
  let verifiedEndorsement ← EndorsementVerifier.parseAndVerify ports.parsers ports.store
    e.statement identity e.statementSignature maxNotAfter
  Traced.quiet (SignatureVerifierImpl.verify ports.jca e.statementSignature
    e.statement.serialized)
  pure (mbcs, verifiedEndorsement)

def posted : Endorsement := { e with name := namePrefix ++ ports.randomUUID }

def settle (mbcs : List MeasurementBoundCertificate) (v : VerifiedEndorsement) :
    Traced (Event ω) Exn Endorsement := do
  let tLogReceipt ← Traced.embed .inside (ports.post (posted ports e))
  let endorsementSignatures ← signWithAll ports
    (PreAuthenticationEncoding.calculate e.statement e.statementSignature tLogReceipt) mbcs
  Traced.emit (.incrementEndorsementCounter v.publisherId)
  pure { posted ports e with
    endorsementSignatures := endorsementSignatures, tLogReceipt := tLogReceipt }

def publish (mbcs : List MeasurementBoundCertificate) (v : VerifiedEndorsement) :
    Traced (Event ω) Exn Endorsement := do
  Traced.emit (.post (posted ports e))
  settle ports e mbcs v

theorem createEndorsement_eq :
    createEndorsement ports e identity =
      vet ports e identity >>= fun r => publish ports e r.1 r.2 := by
  unfold createEndorsement vet publish settle
  by_cases hformat : e.statement.format = .formatUnspecified
  · simp [hformat]
  · simp [hformat, posted]

theorem vet_iff (mbcs : List MeasurementBoundCertificate) (v : VerifiedEndorsement) :
    (vet ports e identity).outcome = .ok (mbcs, v) ↔
      Admissible ports e identity mbcs v.publisherId := by
  unfold vet
  by_cases hformat : e.statement.format = .formatUnspecified
  · simp only [hformat, if_true, Traced.throw_bind, Traced.throw_outcome, reduceCtorEq, false_iff]
    exact fun h => h.format_specified hformat
  simp only [hformat, if_false, Traced.bind_outcome_eq_ok, Traced.quiet_outcome,
    Traced.pure_outcome, Except.ok.injEq, Prod.mk.injEq]
  constructor
  · rintro ⟨mbcs', htrust, latest, hlatest, v', hv, u, hverify, rfl, rfl⟩
    have hok := (parseAndVerify_iff ..).mp hv
    obtain ⟨parsed, predicate, t, hparsed, hpred, hexpires, ht, hnames⟩ := hok.parses
    obtain ⟨hnonempty, hall⟩ :=
      (getEarliestCertificateExpiry_iff mbcs' t).mp ⟨latest, hlatest, ht⟩
    obtain ⟨key, algorithm, hkey, hrest⟩ := (signature_verify_iff ..).mp hverify
    obtain ⟨hcontent, hsupported⟩ := parse_material hkey
    refine ⟨hformat, ?_, htrust, hnonempty,
      ⟨parsed, predicate, t, hparsed, hpred, hexpires, hall, hnames⟩, hok.policy,
      identity.issuer_not_blank, identity.subject_not_blank, hcontent, hsupported,
      key, algorithm, hkey, hrest⟩
    cases hf : e.statement.format with
    | formatUnspecified => exact absurd hf hformat
    | jsonIntoto => rfl
  · intro h
    obtain ⟨parsed, predicate, t, hparsed, hpred, hexpires, hall, hnames⟩ := h.parses
    obtain ⟨latest, hlatest, ht⟩ :=
      (getEarliestCertificateExpiry_iff mbcs t).mpr ⟨h.trust_package_nonempty, hall⟩
    refine ⟨mbcs, h.trust_package, latest, hlatest, v, ?_, (),
      (signature_verify_iff ..).mpr h.verifies, rfl, rfl⟩
    exact (parseAndVerify_iff ..).mpr ⟨hformat,
      ⟨parsed, predicate, t, hparsed, hpred, hexpires, ht, hnames⟩, h.policy⟩

theorem vet_trace : ∀ ev ∈ (vet ports e identity).trace, ev.IsApproval := by
  intro ev hev
  unfold vet at hev
  split_ifs at hev
  · simp at hev
  simp only [Traced.mem_trace_bind, Traced.quiet_trace, List.not_mem_nil, false_or,
    Traced.pure_trace, and_false, exists_false, or_false] at hev
  obtain ⟨mbcs, -, latest, -, hev⟩ := hev
  exact parseAndVerify_trace _ _ _ _ _ _ ev hev

/-- The checks leave no trace in anything but approvals. -/
theorem vet_filterMap {β : Type} {f : Event ω → Option β}
    (hf : ∀ p, f (.approvePublisher p) = none) :
    (vet ports e identity).trace.filterMap f = [] := by
  rw [List.filterMap_eq_nil_iff]
  intro ev hev
  obtain ⟨p, rfl⟩ := vet_trace ports e identity ev hev
  exact hf p

theorem signWithAll_trace (data : Bytes) (mbcs : List MeasurementBoundCertificate) :
    ∀ ev ∈ (signWithAll ports data mbcs).trace, ev.post? = none := by
  apply Traced.forall_trace_mapM
  rintro ⟨mbc, n⟩ - ev hev
  simp only [Traced.mem_trace_bind, Traced.emit_trace, List.mem_singleton, Traced.embed_trace,
    List.mem_map] at hev
  rcases hev with rfl | ⟨-, -, x, -, rfl⟩
  · rfl
  · rfl

/-- Publication calls the ledger once, with the request under its new name. -/
theorem publish_posts (mbcs : List MeasurementBoundCertificate) (v : VerifiedEndorsement) :
    (publish ports e mbcs v).trace.filterMap Event.post? = [posted ports e] := by
  unfold publish
  rw [Traced.bind_of_ok (Traced.emit_outcome _), List.filterMap_append]
  have hrest : ∀ ev ∈ (settle ports e mbcs v).trace, ev.post? = none := by
    intro ev hev
    unfold settle at hev
    simp only [Traced.mem_trace_bind, Traced.embed_trace, List.mem_map, Traced.emit_trace,
      List.mem_singleton, Traced.pure_trace, List.not_mem_nil, and_false, exists_false,
      or_false] at hev
    rcases hev with ⟨x, -, rfl⟩ | ⟨receipt, -, hev | ⟨signatures, -, rfl⟩⟩
    · rfl
    · exact signWithAll_trace ports _ mbcs ev hev
    · rfl
  rw [List.filterMap_eq_nil_iff.mpr hrest]
  rfl

/-- The ledger is called at most once, and only for admissible requests; every other
request makes the service throw before anything is posted, signed or counted. -/
theorem createEndorsement_gated :
    ((createEndorsement ports e identity).trace.filterMap Event.post?).length ≤ 1 ∧
    ((createEndorsement ports e identity).trace.filterMap Event.post? ≠ [] ↔
      ∃ mbcs publisherId, Admissible ports e identity mbcs publisherId) ∧
    ((¬ ∃ mbcs publisherId, Admissible ports e identity mbcs publisherId) →
      (∃ ex, (createEndorsement ports e identity).outcome = .error ex) ∧
      (createEndorsement ports e identity).trace.filterMap Event.post? = [] ∧
      (createEndorsement ports e identity).trace.filterMap Event.generate? = [] ∧
      (createEndorsement ports e identity).trace.filterMap Event.count? = []) := by
  rw [createEndorsement_eq]
  cases hvet : (vet ports e identity).outcome with
  | error ex =>
    have hnot : ¬ ∃ mbcs publisherId, Admissible ports e identity mbcs publisherId := by
      rintro ⟨mbcs, publisherId, h⟩
      have hok := (vet_iff ports e identity mbcs ⟨publisherId⟩).mpr h
      rw [hvet] at hok
      cases hok
    rw [Traced.bind_of_error hvet]
    simp only [vet_filterMap ports e identity (f := Event.post?) (fun _ => rfl),
      vet_filterMap ports e identity (f := Event.generate?) (fun _ => rfl),
      vet_filterMap ports e identity (f := Event.count?) (fun _ => rfl)]
    simp [hnot]
  | ok r =>
    obtain ⟨mbcs, v⟩ := r
    have hyes : ∃ mbcs publisherId, Admissible ports e identity mbcs publisherId :=
      ⟨mbcs, v.publisherId, (vet_iff ports e identity mbcs v).mp hvet⟩
    rw [Traced.bind_of_ok hvet]
    simp only [List.filterMap_append, publish_posts,
      vet_filterMap ports e identity (f := Event.post?) (fun _ => rfl)]
    simp [hyes]

end PublicEndorsementService
end PublicEndorsement.Pes
