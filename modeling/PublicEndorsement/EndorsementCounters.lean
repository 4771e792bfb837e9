import PublicEndorsement.ServedCalls
import PublicEndorsement.SystemMetrics

/-!
# Counting the endorsements of a server

What a call does to the metrics follows from what it does at all: it approves a publisher when the
policy admits it, and counts an endorsement of the same publisher when it has made one. So the
counters of a server that serves any number of calls are the numbers of endorsements made.
-/

namespace PublicEndorsement.Pes

open Mbs Oidc

/-! ## What a call does to the metrics -/

def Event.metrics? {ω : Type} : Event ω → Option MetricsCall
  | .approvePublisher publisherId => some (.approvePublisher (some publisherId))
  | .incrementEndorsementCounter publisherId =>
    some (.incrementEndorsementCounter (some publisherId))
  | _ => none

def HandlerEvent.metrics? : HandlerEvent → Option MetricsCall
  | .service e => e.metrics?
  | .observer _ => none

def ServerEvent.metrics? : ServerEvent → Option MetricsCall
  | .interceptor _ => none
  | .handler e => e.metrics?

section Programs

variable {ω : Type}

/-- A computation that approves the publisher it returns, and none if it throws. -/
def Approves {α : Type} (publisher : α → Utf16) (x : Traced (Event ω) Exn α) : Prop :=
  (∃ a, x.outcome = .ok a ∧
    x.trace.filterMap Event.metrics? = [.approvePublisher (some (publisher a))]) ∨
  ∃ e, x.outcome = .error e ∧ x.trace.filterMap Event.metrics? = []

namespace Approves

variable {α β : Type} {publisher : α → Utf16}

theorem throw (e : Exn) : Approves publisher (MonadExcept.throw e : Traced (Event ω) Exn α) :=
  .inr ⟨e, rfl, rfl⟩

/-- Nothing is approved before. -/
theorem quiet_bind {r : Except Exn β} {f : β → Traced (Event ω) Exn α}
    (h : ∀ b, r = .ok b → Approves publisher (f b)) :
    Approves publisher (Traced.quiet r >>= f) := by
  cases r with
  | error e => exact .inr ⟨e, rfl, rfl⟩
  | ok b =>
    rw [Traced.quiet_ok_bind]
    exact h b rfl

/-- Only the returned value changes. -/
theorem bind_pure {publisher' : β → Utf16} {x : Traced (Event ω) Exn α} {g : α → β}
    (h : Approves publisher x) (hg : ∀ a, publisher' (g a) = publisher a) :
    Approves publisher' (x >>= fun a => pure (g a)) := by
  rcases h with ⟨a, hok, htrace⟩ | ⟨e, herror, htrace⟩
  · rw [Traced.bind_of_ok hok]
    refine .inl ⟨g a, rfl, ?_⟩
    rw [Traced.pure_trace, List.append_nil, htrace, hg]
  · rw [Traced.bind_of_error herror]
    exact .inr ⟨e, rfl, htrace⟩

end Approves

theorem approves_verify (store : PolicyStore) (publisherId : Utf16) (identity : CallerIdentity)
    (signature : StatementSignature) :
    Approves (fun _ => publisherId)
      (PublisherVerifier.verify store publisherId identity signature :
        Traced (Event ω) Exn Unit) := by
  unfold PublisherVerifier.verify
  refine .quiet_bind fun policy _ => ?_
  cases policy with
  | none => exact .throw _
  | some policy =>
    dsimp only
    split_ifs <;> first | exact .inr ⟨_, rfl, rfl⟩ | exact .inl ⟨(), rfl, rfl⟩

theorem approves_parseAndVerify (parsers : Parsers) (store : PolicyStore) (statement : Statement)
    (identity : CallerIdentity) (signature : StatementSignature) (latest : Instant) :
    Approves VerifiedEndorsement.publisherId
      (EndorsementVerifier.parseAndVerify parsers store statement identity signature latest :
        Traced (Event ω) Exn VerifiedEndorsement) := by
  unfold EndorsementVerifier.parseAndVerify
  split_ifs
  · exact .throw _
  cases parsers.readValue statement.serialized with
  | error message => exact .throw _
  | ok inTotoStatement =>
    refine .quiet_bind fun predicate _ => .quiet_bind fun _ _ => ?_
    apply Approves.bind_pure _ fun _ => rfl
    unfold EndorsementVerifier.validatePublisherAndGetPublisherId
    cases publisherIdProviders parsers statement.format with
    | none => exact .throw _
    | some provider =>
      refine .quiet_bind fun found _ => ?_
      cases found with
      | none => exact .throw _
      | some publisherId =>
        exact (approves_verify store publisherId identity signature).bind_pure fun _ => rfl

open PublicEndorsementService

variable (ports : Ports ω) (e : Endorsement) (identity : CallerIdentity)

/-- A request that is refused may have had its publisher approved, but nothing is counted. -/
def Refuses (calls : List MetricsCall) : Prop :=
  calls = [] ∨ ∃ p, calls = [.approvePublisher (some p)]

theorem vet_metrics :
    (∃ mbcs v, (vet ports e identity).outcome = .ok (mbcs, v) ∧
      (vet ports e identity).trace.filterMap Event.metrics? =
        [.approvePublisher (some v.publisherId)]) ∨
    ∃ x, (vet ports e identity).outcome = .error x ∧
      Refuses ((vet ports e identity).trace.filterMap Event.metrics?) := by
  unfold vet
  split_ifs
  · exact .inr ⟨_, rfl, .inl rfl⟩
  cases ports.getActiveTrustPackage with
  | error x => exact .inr ⟨x, rfl, .inl rfl⟩
  | ok mbcs =>
    rw [Traced.quiet_ok_bind]
    cases getEarliestCertificateExpiry mbcs with
    | error x => exact .inr ⟨x, rfl, .inl rfl⟩
    | ok latest =>
      rw [Traced.quiet_ok_bind]
      rcases approves_parseAndVerify (ω := ω) ports.parsers ports.store e.statement identity
        e.statementSignature latest with ⟨v, hok, htrace⟩ | ⟨x, herror, htrace⟩
      · rw [Traced.bind_of_ok hok]
        cases SignatureVerifierImpl.verify ports.jca e.statementSignature
            e.statement.serialized with
        | error x =>
          refine .inr ⟨x, rfl, .inr ⟨v.publisherId, ?_⟩⟩
          rw [Traced.quiet_error_bind, Traced.throw_trace, List.append_nil, htrace]
        | ok u =>
          refine .inl ⟨mbcs, v, rfl, ?_⟩
          rw [Traced.quiet_ok_bind, Traced.pure_trace, List.append_nil, htrace]
      · rw [Traced.bind_of_error herror]
        exact .inr ⟨x, rfl, .inl htrace⟩

theorem signWithAll_metrics (data : Bytes) (mbcs : List MeasurementBoundCertificate) :
    (signWithAll ports data mbcs).trace.filterMap Event.metrics? = [] := by
  rw [List.filterMap_eq_nil_iff]
  apply Traced.forall_trace_mapM
  rintro ⟨mbc, n⟩ - ev hev
  simp only [Traced.mem_trace_bind, Traced.emit_trace, List.mem_singleton, Traced.embed_trace,
    List.mem_map] at hev
  rcases hev with rfl | ⟨-, -, x, -, rfl⟩
  · rfl
  · rfl

/-- An endorsement is counted when it is made, and not before. -/
theorem publish_metrics (mbcs : List MeasurementBoundCertificate) (v : VerifiedEndorsement) :
    (∃ result, (publish ports e mbcs v).outcome = .ok result ∧
      (publish ports e mbcs v).trace.filterMap Event.metrics? =
        [.incrementEndorsementCounter (some v.publisherId)]) ∨
    ∃ x, (publish ports e mbcs v).outcome = .error x ∧
      (publish ports e mbcs v).trace.filterMap Event.metrics? = [] := by
  have hinside : ∀ l : List ω, (l.map Event.inside).filterMap Event.metrics? = [] := by
    intro l
    simp [List.filterMap_map, Function.comp_def, Event.metrics?]
  unfold publish settle
  rw [Traced.bind_of_ok (Traced.emit_outcome _)]
  cases hpost : (ports.post (posted ports e)).outcome with
  | error x =>
    rw [Traced.bind_of_error ((Traced.embed_outcome _ _).trans hpost)]
    refine .inr ⟨x, rfl, ?_⟩
    rw [Traced.embed_trace, List.filterMap_append, hinside]
    rfl
  | ok receipt =>
    rw [Traced.bind_of_ok ((Traced.embed_outcome _ _).trans hpost)]
    cases hsign : (signWithAll ports (PreAuthenticationEncoding.calculate e.statement
        e.statementSignature receipt) mbcs).outcome with
    | error x =>
      rw [Traced.bind_of_error hsign]
      refine .inr ⟨x, rfl, ?_⟩
      rw [Traced.embed_trace, List.filterMap_append, List.filterMap_append, hinside,
        signWithAll_metrics]
      rfl
    | ok signatures =>
      rw [Traced.bind_of_ok hsign]
      refine .inl ⟨_, rfl, ?_⟩
      rw [Traced.embed_trace, List.filterMap_append, List.filterMap_append, List.filterMap_append,
        hinside, signWithAll_metrics]
      rfl

/-- A request is refused, or an endorsement is made and counted for the publisher it is from. -/
theorem createEndorsement_metrics :
    (∃ result mbcs p, (createEndorsement ports e identity).outcome = .ok result ∧
      Admissible ports e identity mbcs p ∧
      (createEndorsement ports e identity).trace.filterMap Event.metrics? =
        [.approvePublisher (some p), .incrementEndorsementCounter (some p)]) ∨
    ∃ x, (createEndorsement ports e identity).outcome = .error x ∧
      Refuses ((createEndorsement ports e identity).trace.filterMap Event.metrics?) := by
  rw [createEndorsement_eq]
  rcases vet_metrics ports e identity with ⟨mbcs, v, hok, htrace⟩ | ⟨x, herror, hrefuses⟩
  · rw [Traced.bind_of_ok hok, List.filterMap_append, htrace]
    rcases publish_metrics ports e mbcs v with ⟨result, hresult, hcounts⟩ | ⟨x, hx, hnone⟩
    · refine .inl ⟨result, mbcs, v.publisherId, hresult, (vet_iff ..).mp hok, ?_⟩
      rw [hcounts]
      rfl
    · refine .inr ⟨x, hx, .inr ⟨v.publisherId, ?_⟩⟩
      rw [hnone]
      rfl
  · rw [Traced.bind_of_error herror]
    exact .inr ⟨x, rfl, hrefuses⟩

end Programs

/-! ## Whole calls -/

structure ServedCall (Key : Type) where
  auth : JwtAuth Key
  startCall : CallContext → Except OidcExn Unit
  deployed : DeployedPorts
  authHeader : Option Utf16
  request : Proto.CreatePublicEndorsementRequest

namespace ServedCall

variable {Key : Type} (call : ServedCall Key) {publisherId : Utf16}

def trace : List ServerEvent :=
  (PesServer.serveCall call.auth call.startCall call.deployed call.authHeader call.request).trace

def metrics : List MetricsCall := call.trace.filterMap ServerEvent.metrics?

def EndorsedFor (publisherId : Utf16) : Prop :=
  .handler (.observer .onCompleted) ∈ call.trace ∧
    ∃ identity, PesServer.Starts call.auth call.startCall call.authHeader identity ∧
      ∃ mbcs, Admissible call.deployed.ports
        (EndorsementMapper.toDomain call.request.getPublicEndorsement) identity mbcs publisherId

theorem filterMap_metrics_handler (l : List HandlerEvent) :
    (l.map ServerEvent.handler).filterMap ServerEvent.metrics? =
      l.filterMap HandlerEvent.metrics? := by
  simp [List.filterMap_map, Function.comp_def, ServerEvent.metrics?]

theorem filterMap_metrics_interceptor (l : List CallEvent) :
    (l.map ServerEvent.interceptor).filterMap ServerEvent.metrics? = [] := by
  simp [List.filterMap_map, Function.comp_def, ServerEvent.metrics?]

theorem filterMap_metrics_service (l : List (Event LedgerEvent)) :
    (l.map HandlerEvent.service).filterMap HandlerEvent.metrics? = l.filterMap Event.metrics? := by
  simp [List.filterMap_map, Function.comp_def, HandlerEvent.metrics?]

/-- A reported exception neither counts nor completes. -/
theorem report_uncounted (x : Exn) :
    (PesGrpcHandler.report x).trace.filterMap HandlerEvent.metrics? = [] ∧
      .observer .onCompleted ∉ (PesGrpcHandler.report x).trace := by
  cases x <;> exact ⟨rfl, by simp [PesGrpcHandler.report, PesGrpcHandler.observe]⟩

open PesGrpcHandler PublicEndorsementService in
/-- The handler counts what it answers with an endorsement, and nothing else. -/
theorem createPublicEndorsement_metrics (deployed : DeployedPorts) (identity : CallerIdentity)
    (request : Proto.CreatePublicEndorsementRequest) :
    (∃ mbcs p, Admissible deployed.ports (EndorsementMapper.toDomain request.getPublicEndorsement)
        identity mbcs p ∧
      .observer .onCompleted ∈ (createPublicEndorsement deployed
        (JwtInterceptor.contextOf identity) request).trace ∧
      (createPublicEndorsement deployed (JwtInterceptor.contextOf identity)
        request).trace.filterMap HandlerEvent.metrics? =
          [.approvePublisher (some p), .incrementEndorsementCounter (some p)]) ∨
    .observer .onCompleted ∉ (createPublicEndorsement deployed
        (JwtInterceptor.contextOf identity) request).trace ∧
      Refuses ((createPublicEndorsement deployed (JwtInterceptor.contextOf identity)
        request).trace.filterMap HandlerEvent.metrics?) := by
  have hservice : ∀ l : List (Event LedgerEvent),
      .observer .onCompleted ∉ l.map HandlerEvent.service := by simp
  have hmetrics := createEndorsement_metrics deployed.ports
    (EndorsementMapper.toDomain request.getPublicEndorsement) identity
  rcases PesServer.createPublicEndorsement_cases deployed identity request with
    ⟨result, hok, h⟩ | ⟨x, herror, h⟩
  · rw [h, List.filterMap_append, filterMap_metrics_service]
    rcases hmetrics with ⟨-, mbcs, p, -, hadmissible, htrace⟩ | ⟨x, hx, -⟩
    · refine .inl ⟨mbcs, p, hadmissible, by simp, ?_⟩
      rw [htrace]
      rfl
    · rw [hok] at hx
      cases hx
  · rw [h, List.filterMap_append, filterMap_metrics_service, (report_uncounted x).1,
      List.append_nil]
    rcases hmetrics with ⟨result, -, -, hresult, -⟩ | ⟨-, -, hrefuses⟩
    · rw [herror] at hresult
      cases hresult
    · refine .inr ⟨?_, hrefuses⟩
      rw [List.mem_append, not_or]
      exact ⟨hservice _, (report_uncounted x).2⟩

/-- A call counts an endorsement if it has made one, for the publisher that it was made for. -/
theorem metrics_cases :
    (∃ p, call.EndorsedFor p ∧ call.metrics =
      [.approvePublisher (some p), .incrementEndorsementCounter (some p)]) ∨
    (∀ p, ¬ call.EndorsedFor p) ∧ Refuses call.metrics := by
  unfold metrics EndorsedFor trace
  rcases PesServer.serveCall_cases call.auth call.startCall call.deployed call.authHeader
    call.request with ⟨identity, hstarts, h⟩ | ⟨-, l, htrace, -⟩
  · rw [h, List.filterMap_append, filterMap_metrics_handler]
    rcases createPublicEndorsement_metrics call.deployed identity call.request with
      ⟨mbcs, p, hadmissible, hcompleted, hmetrics⟩ | ⟨hnot, hrefuses⟩
    · refine .inl ⟨p, ⟨?_, identity, hstarts, mbcs, hadmissible⟩, ?_⟩
      · exact List.mem_append_right _ (List.mem_map_of_mem hcompleted)
      · rw [hmetrics]
        rfl
    · refine .inr ⟨?_, hrefuses⟩
      rintro p ⟨hcompleted, -⟩
      simp [hnot] at hcompleted
  · rw [htrace, filterMap_metrics_interceptor]
    refine .inr ⟨?_, .inl rfl⟩
    rintro p ⟨hcompleted, -⟩
    simp at hcompleted

theorem EndorsedFor.unique {call : ServedCall Key} {p q : Utf16} (hp : call.EndorsedFor p)
    (hq : call.EndorsedFor q) : p = q := by
  obtain ⟨-, identity, hstarts, mbcs, hadmissible⟩ := hp
  obtain ⟨-, identity', hstarts', mbcs', hadmissible'⟩ := hq
  rw [hstarts.unique _ _ _ hstarts'] at hadmissible'
  have hvet := ((PublicEndorsementService.vet_iff _ _ _ mbcs ⟨p⟩).mpr hadmissible).symm.trans
    ((PublicEndorsementService.vet_iff _ _ _ mbcs' ⟨q⟩).mpr hadmissible')
  cases hvet
  rfl

theorem increment_mem_metrics {p : Utf16} :
    .incrementEndorsementCounter (some p) ∈ call.metrics ↔ call.EndorsedFor p := by
  rcases call.metrics_cases with ⟨q, hq, hmetrics⟩ | ⟨hnot, hnil | ⟨q, hone⟩⟩
  · rw [hmetrics]
    constructor
    · intro hmem
      obtain rfl : p = q := by simpa using hmem
      exact hq
    · intro hp
      rw [hp.unique hq]
      simp
  · simp [hnil, hnot p]
  · simp [hone, hnot p]

theorem metrics_shape :
    call.metrics = [] ∨ ∃ p, SystemMetrics.Counts p call.metrics := by
  rcases call.metrics_cases with ⟨p, -, hmetrics⟩ | ⟨-, hnil | ⟨p, hone⟩⟩
  · exact .inr ⟨p, .inr hmetrics⟩
  · exact .inl hnil
  · exact .inr ⟨p, .inl hone⟩

end ServedCall

/-! ## All calls of a server -/

namespace SystemMetrics

variable {Key ι : Type} [Fintype ι] (calls : ι → ServedCall Key) {m : SystemMetrics ι}

theorem coe_counted (p : Utf16) :
    (m.counted (fun c => (calls c).metrics) p : Set ι) =
      {c | (calls c).EndorsedFor p ∧ (m.thread c).calls = []} := by
  ext c
  simp only [counted, Finset.coe_filter, Finset.mem_univ, true_and, Set.mem_ofPred_eq,
    ServedCall.increment_mem_metrics]

theorem Counts.approves {call : ServedCall Key} {p : Utf16} (h : Counts p call.metrics) :
    .handler (.service (.approvePublisher p)) ∈ call.trace := by
  have hmem : .approvePublisher (some p) ∈ call.metrics := by
    rcases h with h | h
    · simp [h]
    · simp [h]
  obtain ⟨e, he, hevent⟩ := List.mem_filterMap.mp hmem
  rcases e with e | (e | e)
  · cases hevent
  · cases e with
    | approvePublisher q =>
      cases hevent
      exact he
    | _ => cases hevent
  · cases hevent

variable [DecidableEq ι]

/-- The calls of a server run at the same time, and the steps of `SystemMetrics` come in any
order. At any time there are at most ten labels, each of them for a publisher that a call has
approved, and a label counts endorsements that were made for its publisher, none of them twice.
When all calls are over it counts all of them, and an endorsement that is not counted was made when
the ten labels were taken. -/
theorem endorsements_counted (schedule : List ι)
    (hrun : system.run (create fun c => (calls c).metrics) schedule = some m) :
    m.approvedPublishers.length ≤ maxApprovedPublishers ∧
    (∀ p ∈ m.approvedPublishers,
      ∃ c, .handler (.service (.approvePublisher p)) ∈ (calls c).trace) ∧
    (∀ p, m.endorsementCounters p ≠ none → p ∈ m.approvedPublishers) ∧
    (∀ p, (m.endorsementCounters p).getD 0 ≤ Set.ncard {c | (calls c).EndorsedFor p}) ∧
    ((∀ c, (m.thread c).calls = []) →
      (∀ p ∈ m.approvedPublishers,
        (m.endorsementCounters p).getD 0 = Set.ncard {c | (calls c).EndorsedFor p}) ∧
      ∀ c p, (calls c).EndorsedFor p → p ∈ m.approvedPublishers ∨
        m.approvedPublishers.length = maxApprovedPublishers) := by
  have hsound := run_sound (fun c => (calls c).metrics_shape) hrun
  have hexact : ∀ p ∈ m.approvedPublishers, (m.endorsementCounters p).getD 0 =
      Set.ncard {c | (calls c).EndorsedFor p ∧ (m.thread c).calls = []} := by
    intro p hp
    rw [← coe_counted, Set.ncard_coe_finset]
    exact hsound.exact p hp
  refine ⟨hsound.limited, ?_, hsound.labels, ?_, ?_⟩
  · intro p hp
    obtain ⟨c, hcounts⟩ := hsound.sourced p hp
    exact ⟨c, hcounts.approves⟩
  · intro p
    by_cases hp : p ∈ m.approvedPublishers
    · rw [hexact p hp]
      exact Set.ncard_le_ncard fun c hc => hc.1
    · have hnone : m.endorsementCounters p = none := by
        by_contra hsome
        exact hp (hsound.labels p hsome)
      rw [hnone]
      exact Nat.zero_le _
  · intro hover
    refine ⟨?_, ?_⟩
    · intro p hp
      rw [hexact p hp]
      simp only [hover, and_true]
    · intro c p hendorsed
      have hmem := (calls c).increment_mem_metrics.mpr hendorsed
      refine (hsound.threads c).settled p (counts_of_mem (calls c).metrics_shape hmem) ?_
      rw [hover c]
      exact (List.ne_nil_of_mem hmem).symm

def demoCall : ServedCall Unit where
  auth := JwtInterceptor.demoAuth PesServer.demoClaims
  startCall _ := .ok ()
  deployed := PesGrpcHandler.demoDeployment
  authHeader := JwtInterceptor.demoHeader
  request := PesGrpcHandler.demoRequest

/-- Both calls look at the approved publishers before one of them has approved its own. -/
def demoSchedule : List Bool :=
  [false, true, true, false, true, false, true, false, true, false]

/-- Two calls of one publisher are counted, and both were answered with an endorsement. -/
theorem demo_endorsements_counted :
    ∃ m, system.run (create fun _ : Bool => demoCall.metrics) demoSchedule = some m ∧
      m.approvedPublishers = [text "p"] ∧
      m.endorsementCounters (text "p") = some 2 ∧
      Set.ncard {_c : Bool | demoCall.EndorsedFor (text "p")} = 2 := by
  have hend : (system.run (create fun _ : Bool => demoCall.metrics) demoSchedule).map
      (fun m => (m.approvedPublishers, m.endorsementCounters (text "p"), (m.thread false).calls,
        (m.thread true).calls)) = some ([text "p"], some 2, [], []) := by decide +kernel
  obtain ⟨m, hrun, hm⟩ := Option.map_eq_some_iff.mp hend
  obtain ⟨happroved, hcounter, hfalse, htrue⟩ :
      m.approvedPublishers = [text "p"] ∧ m.endorsementCounters (text "p") = some 2 ∧
        (m.thread false).calls = [] ∧ (m.thread true).calls = [] := by simpa using hm
  obtain ⟨-, -, -, -, hover⟩ := endorsements_counted (fun _ : Bool => demoCall) demoSchedule hrun
  have hexact := (hover (Bool.forall_bool.mpr ⟨hfalse, htrue⟩)).1 (text "p") (by simp [happroved])
  rw [hcounter] at hexact
  exact ⟨m, hrun, happroved, hcounter, hexact.symm⟩

end SystemMetrics
end PublicEndorsement.Pes
