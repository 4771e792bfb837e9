import PublicEndorsement.FailureAttribution
import PublicEndorsement.JwtInterceptor
import PublicEndorsement.KeyProvenance

/-!
# Calls as the server serves them

`PesServer` puts `JwtInterceptor` in front of `PesGrpcHandler`. The handler runs when the
client has sent its request, if the interceptor has returned the listener of the handler, and
in the context that the interceptor has attached to it. A listener that ignores the client is
returned for every call that is closed.

* `serveCall` is a whole call;
* `Authorised` says what has to hold for the ledger to be called: of the header, the token, the
  key, the identity, the policy and the request;
* the calls of a server share the key fetcher, so that the key may come from a set that another
  call has loaded.
-/

namespace PublicEndorsement.Pes

open Mbs Oidc

inductive ServerEvent where
  | interceptor (e : CallEvent)
  | handler (e : HandlerEvent)

inductive CallEnd where
  | closed (status : RpcStatus)
  | answered (o : ObserverEvent)

namespace ServerEvent

def post? : ServerEvent → Option Endorsement
  | .interceptor _ => none
  | .handler e => e.post?

def ended? : ServerEvent → Option CallEnd
  | .interceptor e => e.closed?.map .closed
  | .handler e => e.terminal?.map .answered

end ServerEvent

namespace PesServer

variable {Key : Type} (auth : JwtAuth Key) (startCall : CallContext → Except OidcExn Unit)
  (deployed : DeployedPorts)

open JwtInterceptor in
def listener (authHeader : Option Utf16) : Traced CallEvent OidcExn (Option CallContext) :=
  match bearerToken authHeader with
  | none => do
    close .unauthenticated (text "Missing or invalid Authorization header")
    count .failure
    pure none
  | some token =>
    tryCatch
      (do
        let identity ← Traced.quiet (OidcAudienceValidator.parseAndValidate auth token)
        count .success
        Traced.emit (.forward (contextOf identity))
        Traced.quiet (startCall (contextOf identity))
        pure (some (contextOf identity)))
      (fun e => do
        report e
        pure none)

def serveCall (authHeader : Option Utf16) (request : Proto.CreatePublicEndorsementRequest) :
    Traced ServerEvent OidcExn Unit := do
  match ← Traced.embed .interceptor (listener auth startCall authHeader) with
  | none => pure ()
  | some context =>
    Traced.embedWith .handler .base
      (PesGrpcHandler.createPublicEndorsement deployed context request)

structure Authorised (authHeader : Option Utf16) (request : Proto.CreatePublicEndorsementRequest)
    (kid : String) (key : Key) (claims : TokenClaims) (identity : CallerIdentity)
    (publisherId : Utf16) : Prop where
  token : ∃ token, authHeader = some (JwtInterceptor.bearer ++ token) ∧ AsksFor auth token kid ∧
    auth.jjwt.verify key token = .ok claims
  key : auth.getKey kid = .ok (some key)
  issuer : claims.issuer = some identity.issuer
  subject : claims.subject = some identity.subject
  audiences : OidcAudienceValidator.extractAudiences claims.audience = identity.audiences
  audience : ∃ name, OidcAudienceValidator.trustDomain auth = .ok name ∧
    ∃ audience ∈ identity.audiences, OidcAudienceValidator.OwnAudience auth.metadata name audience
  started : startCall (JwtInterceptor.contextOf identity) = .ok ()
  admissible : ∃ mbcs, Admissible deployed.ports
    (EndorsementMapper.toDomain request.getPublicEndorsement) identity mbcs publisherId

/-- The token of the call is valid, and the call is started for its identity. -/
def Starts (authHeader : Option Utf16) (identity : CallerIdentity) : Prop :=
  ∃ token, authHeader = some (JwtInterceptor.bearer ++ token) ∧
    OidcAudienceValidator.parseAndValidate auth token = .ok identity ∧
    startCall (JwtInterceptor.contextOf identity) = .ok ()

/-! ## The interceptor and its listener -/

section Listener

variable {auth} {authHeader : Option Utf16} {token : Utf16} {identity : CallerIdentity}

open JwtInterceptor

def declined (e : OidcExn) : Traced CallEvent OidcExn (Option CallContext) := do
  report e
  pure none

theorem listener_of_error {e : OidcExn} (htoken : bearerToken authHeader = some token)
    (he : OidcAudienceValidator.parseAndValidate auth token = .error e) :
    listener auth startCall authHeader = declined e := by
  simp only [listener, htoken, he, Traced.quiet_error_bind]
  rw [Traced.tryCatch_of_error (Traced.throw_outcome e)]
  rfl

/-- An authenticated call is started; if that fails, the interceptor catches it. -/
theorem listener_of_ok (htoken : bearerToken authHeader = some token)
    (hidentity : OidcAudienceValidator.parseAndValidate auth token = .ok identity) :
    listener auth startCall authHeader =
      match startCall (contextOf identity) with
      | .ok () => ⟨[.incrementAuthenticationCounter .success, .forward (contextOf identity)],
          .ok (some (contextOf identity))⟩
      | .error e => ⟨[.incrementAuthenticationCounter .success, .forward (contextOf identity)] ++
          (declined e).trace, (declined e).outcome⟩ := by
  simp only [listener, htoken, hidentity, Traced.quiet_ok_bind]
  cases startCall (contextOf identity) with
  | ok u => rfl
  | error e => rfl

theorem declined_discarded (e : OidcExn) : (declined e >>= fun _ => pure ()) = report e := by
  cases h : (report e).outcome with
  | ok u => ext1 <;> simp [declined, Traced.bind_of_ok, h]
  | error e' => ext1 <;> simp [declined, Traced.bind_of_error, h]

/-- The listener is what `interceptCall` returns, and changes nothing else about it. -/
theorem listener_discarded (authHeader : Option Utf16) :
    (listener auth startCall authHeader >>= fun _ => pure ()) =
      interceptCall auth startCall authHeader := by
  cases htoken : bearerToken authHeader with
  | none =>
    simp only [listener, interceptCall, htoken]
    rfl
  | some token =>
    cases hidentity : OidcAudienceValidator.parseAndValidate auth token with
    | error e =>
      rw [listener_of_error startCall htoken hidentity, declined_discarded,
        interceptCall_of_error startCall htoken hidentity]
    | ok identity =>
      rw [listener_of_ok startCall htoken hidentity, interceptCall_of_ok startCall htoken hidentity]
      cases hstart : startCall (contextOf identity) with
      | ok u => rfl
      | error e =>
        change Traced.mk (_ ++ (declined e).trace) (declined e).outcome >>= _ = _
        rw [Traced.append_bind, declined_discarded]

/-- After an exception the call was closed once, or the exception goes on and it was not. -/
theorem declined_cases (e : OidcExn) :
    ((declined e).outcome = .ok none ∧
      ∃ status, (declined e).trace.filterMap CallEvent.closed? = [status]) ∨
    ∃ e', (declined e).outcome = .error e' ∧
      (declined e).trace.filterMap CallEvent.closed? = [] := by
  by_cases hcaught : e.IsCaught
  · obtain ⟨hreturns, ⟨status, hclosed, -⟩, -⟩ := closedOnce_report hcaught
    rw [declined, Traced.bind_of_ok hreturns]
    exact .inl ⟨rfl, status, by simpa using hclosed⟩
  · rw [declined, report_of_not_isCaught hcaught]
    exact .inr ⟨e, rfl, rfl⟩

theorem starts_iff (htoken : bearerToken authHeader = some token) :
    Starts auth startCall authHeader identity ↔
      OidcAudienceValidator.parseAndValidate auth token = .ok identity ∧
        startCall (contextOf identity) = .ok () := by
  constructor
  · rintro ⟨token', hheader, hidentity, hstart⟩
    obtain rfl : token = token' :=
      Option.some_injective _ (htoken.symm.trans (bearerToken_eq_some.mpr hheader))
    exact ⟨hidentity, hstart⟩
  · rintro ⟨hidentity, hstart⟩
    exact ⟨token, bearerToken_eq_some.mp htoken, hidentity, hstart⟩

/-- The interceptor starts an authenticated call, closes a call, or throws. -/
theorem listener_cases (authHeader : Option Utf16) :
    (∃ identity, Starts auth startCall authHeader identity ∧ listener auth startCall authHeader =
      ⟨[.incrementAuthenticationCounter .success, .forward (contextOf identity)],
        .ok (some (contextOf identity))⟩) ∨
    (¬ ∃ identity, Starts auth startCall authHeader identity) ∧
      (((listener auth startCall authHeader).outcome = .ok none ∧ ∃ status,
          (listener auth startCall authHeader).trace.filterMap CallEvent.closed? = [status]) ∨
        ∃ e, (listener auth startCall authHeader).outcome = .error e ∧
          (listener auth startCall authHeader).trace.filterMap CallEvent.closed? = []) := by
  cases htoken : bearerToken authHeader with
  | none =>
    refine .inr ⟨?_, .inl ?_⟩
    · rintro ⟨identity, token, hheader, -⟩
      rw [bearerToken_eq_some.mpr hheader] at htoken
      cases htoken
    · simp only [listener, htoken]
      exact ⟨rfl, .unauthenticated, rfl⟩
  | some token =>
    cases hidentity : OidcAudienceValidator.parseAndValidate auth token with
    | error e =>
      rw [listener_of_error startCall htoken hidentity]
      refine .inr ⟨?_, declined_cases e⟩
      rintro ⟨identity, hstarts⟩
      rw [((starts_iff startCall htoken).mp hstarts).1] at hidentity
      cases hidentity
    | ok identity =>
      rw [listener_of_ok startCall htoken hidentity]
      cases hstart : startCall (contextOf identity) with
      | ok u => exact .inl ⟨identity, (starts_iff startCall htoken).mpr ⟨hidentity, hstart⟩, rfl⟩
      | error e =>
        right
        rw [List.filterMap_append]
        refine ⟨?_, declined_cases e⟩
        rintro ⟨identity', hstarts⟩
        obtain ⟨hidentity', hstart'⟩ := (starts_iff startCall htoken).mp hstarts
        rw [hidentity] at hidentity'
        cases hidentity'
        rw [hstart] at hstart'
        cases hstart'

end Listener

/-! ## The handler -/

section Handler

open PesGrpcHandler PublicEndorsementService

variable (identity : CallerIdentity) (request : Proto.CreatePublicEndorsementRequest)

/-- The service either refuses a request before the ledger is called, or calls it once. -/
theorem createEndorsement_posts {ω : Type} (ports : Ports ω) (e : Endorsement) :
    ((createEndorsement ports e identity).trace.filterMap Event.post? = [] ∧
        (¬ ∃ mbcs publisherId, Admissible ports e identity mbcs publisherId) ∧
        ∃ x, (createEndorsement ports e identity).outcome = .error x) ∨
      (createEndorsement ports e identity).trace.filterMap Event.post? = [posted ports e] ∧
        ∃ mbcs publisherId, Admissible ports e identity mbcs publisherId := by
  have hquiet := vet_filterMap ports e identity (f := Event.post?) (fun _ => rfl)
  rw [createEndorsement_eq]
  cases hvet : (vet ports e identity).outcome with
  | error x =>
    left
    rw [Traced.bind_of_error hvet]
    refine ⟨hquiet, ?_, x, rfl⟩
    rintro ⟨mbcs, publisherId, hadmissible⟩
    rw [(vet_iff ports e identity mbcs ⟨publisherId⟩).mpr hadmissible] at hvet
    cases hvet
  | ok r =>
    right
    rw [Traced.bind_of_ok hvet, List.filterMap_append, hquiet, publish_posts]
    exact ⟨rfl, r.1, r.2.publisherId, (vet_iff ports e identity r.1 r.2).mp hvet⟩

/-- A call of an identified caller: what the service does, and the answer or the report. -/
theorem createPublicEndorsement_cases :
    (∃ result, (createEndorsement deployed.ports
        (EndorsementMapper.toDomain request.getPublicEndorsement) identity).outcome = .ok result ∧
      createPublicEndorsement deployed (JwtInterceptor.contextOf identity) request =
      ⟨(createEndorsement deployed.ports (EndorsementMapper.toDomain request.getPublicEndorsement)
          identity).trace.map .service ++
        [.observer (.onNext (EndorsementMapper.toProto result)), .observer .onCompleted],
        .ok ()⟩) ∨
    ∃ x, (createEndorsement deployed.ports
        (EndorsementMapper.toDomain request.getPublicEndorsement) identity).outcome = .error x ∧
      createPublicEndorsement deployed (JwtInterceptor.contextOf identity) request =
      ⟨(createEndorsement deployed.ports (EndorsementMapper.toDomain request.getPublicEndorsement)
          identity).trace.map .service ++ (report x).trace, (report x).outcome⟩ := by
  simp only [createPublicEndorsement, JwtInterceptor.contextOf, create_of_identity,
    Traced.quiet_ok_bind]
  cases hrun : (createEndorsement deployed.ports
      (EndorsementMapper.toDomain request.getPublicEndorsement) identity).outcome with
  | ok result =>
    left
    rw [Traced.bind_of_ok (by rw [Traced.embed_outcome, hrun]), Traced.tryCatch_of_ok rfl]
    exact ⟨result, rfl, rfl⟩
  | error x =>
    right
    rw [Traced.bind_of_error (by rw [Traced.embed_outcome, hrun]), Traced.tryCatch_of_error rfl]
    exact ⟨x, rfl, rfl⟩

theorem createPublicEndorsement_posts :
    (createPublicEndorsement deployed (JwtInterceptor.contextOf identity) request).trace.filterMap
        HandlerEvent.post? =
      (createEndorsement deployed.ports (EndorsementMapper.toDomain request.getPublicEndorsement)
        identity).trace.filterMap Event.post? := by
  rcases createPublicEndorsement_cases deployed identity request with ⟨result, -, h⟩ | ⟨x, -, h⟩
  · rw [h, List.filterMap_append, filterMap_post_service]
    exact List.append_nil _
  · rw [h, List.filterMap_append, filterMap_post_service, report_posts, List.append_nil]

/-- A reported exception ends the call, any other one goes on. -/
theorem report_ends (x : Exn) :
    (∃ code description, (report x).trace.filterMap HandlerEvent.terminal? =
      [.onError code description] ∧ (report x).outcome = .ok ()) ∨
    (report x).trace.filterMap HandlerEvent.terminal? = [] ∧ (report x).outcome = .error x := by
  cases x with
  | pesSignature message => exact .inr ⟨rfl, rfl⟩
  | nullPointer => exact .inr ⟨rfl, rfl⟩
  | other message => exact .inr ⟨rfl, rfl⟩
  | _ => exact .inl ⟨_, _, rfl, rfl⟩

/-- The handler ends the call once, or throws without having ended it; it answers with an
endorsement only if the ledger was called. -/
theorem createPublicEndorsement_ends :
    (∃ o, (createPublicEndorsement deployed (JwtInterceptor.contextOf identity)
        request).trace.filterMap HandlerEvent.terminal? = [o] ∧
      (createPublicEndorsement deployed (JwtInterceptor.contextOf identity) request).outcome =
        .ok () ∧
      (o = .onCompleted → ∃ posted, (createEndorsement deployed.ports (EndorsementMapper.toDomain
        request.getPublicEndorsement) identity).trace.filterMap Event.post? = [posted])) ∨
    ∃ x, (createPublicEndorsement deployed (JwtInterceptor.contextOf identity)
        request).trace.filterMap HandlerEvent.terminal? = [] ∧
      (createPublicEndorsement deployed (JwtInterceptor.contextOf identity) request).outcome =
        .error x := by
  rcases createPublicEndorsement_cases deployed identity request with ⟨result, hresult, h⟩ |
    ⟨x, -, h⟩
  · left
    rw [h, List.filterMap_append, filterMap_terminal_service]
    refine ⟨.onCompleted, rfl, rfl, fun _ => ?_⟩
    rcases createEndorsement_posts identity deployed.ports
      (EndorsementMapper.toDomain request.getPublicEndorsement) with ⟨-, -, x, hfailed⟩ |
      ⟨hposts, -⟩
    · rw [hresult] at hfailed
      cases hfailed
    · exact ⟨_, hposts⟩
  · rw [h, List.filterMap_append, filterMap_terminal_service, List.nil_append]
    rcases report_ends x with ⟨code, description, hterminal, hout⟩ | ⟨hterminal, hout⟩
    · exact .inl ⟨_, hterminal, hout, by rintro ⟨⟩⟩
    · exact .inr ⟨x, hterminal, hout⟩

end Handler

/-! ## Whole calls -/

section Calls

variable (authHeader : Option Utf16) (request : Proto.CreatePublicEndorsementRequest)

theorem filterMap_post_interceptor (l : List CallEvent) :
    (l.map ServerEvent.interceptor).filterMap ServerEvent.post? = [] := by
  simp [List.filterMap_map, Function.comp_def, ServerEvent.post?]

theorem filterMap_post_handler (l : List HandlerEvent) :
    (l.map ServerEvent.handler).filterMap ServerEvent.post? = l.filterMap HandlerEvent.post? := by
  simp [List.filterMap_map, Function.comp_def, ServerEvent.post?]

theorem filterMap_ended_interceptor (l : List CallEvent) :
    (l.map ServerEvent.interceptor).filterMap ServerEvent.ended? =
      (l.filterMap CallEvent.closed?).map .closed := by
  simp [List.filterMap_map, List.map_filterMap, Function.comp_def, ServerEvent.ended?]

theorem filterMap_ended_handler (l : List HandlerEvent) :
    (l.map ServerEvent.handler).filterMap ServerEvent.ended? =
      (l.filterMap HandlerEvent.terminal?).map .answered := by
  simp [List.filterMap_map, List.map_filterMap, Function.comp_def, ServerEvent.ended?]

/-- A call gets to the handler with an authenticated identity, or is served by the interceptor
alone. -/
theorem serveCall_cases :
    (∃ identity, Starts auth startCall authHeader identity ∧
      serveCall auth startCall deployed authHeader request =
        ⟨[.interceptor (.incrementAuthenticationCounter .success),
            .interceptor (.forward (JwtInterceptor.contextOf identity))] ++
          (PesGrpcHandler.createPublicEndorsement deployed (JwtInterceptor.contextOf identity)
            request).trace.map .handler,
          (PesGrpcHandler.createPublicEndorsement deployed (JwtInterceptor.contextOf identity)
            request).outcome.mapError .base⟩) ∨
    (¬ ∃ identity, Starts auth startCall authHeader identity) ∧
      ∃ l : List CallEvent,
        (serveCall auth startCall deployed authHeader request).trace = l.map .interceptor ∧
        ((∃ status, l.filterMap CallEvent.closed? = [status] ∧
            (serveCall auth startCall deployed authHeader request).outcome = .ok ()) ∨
          ∃ e, l.filterMap CallEvent.closed? = [] ∧
            (serveCall auth startCall deployed authHeader request).outcome = .error e) := by
  unfold serveCall
  rcases listener_cases startCall authHeader with ⟨identity, hstarts, hlistener⟩ |
    ⟨hnot, ⟨hout, status, hclosed⟩ | ⟨e, hout, hopen⟩⟩
  · left
    refine ⟨identity, hstarts, ?_⟩
    rw [hlistener, Traced.bind_of_ok (Traced.embed_outcome _ _)]
    rfl
  · right
    rw [Traced.bind_of_ok ((Traced.embed_outcome _ _).trans hout)]
    exact ⟨hnot, _, List.append_nil _, .inl ⟨status, hclosed, rfl⟩⟩
  · right
    rw [Traced.bind_of_error ((Traced.embed_outcome _ _).trans hout)]
    exact ⟨hnot, _, rfl, .inr ⟨e, hopen, rfl⟩⟩

/-- A call that returns was ended once, by the interceptor or by the handler; a call that an
exception leaves was not ended by either. What is answered with an endorsement has been posted
to the ledger, once, and what the interceptor closes has not. -/
theorem call_ended_once :
    (∃ e, (serveCall auth startCall deployed authHeader request).trace.filterMap
        ServerEvent.ended? = [e] ∧
      (serveCall auth startCall deployed authHeader request).outcome = .ok () ∧
      (e = .answered .onCompleted → ∃ posted, (serveCall auth startCall deployed authHeader
        request).trace.filterMap ServerEvent.post? = [posted]) ∧
      ∀ status, e = .closed status → (serveCall auth startCall deployed authHeader
        request).trace.filterMap ServerEvent.post? = []) ∨
    ∃ x, (serveCall auth startCall deployed authHeader request).trace.filterMap
        ServerEvent.ended? = [] ∧
      (serveCall auth startCall deployed authHeader request).outcome = .error x := by
  rcases serveCall_cases auth startCall deployed authHeader request with
    ⟨identity, -, h⟩ | ⟨-, l, htrace, hends⟩
  · rw [h, List.filterMap_append, List.filterMap_append, filterMap_ended_handler,
      filterMap_post_handler, createPublicEndorsement_posts]
    rcases createPublicEndorsement_ends deployed identity request with ⟨o, hterminal, hout, hok⟩ |
      ⟨x, hterminal, hout⟩
    · rw [hterminal, hout]
      refine .inl ⟨.answered o, rfl, rfl, ?_, by rintro status ⟨⟩⟩
      rintro ⟨⟩
      exact hok rfl
    · rw [hterminal, hout]
      exact .inr ⟨.base x, rfl, rfl⟩
  · rw [htrace, filterMap_ended_interceptor, filterMap_post_interceptor]
    rcases hends with ⟨status, hclosed, hout⟩ | ⟨e, hopen, hout⟩
    · rw [hclosed]
      exact .inl ⟨.closed status, rfl, hout, by rintro ⟨⟩, fun _ _ => rfl⟩
    · rw [hopen]
      exact .inr ⟨e, rfl, hout⟩

/-- A validated token belongs to an identity exactly when the key it asks for verifies it. -/
theorem parseAndValidate_iff {token : Utf16} {identity : CallerIdentity} :
    OidcAudienceValidator.parseAndValidate auth token = .ok identity ↔
      ∃ kid key claims, AsksFor auth token kid ∧ auth.getKey kid = .ok (some key) ∧
        auth.jjwt.verify key token = .ok claims ∧ claims.issuer = some identity.issuer ∧
        claims.subject = some identity.subject ∧
        OidcAudienceValidator.extractAudiences claims.audience = identity.audiences ∧
        ∃ name, OidcAudienceValidator.trustDomain auth = .ok name ∧
          ∃ audience ∈ identity.audiences,
            OidcAudienceValidator.OwnAudience auth.metadata name audience := by
  simp only [OidcAudienceValidator.parseAndValidate, except_bind_eq_ok,
    OidcAudienceValidator.parseBearerToken_eq_ok]
  constructor
  · rintro ⟨identity', ⟨claims, ⟨kid, key, hasks, hkey, hverify⟩, hissuer, hsubject,
      haudiences⟩, _, hvalid, hidentity⟩
    cases hidentity
    exact ⟨kid, key, claims, hasks, hkey, hverify, hissuer, hsubject, haudiences,
      (OidcAudienceValidator.validateAudience_eq_ok _ _ _).mp hvalid⟩
  · rintro ⟨kid, key, claims, hasks, hkey, hverify, hissuer, hsubject, haudiences, hown⟩
    exact ⟨identity, ⟨claims, ⟨kid, key, hasks, hkey, hverify⟩, hissuer, hsubject, haudiences⟩,
      (), (OidcAudienceValidator.validateAudience_eq_ok _ _ _).mpr hown, rfl⟩

/-- What a call is authorised by, in the order in which it is checked. -/
theorem exists_authorised_iff :
    (∃ kid key claims identity publisherId, Authorised auth startCall deployed authHeader request
        kid key claims identity publisherId) ↔
      ∃ identity, Starts auth startCall authHeader identity ∧ ∃ mbcs publisherId,
        Admissible deployed.ports (EndorsementMapper.toDomain request.getPublicEndorsement)
          identity mbcs publisherId := by
  constructor
  · rintro ⟨kid, key, claims, identity, publisherId, h⟩
    obtain ⟨token, hheader, hasks, hverify⟩ := h.token
    obtain ⟨mbcs, hadmissible⟩ := h.admissible
    refine ⟨identity, ⟨token, hheader, ?_, h.started⟩, mbcs, publisherId, hadmissible⟩
    exact (parseAndValidate_iff auth).mpr ⟨kid, key, claims, hasks, h.key, hverify, h.issuer,
      h.subject, h.audiences, h.audience⟩
  · rintro ⟨identity, ⟨token, hheader, hidentity, hstart⟩, mbcs, publisherId, hadmissible⟩
    obtain ⟨kid, key, claims, hasks, hkey, hverify, hissuer, hsubject, haudiences, haudience⟩ :=
      (parseAndValidate_iff auth).mp hidentity
    exact ⟨kid, key, claims, identity, publisherId, ⟨token, hheader, hasks, hverify⟩, hkey,
      hissuer, hsubject, haudiences, haudience, hstart, mbcs, hadmissible⟩

theorem Starts.unique {identity identity' : CallerIdentity}
    (h : Starts auth startCall authHeader identity)
    (h' : Starts auth startCall authHeader identity') : identity' = identity := by
  obtain ⟨token, hheader, hidentity, -⟩ := h
  have hstarts := (starts_iff startCall (JwtInterceptor.bearerToken_eq_some.mpr hheader)).mp h'
  exact Except.ok.inj (hstarts.1.symm.trans hidentity)

/-- A call reaches the ledger once if it is authorised, and not at all otherwise. -/
theorem serveCall_posts :
    (serveCall auth startCall deployed authHeader request).trace.filterMap ServerEvent.post? = [] ∧
        (¬ ∃ kid key claims identity publisherId, Authorised auth startCall deployed authHeader
          request kid key claims identity publisherId) ∨
      (∃ posted, (serveCall auth startCall deployed authHeader request).trace.filterMap
          ServerEvent.post? = [posted]) ∧
        ∃ kid key claims identity publisherId, Authorised auth startCall deployed authHeader
          request kid key claims identity publisherId := by
  rw [exists_authorised_iff]
  rcases serveCall_cases auth startCall deployed authHeader request with
    ⟨identity, hstarts, h⟩ | ⟨hnot, l, htrace, -⟩
  · rw [h, List.filterMap_append, filterMap_post_handler, createPublicEndorsement_posts]
    rcases createEndorsement_posts identity deployed.ports
      (EndorsementMapper.toDomain request.getPublicEndorsement) with ⟨hposts, hrefused, -⟩ |
      ⟨hposts, hadmissible⟩
    · left
      rw [hposts]
      refine ⟨rfl, ?_⟩
      rintro ⟨identity', hstarts', hadmissible⟩
      rw [hstarts.unique _ _ _ hstarts'] at hadmissible
      exact hrefused hadmissible
    · right
      rw [hposts]
      exact ⟨⟨_, rfl⟩, identity, hstarts, hadmissible⟩
  · left
    rw [htrace, filterMap_post_interceptor]
    refine ⟨rfl, ?_⟩
    rintro ⟨identity, hstarts, -⟩
    exact hnot ⟨identity, hstarts⟩

end Calls

/-! ## Calls that share the key fetcher -/

/-- The fetcher has answered call `c`, which has the header: what `auth` holds for the key id
that its token asks for is the answer. -/
def AnsweredBy {ι : Type} (keyIds : ι → String) (s : Fetcher ι Key) (c : ι)
    (authHeader : Option Utf16) : Prop :=
  ∀ token kid, authHeader = some (JwtInterceptor.bearer ++ token) → AsksFor auth token kid →
    kid = keyIds c ∧ s.phase c = .done (.ofExcept (auth.getKey kid))

/-- Any number of calls are served at the same time and share the key fetcher. A call reaches the
ledger at most once, and reaches it exactly if it is authorised: by a token that verifies under a
key of a set which the call has loaded itself, or which was the last one delivered and could
still be kept when the call read it. -/
theorem ledger_called_iff_authorised {ι : Type} [DecidableEq ι] (keyIds : ι → String) (start : ℕ)
    (actions : List (FetcherAction ι Key)) (s : Fetcher ι Key)
    (hrun : (Fetcher.system keyIds).run (.create start) actions = some s) (c : ι)
    (authHeader : Option Utf16) (request : Proto.CreatePublicEndorsementRequest)
    (hanswered : AnsweredBy auth keyIds s c authHeader) :
    ((serveCall auth startCall deployed authHeader request).trace.filterMap
        ServerEvent.post?).length ≤ 1 ∧
    ((serveCall auth startCall deployed authHeader request).trace.filterMap
        ServerEvent.post? ≠ [] ↔
      ∃ kid key claims identity publisherId, Authorised auth startCall deployed authHeader request
          kid key claims identity publisherId ∧ Fetcher.TookFresh keyIds start actions c key) := by
  rcases serveCall_posts auth startCall deployed authHeader request with ⟨hposts, hnot⟩ |
    ⟨⟨posted, hposts⟩, kid, key, claims, identity, publisherId, hauthorised⟩
  · rw [hposts]
    refine ⟨Nat.zero_le _, fun h => absurd rfl h, ?_⟩
    rintro ⟨kid, key, claims, identity, publisherId, hauthorised, -⟩
    exact absurd ⟨kid, key, claims, identity, publisherId, hauthorised⟩ hnot
  · rw [hposts]
    refine ⟨le_rfl, ?_, fun _ => List.cons_ne_nil _ _⟩
    intro _
    refine ⟨kid, key, claims, identity, publisherId, hauthorised, ?_⟩
    obtain ⟨token, hheader, hasks, -⟩ := hauthorised.token
    have hphase := (hanswered token kid hheader hasks).2
    rw [hauthorised.key] at hphase
    have hjustified := (Fetcher.sourced_of_run hrun).phase c
    rw [hphase] at hjustified
    exact hjustified

def demoClaims : TokenClaims where
  issuer := some [105]
  subject := some [115]
  audience := .string (text "https://pes.dev.example.com")

def demoActions : List (FetcherAction Bool Unit) :=
  [.get false, .loaded (some ⟨[("k", ())], 3600⟩), .tick 1000, .get true]

/-- One call has loaded the keys, and another one reaches the ledger with one of them. -/
theorem demo_ledger_called_iff_authorised :
    ∃ kid key claims identity publisherId,
      Authorised (JwtInterceptor.demoAuth demoClaims) (fun _ => .ok ())
        PesGrpcHandler.demoDeployment JwtInterceptor.demoHeader PesGrpcHandler.demoRequest kid key
        claims identity publisherId ∧
      Fetcher.TookFresh (fun _ => "k") 0 demoActions true key := by
  refine (ledger_called_iff_authorised (JwtInterceptor.demoAuth demoClaims) (fun _ => .ok ())
    PesGrpcHandler.demoDeployment (fun _ => "k") 0 demoActions _ rfl true JwtInterceptor.demoHeader
    PesGrpcHandler.demoRequest ?_).2.mp (List.isEmpty_eq_false_iff.mp (by decide +kernel))
  rintro token kid - hasks
  cases hasks
  exact ⟨rfl, rfl⟩

end PesServer
end PublicEndorsement.Pes
