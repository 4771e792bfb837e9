import PublicEndorsement.AudienceValidation
import PublicEndorsement.EndorsementAdapters

/-!
# The JWT interceptor

`JwtInterceptor.interceptCall` with everything it calls: jjwt asks the key locator for the
key of a token, the locator asks the key fetcher, the claims make up the identity of the
caller, and their audience is validated. Four classes of exceptions are caught.

* `DecidesOnce` says that a call is forwarded once, with a verified and validated identity,
  or closed once;
* `Handled` says what the collaborators must not do for that;
* `decidesOnce_iff` says that nothing more and nothing less is needed.
-/

namespace PublicEndorsement.Pes

open Mbs Oidc

/-! ## The token -/

/-- The `aud` claim as jjwt gives it; an item of a collection that is not a text is `none`. -/
inductive AudienceClaim where
  | null
  | string (audience : Utf16)
  | collection (items : List (Option Utf16))
  | other
  deriving DecidableEq, Repr

structure TokenClaims where
  issuer : Option Utf16
  subject : Option Utf16
  audience : AudienceClaim
  deriving DecidableEq, Repr

inductive TokenHeader where
  | jws (algorithm keyId : Option String)
  | other
  deriving DecidableEq, Repr

/-- jjwt refuses a token with a `JwtException`, or with an `IllegalArgumentException` if it
is blank. -/
inductive JjwtFailure where
  | jwt (message : Utf16)
  | illegalArgument (message : Utf16)
  deriving DecidableEq, Repr

def JjwtFailure.toExn : JjwtFailure → OidcExn
  | .jwt message => .jwt message
  | .illegalArgument message => .base (.illegalArgument message)

/-- The parser of jjwt before and after it asks for the key. -/
structure Jjwt (Key : Type) where
  parseHeader : Utf16 → Except JjwtFailure TokenHeader
  verify : Key → Utf16 → Except JjwtFailure TokenClaims

structure JwtAuth (Key : Type) where
  jjwt : Jjwt Key
  getKey : String → Except OidcExn (Option Key)
  metadata : AwsInstanceMetadata
  getSubjectAlternativeNames : SanReader
  getActiveTrustPackage : Except Exn (List MeasurementBoundCertificate)

variable {Key : Type}

/-- The key fetcher of `PesModule`, for a call that finds `entry` in its cache. -/
def JwtAuth.withFetcher (auth : JwtAuth Key) (lib : KeyLibrary Key) (time : ℕ)
    (firstExchange secondExchange : JwksExchange) (entry : Option (CacheEntry Key)) : JwtAuth Key :=
  { auth with
    getKey := fun keyId => fetchKey lib ⟨time, keyId, firstExchange, secondExchange⟩ entry }

namespace OidcJwksKeyLocator

def expectedAlg : String := "RS256"

def locate (auth : JwtAuth Key) : TokenHeader → Except OidcExn (Option Key)
  | .other => .ok none
  | .jws algorithm keyId =>
    if algorithm ≠ some expectedAlg then .ok none
    else match keyId with
      | none => .ok none
      | some kid => auth.getKey kid

end OidcJwksKeyLocator

namespace OidcAudienceValidator

variable (auth : JwtAuth Key)

/-- `parseClaimsJws`; without a key the token is unsupported. -/
def parseClaimsJws (token : Utf16) : Except OidcExn TokenClaims := do
  let header ← (auth.jjwt.parseHeader token).mapError JjwtFailure.toExn
  match ← OidcJwksKeyLocator.locate auth header with
  | none => .error (.jwt (text "Cannot verify JWS signature"))
  | some key => (auth.jjwt.verify key token).mapError JjwtFailure.toExn

def extractAudiences : AudienceClaim → List Utf16
  | .null => []
  | .string audience => [audience]
  | .collection items => items.filterMap id
  | .other => []

def newCallerIdentity (issuer subject : Option Utf16) (audiences : List Utf16) :
    Except Exn CallerIdentity :=
  match issuer, subject with
  | some issuer, some subject => CallerIdentity.create issuer subject audiences
  | _, _ => .error .nullPointer

def parseBearerToken (token : Utf16) : Except OidcExn CallerIdentity := do
  let claims ← parseClaimsJws auth token
  (newCallerIdentity claims.issuer claims.subject (extractAudiences claims.audience)).mapError .base

def trustDomain : Except OidcExn Utf16 :=
  resolveTrustDomain auth.getSubjectAlternativeNames auth.getActiveTrustPackage

def parseAndValidate (token : Utf16) : Except OidcExn CallerIdentity := do
  let identity ← parseBearerToken auth token
  validateAudience auth.metadata (trustDomain auth) identity.audiences
  pure identity

end OidcAudienceValidator

/-! ## The interceptor -/

inductive RpcStatus where
  | ok
  | unauthenticated
  | permissionDenied
  | unavailable
  | invalidArgument
  deriving DecidableEq, Repr

inductive AuthenticationStatus where
  | success
  | failure
  deriving DecidableEq, Repr

inductive CallEvent where
  | close (status : RpcStatus) (description : Utf16)
  | incrementAuthenticationCounter (status : AuthenticationStatus)
  | forward (context : CallContext)

namespace JwtInterceptor

variable (auth : JwtAuth Key) (startCall : CallContext → Except OidcExn Unit)

def bearer : Utf16 := text "Bearer "

def bearerToken (authHeader : Option Utf16) : Option Utf16 :=
  match authHeader with
  | some header => if bearer.isPrefixOf header then some (header.drop bearer.length) else none
  | none => none

def close (status : RpcStatus) (description : Utf16) : Traced CallEvent OidcExn Unit :=
  Traced.emit (.close status description)

def count (status : AuthenticationStatus) : Traced CallEvent OidcExn Unit :=
  Traced.emit (.incrementAuthenticationCounter status)

/-- The catch clauses; any other exception leaves the interceptor. -/
def report : OidcExn → Traced CallEvent OidcExn Unit
  | .jwt _ => do
    close .unauthenticated (text "Failed to parse JWT token")
    count .failure
  | .audienceValidation message => do
    count .failure
    close .permissionDenied message
  | .base (.illegalState message) => close .unavailable (text "Service not ready: " ++ message)
  | .base (.illegalArgument message) => do
    count .failure
    close .invalidArgument message
  | e => throw e

def contextOf (identity : CallerIdentity) : CallContext :=
  ⟨some identity.issuer, some identity.subject, some identity.audiences⟩

def interceptCall (authHeader : Option Utf16) : Traced CallEvent OidcExn Unit :=
  match bearerToken authHeader with
  | none => do
    close .unauthenticated (text "Missing or invalid Authorization header")
    count .failure
  | some token =>
    tryCatch
      (do
        let identity ← Traced.quiet (OidcAudienceValidator.parseAndValidate auth token)
        count .success
        Traced.emit (.forward (contextOf identity))
        Traced.quiet (startCall (contextOf identity)))
      report

end JwtInterceptor

/-! ## Deciding a call -/

def Oidc.OidcExn.IsCaught : OidcExn → Prop
  | .jwt _ | .audienceValidation _ | .base (.illegalState _) | .base (.illegalArgument _) => True
  | _ => False

def AsksFor (auth : JwtAuth Key) (token : Utf16) (kid : String) : Prop :=
  auth.jjwt.parseHeader token = .ok (.jws (some OidcJwksKeyLocator.expectedAlg) (some kid))

def TokenVerified (auth : JwtAuth Key) (token : Utf16) (claims : TokenClaims) : Prop :=
  ∃ kid key, AsksFor auth token kid ∧ auth.getKey kid = .ok (some key) ∧
    auth.jjwt.verify key token = .ok claims

def Identifies (claims : TokenClaims) (issuer subject : Utf16) : Prop :=
  claims.issuer = some issuer ∧ claims.subject = some subject ∧ isBlank issuer = false ∧
    isBlank subject = false

open OidcAudienceValidator in
/-- The context holds the claims of a verified token that was minted for the deployment. -/
def Authenticated (auth : JwtAuth Key) (token : Utf16) (context : CallContext) : Prop :=
  ∃ claims issuer subject, TokenVerified auth token claims ∧ Identifies claims issuer subject ∧
    context = ⟨some issuer, some subject, some (extractAudiences claims.audience)⟩ ∧
    ∃ name, trustDomain auth = .ok name ∧
      ∃ audience ∈ extractAudiences claims.audience, OwnAudience auth.metadata name audience

namespace CallEvent

def closed? : CallEvent → Option RpcStatus
  | .close status _ => some status
  | _ => none

def counted? : CallEvent → Option AuthenticationStatus
  | .incrementAuthenticationCounter status => some status
  | _ => none

def forwarded? : CallEvent → Option CallContext
  | .forward context => some context
  | _ => none

end CallEvent

namespace JwtInterceptor

def ClosedOnce (trace : List CallEvent) : Prop :=
  (∃ status, trace.filterMap CallEvent.closed? = [status] ∧ status ≠ .ok) ∧
    trace.filterMap CallEvent.forwarded? = [] ∧
    (trace.filterMap CallEvent.counted? = [] ∨ trace.filterMap CallEvent.counted? = [.failure])

def ForwardedOnce (trace : List CallEvent) (context : CallContext) : Prop :=
  trace.filterMap CallEvent.forwarded? = [context] ∧
    trace.filterMap CallEvent.closed? = [] ∧ trace.filterMap CallEvent.counted? = [.success]

/-- The interceptor returns, and has either forwarded an authenticated call or closed it. -/
def DecidesOnce (auth : JwtAuth Key) (startCall : CallContext → Except OidcExn Unit)
    (authHeader : Option Utf16) : Prop :=
  (interceptCall auth startCall authHeader).outcome = .ok () ∧
    ((∃ token context, authHeader = some (bearer ++ token) ∧ Authenticated auth token context ∧
      ForwardedOnce (interceptCall auth startCall authHeader).trace context) ∨
    ClosedOnce (interceptCall auth startCall authHeader).trace)

open OidcAudienceValidator in
/-- What the collaborators must not do with a token: fail with an exception that is not
caught, or accept a token without issuer or subject. -/
structure Handled (auth : JwtAuth Key) (startCall : CallContext → Except OidcExn Unit)
    (token : Utf16) : Prop where
  keyFetch : ∀ kid, AsksFor auth token kid → OnlyThrows OidcExn.IsCaught (auth.getKey kid)
  claims : ∀ claims, TokenVerified auth token claims →
    claims.issuer.isSome = true ∧ claims.subject.isSome = true
  trustDomain : ∀ claims issuer subject, TokenVerified auth token claims →
    Identifies claims issuer subject → OnlyThrows OidcExn.IsCaught (trustDomain auth)
  startCall : ∀ context, Authenticated auth token context → startCall context = .ok ()

end JwtInterceptor

/-! ## What the validator throws and returns -/

namespace OidcAudienceValidator

variable (auth : JwtAuth Key) {token : Utf16}

theorem toExn_isCaught (f : JjwtFailure) : f.toExn.IsCaught := by
  cases f with
  | jwt message => trivial
  | illegalArgument message => trivial

/-- The locator asks for the key of a token of the expected algorithm that names one. -/
theorem locate_cases (header : TokenHeader) :
    (∃ kid, header = .jws (some OidcJwksKeyLocator.expectedAlg) (some kid) ∧
        OidcJwksKeyLocator.locate auth header = auth.getKey kid) ∨
      (∀ kid, header ≠ .jws (some OidcJwksKeyLocator.expectedAlg) (some kid)) ∧
        OidcJwksKeyLocator.locate auth header = .ok none := by
  cases header with
  | other => exact .inr ⟨by simp, rfl⟩
  | jws algorithm keyId =>
    by_cases halg : algorithm = some OidcJwksKeyLocator.expectedAlg
    · cases keyId with
      | none => exact .inr ⟨by simp, by simp [OidcJwksKeyLocator.locate]⟩
      | some kid => exact .inl ⟨kid, by rw [halg], by simp [OidcJwksKeyLocator.locate, halg]⟩
    · exact .inr ⟨by simp [halg], by simp [OidcJwksKeyLocator.locate, halg]⟩

theorem locate_eq_some {header : TokenHeader} {key : Key} :
    OidcJwksKeyLocator.locate auth header = .ok (some key) ↔ ∃ kid,
      header = .jws (some OidcJwksKeyLocator.expectedAlg) (some kid) ∧
        auth.getKey kid = .ok (some key) := by
  rcases locate_cases auth header with ⟨kid, rfl, hlocate⟩ | ⟨hother, hlocate⟩
  · rw [hlocate]
    constructor
    · intro hkey
      exact ⟨kid, rfl, hkey⟩
    · rintro ⟨kid', heq, hkey⟩
      cases heq
      exact hkey
  · rw [hlocate]
    constructor
    · intro hnone
      cases hnone
    · rintro ⟨kid, heq, -⟩
      exact absurd heq (hother kid)

theorem onlyThrows_locate_iff {header : TokenHeader} :
    OnlyThrows OidcExn.IsCaught (OidcJwksKeyLocator.locate auth header) ↔
      ∀ kid, header = .jws (some OidcJwksKeyLocator.expectedAlg) (some kid) →
        OnlyThrows OidcExn.IsCaught (auth.getKey kid) := by
  rcases locate_cases auth header with ⟨kid, rfl, hlocate⟩ | ⟨hother, hlocate⟩
  · rw [hlocate]
    constructor
    · intro honly kid' heq
      cases heq
      exact honly
    · intro hall
      exact hall kid rfl
  · rw [hlocate]
    constructor
    · intro _ kid heq
      exact absurd heq (hother kid)
    · intro _
      exact OnlyThrows.ok none

theorem parseClaimsJws_eq_ok {claims : TokenClaims} :
    parseClaimsJws auth token = .ok claims ↔ TokenVerified auth token claims := by
  simp only [parseClaimsJws, except_bind_eq_ok, except_mapError_eq_ok]
  constructor
  · rintro ⟨header, hheader, key, hlocate, hverify⟩
    cases key with
    | none => cases hverify
    | some key =>
      obtain ⟨kid, rfl, hkey⟩ := (locate_eq_some auth).mp hlocate
      exact ⟨kid, key, hheader, hkey, except_mapError_eq_ok.mp hverify⟩
  · rintro ⟨kid, key, hheader, hkey, hverify⟩
    exact ⟨_, hheader, some key, (locate_eq_some auth).mpr ⟨kid, rfl, hkey⟩,
      except_mapError_eq_ok.mpr hverify⟩

theorem onlyThrows_parseClaimsJws_iff :
    OnlyThrows OidcExn.IsCaught (parseClaimsJws auth token) ↔
      ∀ kid, AsksFor auth token kid → OnlyThrows OidcExn.IsCaught (auth.getKey kid) := by
  have hrefused {α : Type} (x : Except JjwtFailure α) :
      OnlyThrows OidcExn.IsCaught (x.mapError JjwtFailure.toExn) :=
    OnlyThrows.mapError.mpr fun f _ => toExn_isCaught f
  simp only [parseClaimsJws, OnlyThrows.bind_iff, onlyThrows_locate_iff, hrefused, true_and,
    except_mapError_eq_ok]
  constructor
  · intro h kid hkid
    exact (h _ hkid).1 kid rfl
  · intro h header hheader
    constructor
    · rintro kid rfl
      exact h kid hheader
    · intro key hkey
      cases key with
      | none => exact OnlyThrows.error trivial
      | some key => exact hrefused _

theorem newCallerIdentity_eq_ok {issuer subject : Option Utf16} {audiences : List Utf16}
    {identity : CallerIdentity} :
    newCallerIdentity issuer subject audiences = .ok identity ↔
      issuer = some identity.issuer ∧ subject = some identity.subject ∧
        audiences = identity.audiences := by
  constructor
  · intro h
    cases issuer with
    | none => cases h
    | some issuer =>
      cases subject with
      | none => cases h
      | some subject =>
        change CallerIdentity.create issuer subject audiences = _ at h
        unfold CallerIdentity.create at h
        split_ifs at h
        cases h
        exact ⟨rfl, rfl, rfl⟩
  · rintro ⟨rfl, rfl, rfl⟩
    change CallerIdentity.create identity.issuer identity.subject identity.audiences = _
    rw [CallerIdentity.create, dif_pos identity.issuer_not_blank,
      dif_pos identity.subject_not_blank]

/-- A missing name is a null pointer, a blank one an illegal argument. -/
theorem onlyThrows_newCallerIdentity_iff {issuer subject : Option Utf16} {audiences : List Utf16} :
    OnlyThrows (fun e => OidcExn.IsCaught (.base e)) (newCallerIdentity issuer subject audiences) ↔
      issuer.isSome = true ∧ subject.isSome = true := by
  cases issuer with
  | none => simp [newCallerIdentity, OnlyThrows, OidcExn.IsCaught]
  | some issuer =>
    cases subject with
    | none => simp [newCallerIdentity, OnlyThrows, OidcExn.IsCaught]
    | some subject =>
      simp only [Option.isSome_some, and_self, iff_true]
      change OnlyThrows _ (CallerIdentity.create issuer subject audiences)
      unfold CallerIdentity.create
      split_ifs
      · exact OnlyThrows.ok _
      · exact OnlyThrows.error trivial
      · exact OnlyThrows.error trivial

theorem onlyThrows_validateAudience_iff {metadata : AwsInstanceMetadata}
    {resolved : Except OidcExn Utf16} {audiences : List Utf16} :
    OnlyThrows OidcExn.IsCaught (validateAudience metadata resolved audiences) ↔
      OnlyThrows OidcExn.IsCaught resolved := by
  constructor
  · rintro h e rfl
    exact h e rfl
  · intro h e he
    rcases validateAudience_eq_error metadata he with hresolved | rfl
    · exact h e hresolved
    · trivial

theorem parseBearerToken_eq_ok {identity : CallerIdentity} :
    parseBearerToken auth token = .ok identity ↔
      ∃ claims, TokenVerified auth token claims ∧ claims.issuer = some identity.issuer ∧
        claims.subject = some identity.subject ∧
        extractAudiences claims.audience = identity.audiences := by
  simp only [parseBearerToken, except_bind_eq_ok, except_mapError_eq_ok, parseClaimsJws_eq_ok,
    newCallerIdentity_eq_ok]

theorem parseAndValidate_eq_ok {identity : CallerIdentity} :
    parseAndValidate auth token = .ok identity ↔
      Authenticated auth token (JwtInterceptor.contextOf identity) := by
  simp only [parseAndValidate, except_bind_eq_ok, parseBearerToken_eq_ok]
  constructor
  · rintro ⟨identity', ⟨claims, hverified, hissuer, hsubject, haudiences⟩, _, hvalid, hidentity⟩
    cases hidentity
    rw [← haudiences] at hvalid
    have hown := (validateAudience_eq_ok _ _ _).mp hvalid
    exact ⟨claims, _, _, hverified, ⟨hissuer, hsubject, identity.issuer_not_blank,
      identity.subject_not_blank⟩, by rw [haudiences]; rfl, hown⟩
  · rintro ⟨claims, issuer, subject, hverified, ⟨hissuer, hsubject, -, -⟩, hcontext, hvalid⟩
    obtain ⟨hi, hs, ha⟩ := CallContext.mk.inj hcontext
    rw [← Option.some.inj ha] at hvalid
    exact ⟨identity, ⟨claims, hverified, hissuer.trans hi.symm, hsubject.trans hs.symm,
      (Option.some.inj ha).symm⟩, (), (validateAudience_eq_ok _ _ _).mpr hvalid, rfl⟩

theorem onlyThrows_parseBearerToken_iff :
    OnlyThrows OidcExn.IsCaught (parseBearerToken auth token) ↔
      (∀ kid, AsksFor auth token kid → OnlyThrows OidcExn.IsCaught (auth.getKey kid)) ∧
      ∀ claims, TokenVerified auth token claims →
        claims.issuer.isSome = true ∧ claims.subject.isSome = true := by
  simp only [parseBearerToken, OnlyThrows.bind_iff, OnlyThrows.mapError,
    onlyThrows_parseClaimsJws_iff, onlyThrows_newCallerIdentity_iff, parseClaimsJws_eq_ok]

/-- The exceptions of the whole validation: each collaborator in its turn, the later ones
only for a token that gets that far. -/
theorem onlyThrows_parseAndValidate_iff :
    OnlyThrows OidcExn.IsCaught (parseAndValidate auth token) ↔
      (∀ kid, AsksFor auth token kid → OnlyThrows OidcExn.IsCaught (auth.getKey kid)) ∧
      (∀ claims, TokenVerified auth token claims →
        claims.issuer.isSome = true ∧ claims.subject.isSome = true) ∧
      ∀ claims issuer subject, TokenVerified auth token claims → Identifies claims issuer subject →
        OnlyThrows OidcExn.IsCaught (trustDomain auth) := by
  have hreached : (∀ identity, parseBearerToken auth token = .ok identity →
      OnlyThrows OidcExn.IsCaught (trustDomain auth)) ↔
      ∀ claims issuer subject, TokenVerified auth token claims → Identifies claims issuer subject →
        OnlyThrows OidcExn.IsCaught (trustDomain auth) := by
    constructor
    · rintro h claims issuer subject hverified ⟨hissuer, hsubject, hi, hs⟩
      exact h ⟨issuer, subject, extractAudiences claims.audience, hi, hs⟩
        ((parseBearerToken_eq_ok auth).mpr ⟨claims, hverified, hissuer, hsubject, rfl⟩)
    · intro h identity hidentity
      obtain ⟨claims, hverified, hissuer, hsubject, -⟩ := (parseBearerToken_eq_ok auth).mp hidentity
      exact h claims _ _ hverified
        ⟨hissuer, hsubject, identity.issuer_not_blank, identity.subject_not_blank⟩
  have hpure (identity : CallerIdentity) :
      OnlyThrows OidcExn.IsCaught (pure identity : Except OidcExn CallerIdentity) :=
    OnlyThrows.ok identity
  simp only [parseAndValidate, OnlyThrows.bind_iff, onlyThrows_parseBearerToken_iff,
    onlyThrows_validateAudience_iff, hpure, implies_true, and_true, hreached, and_assoc]

end OidcAudienceValidator

/-! ## The decision -/

namespace JwtInterceptor

variable (auth : JwtAuth Key) (startCall : CallContext → Except OidcExn Unit)

theorem bearerToken_eq_some {authHeader : Option Utf16} {token : Utf16} :
    bearerToken authHeader = some token ↔ authHeader = some (bearer ++ token) := by
  cases authHeader with
  | none => simp [bearerToken]
  | some header =>
    by_cases hbearer : bearer.isPrefixOf header = true
    · obtain ⟨rest, rfl⟩ := List.isPrefixOf_iff_prefix.mp hbearer
      simp [bearerToken]
    · simp only [bearerToken, if_neg hbearer, reduceCtorEq, Option.some.injEq, false_iff]
      rintro rfl
      simp at hbearer

/-- A caught exception closes the call once. -/
theorem closedOnce_report {e : OidcExn} (h : e.IsCaught) :
    (report e).outcome = .ok () ∧ ClosedOnce (report e).trace := by
  cases e with
  | jwt message => exact ⟨rfl, ⟨.unauthenticated, rfl, nofun⟩, rfl, .inr rfl⟩
  | audienceValidation message => exact ⟨rfl, ⟨.permissionDenied, rfl, nofun⟩, rfl, .inr rfl⟩
  | base e =>
    cases e with
    | illegalState message => exact ⟨rfl, ⟨.unavailable, rfl, nofun⟩, rfl, .inl rfl⟩
    | illegalArgument message => exact ⟨rfl, ⟨.invalidArgument, rfl, nofun⟩, rfl, .inr rfl⟩
    | _ => exact absurd h id
  | _ => exact absurd h id

theorem report_of_not_isCaught {e : OidcExn} (h : ¬ e.IsCaught) : report e = throw e := by
  cases e with
  | jwt message => exact absurd trivial h
  | audienceValidation message => exact absurd trivial h
  | base e =>
    cases e with
    | illegalState message => exact absurd trivial h
    | illegalArgument message => exact absurd trivial h
    | _ => rfl
  | _ => rfl

section Token

variable {auth} {authHeader : Option Utf16} {token : Utf16}

theorem interceptCall_of_error {e : OidcExn} (htoken : bearerToken authHeader = some token)
    (he : OidcAudienceValidator.parseAndValidate auth token = .error e) :
    interceptCall auth startCall authHeader = report e := by
  simp only [interceptCall, htoken, he, Traced.quiet_error_bind]
  rw [Traced.tryCatch_of_error (Traced.throw_outcome e)]
  rfl

/-- An authenticated call is forwarded; only then can the handler fail. -/
theorem interceptCall_of_ok {identity : CallerIdentity}
    (htoken : bearerToken authHeader = some token)
    (hidentity : OidcAudienceValidator.parseAndValidate auth token = .ok identity) :
    interceptCall auth startCall authHeader =
      match startCall (contextOf identity) with
      | .ok () =>
        ⟨[.incrementAuthenticationCounter .success, .forward (contextOf identity)], .ok ()⟩
      | .error e => ⟨[.incrementAuthenticationCounter .success, .forward (contextOf identity)] ++
          (report e).trace, (report e).outcome⟩ := by
  simp only [interceptCall, htoken, hidentity, Traced.quiet_ok_bind]
  cases startCall (contextOf identity) with
  | ok u => rfl
  | error e => rfl

/-- A handler that fails once the call is forwarded leaves it undecided or decided twice. -/
theorem not_decidesOnce_of_startCall {identity : CallerIdentity} {e : OidcExn}
    (htoken : bearerToken authHeader = some token)
    (hidentity : OidcAudienceValidator.parseAndValidate auth token = .ok identity)
    (hfails : startCall (contextOf identity) = .error e) :
    ¬ DecidesOnce auth startCall authHeader := by
  have hcall := interceptCall_of_ok startCall htoken hidentity
  simp only [hfails] at hcall
  unfold DecidesOnce
  rw [hcall]
  rintro ⟨hreturns, hdecided⟩
  by_cases hcaught : e.IsCaught
  · obtain ⟨-, ⟨status, hclosed, -⟩, -⟩ := closedOnce_report hcaught
    rcases hdecided with ⟨_, context, -, -, -, hopen, -⟩ | ⟨-, hkept, -⟩
    · rw [List.filterMap_append, hclosed] at hopen
      simp at hopen
    · rw [List.filterMap_append] at hkept
      simp [CallEvent.forwarded?] at hkept
  · rw [report_of_not_isCaught hcaught] at hreturns
    cases hreturns

theorem decidesOnce_of_startCall {identity : CallerIdentity}
    (htoken : bearerToken authHeader = some token)
    (hidentity : OidcAudienceValidator.parseAndValidate auth token = .ok identity)
    (hreturns : startCall (contextOf identity) = .ok ()) :
    DecidesOnce auth startCall authHeader := by
  have hcall := interceptCall_of_ok startCall htoken hidentity
  simp only [hreturns] at hcall
  unfold DecidesOnce
  rw [hcall]
  exact ⟨rfl, .inl ⟨token, contextOf identity, bearerToken_eq_some.mp htoken,
    (OidcAudienceValidator.parseAndValidate_eq_ok auth).mp hidentity, rfl, rfl, rfl⟩⟩

/-- A token is decided once if its validation throws nothing that is not caught, and the
handler takes what is forwarded. -/
theorem decidesOnce_token_iff (htoken : bearerToken authHeader = some token) :
    DecidesOnce auth startCall authHeader ↔
      OnlyThrows OidcExn.IsCaught (OidcAudienceValidator.parseAndValidate auth token) ∧
        ∀ identity, OidcAudienceValidator.parseAndValidate auth token = .ok identity →
          startCall (contextOf identity) = .ok () := by
  cases hvalidate : OidcAudienceValidator.parseAndValidate auth token with
  | error e =>
    have hcall := interceptCall_of_error startCall htoken hvalidate
    by_cases hcaught : e.IsCaught
    · have hclosed := closedOnce_report hcaught
      rw [← hcall] at hclosed
      simp only [reduceCtorEq, false_implies, implies_true, and_true]
      exact ⟨fun _ => OnlyThrows.error hcaught, fun _ => ⟨hclosed.1, .inr hclosed.2⟩⟩
    · constructor
      · rintro ⟨hreturns, -⟩
        rw [hcall, report_of_not_isCaught hcaught] at hreturns
        cases hreturns
      · rintro ⟨honly, -⟩
        exact absurd (honly e rfl) hcaught
  | ok identity =>
    cases hstart : startCall (contextOf identity) with
    | ok u =>
      simp only [Except.ok.injEq, forall_eq', hstart, and_true]
      exact ⟨fun _ => OnlyThrows.ok identity,
        fun _ => decidesOnce_of_startCall startCall htoken hvalidate hstart⟩
    | error e =>
      simp only [Except.ok.injEq, forall_eq', hstart, reduceCtorEq, and_false, iff_false]
      exact not_decidesOnce_of_startCall startCall htoken hvalidate hstart

end Token

/-- Every context of an authenticated call comes from an identity. -/
theorem exists_identity_of_authenticated {token : Utf16} {context : CallContext}
    (h : Authenticated auth token context) : ∃ identity, context = contextOf identity := by
  obtain ⟨claims, issuer, subject, -, ⟨-, -, hissuer, hsubject⟩, rfl, -⟩ := h
  exact ⟨⟨issuer, subject, OidcAudienceValidator.extractAudiences claims.audience, hissuer,
    hsubject⟩, rfl⟩

/-- The interceptor decides a call exactly once if its collaborators handle the token. -/
theorem decidesOnce_iff (authHeader : Option Utf16) :
    DecidesOnce auth startCall authHeader ↔
      ∀ token, authHeader = some (bearer ++ token) → Handled auth startCall token := by
  cases htoken : bearerToken authHeader with
  | none =>
    constructor
    · intro _ token hheader
      rw [bearerToken_eq_some.mpr hheader] at htoken
      cases htoken
    · intro _
      have hcall : interceptCall auth startCall authHeader = ⟨[.close .unauthenticated
          (text "Missing or invalid Authorization header"),
          .incrementAuthenticationCounter .failure], .ok ()⟩ := by
        simp only [interceptCall, htoken]
        rfl
      unfold DecidesOnce
      rw [hcall]
      exact ⟨rfl, .inr ⟨⟨.unauthenticated, rfl, nofun⟩, rfl, .inr rfl⟩⟩
  | some token =>
    have hheader := bearerToken_eq_some.mp htoken
    rw [decidesOnce_token_iff startCall htoken,
      OidcAudienceValidator.onlyThrows_parseAndValidate_iff]
    constructor
    · rintro ⟨⟨hkey, hclaims, htrust⟩, hstart⟩ token' hheader'
      rw [hheader, Option.some.injEq, List.append_cancel_left_eq] at hheader'
      subst hheader'
      refine ⟨hkey, hclaims, htrust, ?_⟩
      intro context hauthenticated
      obtain ⟨identity, rfl⟩ := exists_identity_of_authenticated auth hauthenticated
      exact hstart identity ((OidcAudienceValidator.parseAndValidate_eq_ok auth).mpr hauthenticated)
    · intro h
      obtain ⟨hkey, hclaims, htrust, hstart⟩ := h token hheader
      refine ⟨⟨hkey, hclaims, htrust⟩, ?_⟩
      intro identity hidentity
      exact hstart _ ((OidcAudienceValidator.parseAndValidate_eq_ok auth).mp hidentity)

def demoMetadata : AwsInstanceMetadata where
  region := text "us-east-1"
  accountId := text "123456789012"
  environment := text "dev"
  domain := text "example.com"

def demoAuth (claims : TokenClaims) : JwtAuth Unit where
  jjwt :=
    { parseHeader := fun _ => .ok (.jws (some "RS256") (some "k"))
      verify := fun _ _ => .ok claims }
  getKey := fun _ => .ok (some ())
  metadata := demoMetadata
  getSubjectAlternativeNames := fun _ => .ok (some [PesModule.uriSan demoMetadata])
  getActiveTrustPackage := .ok [⟨⟨none, ⟨"", []⟩, "", 0⟩, ⟨"", []⟩, ⟨[]⟩⟩]

def demoClaims : TokenClaims where
  issuer := some (text "https://issuer.example.com")
  subject := some (text "builder")
  audience := .string (text "https://pes.dev.example.com")

def demoHeader : Option Utf16 := some (bearer ++ text "token")

example : (interceptCall (demoAuth demoClaims) (fun _ => .ok ()) demoHeader).trace.filterMap
    CallEvent.counted? = [.success] := by decide +kernel

/-- A token without a subject, which is an optional claim. -/
def anonymousAuth : JwtAuth Unit := demoAuth { demoClaims with subject := none }

def unreachableExchange : JwksExchange where
  getJwksUri := .ok (text "https://issuer.example.com/jwks")
  newRequest _ := .ok ()
  send := .error .io
  readValue _ := .ok none

def unreachableAuth : JwtAuth Unit :=
  (demoAuth demoClaims).withFetcher ⟨fun _ => .ok [], fun _ _ => .ok ()⟩ 0 unreachableExchange
    unreachableExchange none

theorem uncaught_exceptions :
    (interceptCall anonymousAuth (fun _ => .ok ()) demoHeader).outcome =
      .error (.base .nullPointer) ∧
    (interceptCall unreachableAuth (fun _ => .ok ()) demoHeader).outcome =
      .error (.base (.other (text "Failed to fetch or parse JWKS"))) ∧
    ¬ DecidesOnce anonymousAuth (fun _ => .ok ()) demoHeader ∧
    ¬ DecidesOnce unreachableAuth (fun _ => .ok ()) demoHeader := by
  have hanonymous : (interceptCall anonymousAuth (fun _ => .ok ()) demoHeader).outcome =
      .error (.base .nullPointer) := by
    decide +kernel
  have hunreachable : (interceptCall unreachableAuth (fun _ => .ok ()) demoHeader).outcome =
      .error (.base (.other (text "Failed to fetch or parse JWKS"))) := by
    decide +kernel
  refine ⟨hanonymous, hunreachable, ?_, ?_⟩
  · rintro ⟨hreturns, -⟩
    rw [hanonymous] at hreturns
    cases hreturns
  · rintro ⟨hreturns, -⟩
    rw [hunreachable] at hreturns
    cases hreturns

end JwtInterceptor
end PublicEndorsement.Pes
