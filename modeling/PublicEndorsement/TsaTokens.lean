import PublicEndorsement.TracedRelation
import PublicEndorsement.TsaRequests

/-!
# Timestamp tokens in the answers of the service

`SignatureGeneratorImpl` over `SimpleTsaClient`. A token that is answered verifies for the very
signature that it is attached to; and apart from the tokens, no answer of a timestamping authority
has any influence on the service.
-/

namespace PublicEndorsement.Pes

open Mbs

namespace Tsa

variable {Token Holder : Type} {lib : Library Token Holder} {v : TsaTimestampVerifierImpl}

/-- The ports of a deployment whose `n`-th signature asks for its token in the `n`-th exchange,
with what is memoised by then; a request that throws is ignored. -/
def signingPorts (sign : ℕ → String → PrivateKey → Bytes → Option Bytes)
    (lib : Library Token Holder) (v : TsaTimestampVerifierImpl) (clock : ℕ → ℤ)
    (exchange : ℕ → Exchange Token) (memo : ℕ → Option S3TsaConfigProvider.Memo) :
    SigningPorts where
  sign := sign
  requestTimeStampToken := fun n data =>
    match (SimpleTsaClient.requestTimeStampToken (exchange n) lib { v with instant := clock n }
      (memo n) data).outcome with
    | .ok token => some (token.map (fun t => ⟨t.derBytes⟩))
    | .error _ => none

/-- An accepted token verifies for the data whatever the clock shows. -/
theorem verify_of_accepted (hlib : lib.Lawful) {sha384 : Bytes → Bytes}
    (hsha : lib.messageDigest "SHA-384" = some sha384) {data : Bytes} {nonce : ℕ} {instant : ℤ}
    {response : TimeStampResponse Token} {t : TimeStampToken}
    (h : ({ v with instant := instant } : TsaTimestampVerifierImpl).extractTokenAndVerify lib
      response (createTimestampRequest idSha384 (sha384 data) nonce) = .ok t) :
    v.verify lib t data = .ok () := by
  obtain ⟨token, htoken, hvalid, hverified, hencoded⟩ :=
    TsaTimestampVerifierImpl.extractTokenAndVerify_spec h
  obtain ⟨halg, hdigest⟩ := hlib.imprint _ _ token htoken hvalid
  have himprint : TsaTimestampVerifierImpl.verifyMessageImprint lib token data = .ok () := by
    rw [TsaTimestampVerifierImpl.verifyMessageImprint_of_sha384 hsha halg, hdigest]
    exact if_pos rfl
  rw [TsaTimestampVerifierImpl.verify_of_encoded hlib hencoded,
    TsaTimestampVerifierImpl.verifyImprintAndToken, himprint]
  rw [TsaTimestampVerifierImpl.verifyToken_of_instant] at hverified
  exact hverified

/-- What the client returns was accepted for the digest of the data. -/
theorem SimpleTsaClient.accepted_of_requestTimeStampToken {ex : Exchange Token}
    {memo : Option S3TsaConfigProvider.Memo} {data : Bytes} {t : TimeStampToken}
    (h : (requestTimeStampToken ex lib v memo data).outcome = .ok (some t)) :
    ∃ digest response, lib.messageDigest "SHA-384" = some digest ∧ v.extractTokenAndVerify lib
      response (createTimestampRequest idSha384 (digest data) ex.nonce) = .ok t := by
  unfold requestTimeStampToken at h
  split_ifs at h
  obtain ⟨uri, -, h⟩ := Traced.bind_outcome_eq_ok.mp h
  cases uri with
  | none => cases h
  | some tsaUri =>
    dsimp only at h
    split_ifs at h
    cases hdigest : lib.messageDigest "SHA-384" with
    | none =>
      rw [hdigest] at h
      cases h
    | some digest =>
      simp only [hdigest] at h
      cases hrequest : (requestToken ex lib v tsaUri idSha384 (digest data)).outcome with
      | error e =>
        rw [Traced.bind_of_error hrequest, Traced.tryCatch_of_error rfl] at h
        cases h
      | ok token =>
        rw [Traced.bind_of_ok hrequest, Traced.tryCatch_of_ok rfl] at h
        cases h
        obtain ⟨requestBytes, -, hrest⟩ := Traced.bind_outcome_eq_ok.mp hrequest
        obtain ⟨responseBytes, -, hparsed⟩ := Traced.bind_outcome_eq_ok.mp hrest
        simp only [Traced.quiet_outcome, parseAndVerifyToken] at hparsed
        cases hresponse : ex.parseResponse responseBytes with
        | error e =>
          rw [hresponse] at hparsed
          cases hparsed
        | ok response =>
          rw [hresponse] at hparsed
          exact ⟨digest, response, rfl, except_mapError_eq_ok.mp hparsed⟩

theorem exists_of_signingPorts {sign : ℕ → String → PrivateKey → Bytes → Option Bytes}
    {clock : ℕ → ℤ} {exchange : ℕ → Exchange Token} {memo : ℕ → Option S3TsaConfigProvider.Memo}
    {n : ℕ} {data : Bytes} {token : Pes.TimeStampToken}
    (h : ((signingPorts sign lib v clock exchange memo).requestTimeStampToken n data).join =
      some token) :
    ∃ t, (SimpleTsaClient.requestTimeStampToken (exchange n) lib { v with instant := clock n }
      (memo n) data).outcome = .ok (some t) ∧ t.derBytes = token.derBytes := by
  simp only [signingPorts] at h
  cases hout : (SimpleTsaClient.requestTimeStampToken (exchange n) lib
      { v with instant := clock n } (memo n) data).outcome with
  | error e => simp [hout] at h
  | ok found =>
    rw [hout] at h
    obtain ⟨t, rfl, rfl⟩ := Option.map_eq_some_iff.mp h
    exact ⟨t, rfl, rfl⟩

end Tsa

/-! ## From a token to the answer -/

theorem generate_token {ports : SigningPorts} {n : ℕ} {data : Bytes} {certificate : X509Certificate}
    {privateKey : PrivateKey} {s : Signature}
    (h : (SignatureGeneratorImpl.generate ports n data certificate privateKey).outcome = .ok s) :
    s.timeStampToken = (ports.requestTimeStampToken n s.signature).join := by
  unfold SignatureGeneratorImpl.generate at h
  simp only [Traced.bind_outcome_eq_ok, Traced.quiet_outcome, Traced.pure_outcome] at h
  obtain ⟨der, -, algorithm, -, bytes, -, hs⟩ := h
  cases hs
  rfl

open PublicEndorsementService in
/-- The signatures of an endorsement are those that were generated for it. -/
theorem generated_of_createEndorsement {deployed : DeployedPorts} {e result : Endorsement}
    {identity : CallerIdentity}
    (h : (createEndorsement deployed.ports e identity).outcome = .ok result) :
    ∀ s ∈ result.endorsementSignatures, ∃ n data certificate privateKey,
      (SignatureGeneratorImpl.generate deployed.signing n data certificate privateKey).outcome =
        .ok s := by
  rw [createEndorsement_eq] at h
  obtain ⟨⟨mbcs, v⟩, -, hpublish⟩ := Traced.bind_outcome_eq_ok.mp h
  obtain ⟨_, -, hsettle⟩ := Traced.bind_outcome_eq_ok.mp hpublish
  obtain ⟨receipt, -, hsettle⟩ := Traced.bind_outcome_eq_ok.mp hsettle
  obtain ⟨signatures, hsigned, hsettle⟩ := Traced.bind_outcome_eq_ok.mp hsettle
  obtain ⟨_, -, hresult⟩ := Traced.bind_outcome_eq_ok.mp hsettle
  cases hresult
  obtain ⟨hall, -⟩ := Traced.mapM_outcome_ok hsigned
  intro s hs
  obtain ⟨i, hi, rfl⟩ := List.getElem_of_mem hs
  obtain ⟨_, -, hgenerated⟩ := Traced.bind_outcome_eq_ok.mp
    (hall.get (hall.length_eq ▸ hi) hi)
  exact ⟨_, _, _, _, hgenerated⟩

/-- Every token in the answer of a call verifies for the signature that it comes with, whatever the
authorities answer, however their configuration was memoised, and whatever the clock has shown and
shows later. -/
theorem response_tokens_verify {Token Holder : Type} (lib : Tsa.Library Token Holder)
    (hlib : lib.Lawful) (v : Tsa.TsaTimestampVerifierImpl)
    (sign : ℕ → String → PrivateKey → Bytes → Option Bytes) (clock : ℕ → ℤ)
    (exchange : ℕ → Tsa.Exchange Token) (memo : ℕ → Option Tsa.S3TsaConfigProvider.Memo)
    (deployed : DeployedPorts)
    (hsigning : deployed.signing = Tsa.signingPorts sign lib v clock exchange memo)
    (context : CallContext) (request : Proto.CreatePublicEndorsementRequest)
    (hcompleted : .observer .onCompleted ∈
      (PesGrpcHandler.createPublicEndorsement deployed context request).trace)
    (response : Proto.PublicEndorsementMessage)
    (hresponse : .observer (.onNext response) ∈
      (PesGrpcHandler.createPublicEndorsement deployed context request).trace) :
    ∀ s ∈ response.endorsementSignatures, ∀ token, s.timeStampToken = some token → ∀ later : ℤ,
      ({ v with instant := later } : Tsa.TsaTimestampVerifierImpl).verify lib ⟨token.derBytes⟩
        s.signature = .ok () := by
  obtain ⟨identity, result, hrun, htrace⟩ :=
    PesGrpcHandler.createPublicEndorsement_completed hcompleted
  obtain rfl : response = EndorsementMapper.toProto result := by
    rw [htrace] at hresponse
    simpa using hresponse
  intro s hs token htoken later
  obtain ⟨signature, hsignature, rfl⟩ := List.mem_map.mp hs
  obtain ⟨n, data, certificate, privateKey, hgenerated⟩ :=
    generated_of_createEndorsement hrun signature hsignature
  obtain ⟨t, ht, rfl⟩ := Option.map_eq_some_iff.mp htoken
  rw [generate_token hgenerated, hsigning] at ht
  obtain ⟨t', ht', hbytes⟩ := Tsa.exists_of_signingPorts ht
  obtain ⟨digest, response, hdigest, haccepted⟩ :=
    Tsa.SimpleTsaClient.accepted_of_requestTimeStampToken ht'
  rw [← hbytes]
  exact Tsa.verify_of_accepted hlib hdigest haccepted

def Tsa.demoUri : Tsa.Uri := ⟨some "https", some "tsa.example", "/"⟩

def Tsa.demoExchange : Tsa.Exchange Tsa.Bytes where
  bucketName := "config"
  nanoTime := 0
  s3 := ⟨.ok (), .ok (some ⟨true, some [some "https://tsa.example/"]⟩), .ok ()⟩
  parseUri := fun _ => .ok Tsa.demoUri
  nextInt := fun n => ⟨0, Nat.succ_pos n⟩
  nonce := 7
  encode := fun _ => .ok [1]
  newRequest := fun _ => .ok ()
  send := fun _ _ => .ok ⟨none, 200, some "application/timestamp-reply", some ⟨[2], none, none⟩⟩
  sanitize := fun _ => ""
  parseResponse := fun _ => .ok ⟨.ok ⟨0, none, none⟩, some Tsa.demoDigest⟩

def demoTimestamped : DeployedPorts :=
  { PesGrpcHandler.demoDeployment with
    signing := Tsa.signingPorts (fun _ _ _ _ => some [0x61, 0x62, 0x63]) Tsa.demoLibrary
      Tsa.demoVerifier (fun _ => 500 * 1000000) (fun _ => Tsa.demoExchange) (fun _ => none) }

def ObserverEvent.hasToken : ObserverEvent → Bool
  | .onNext response => response.endorsementSignatures.any (fun s => s.timeStampToken.isSome)
  | _ => false

/-- The answer of the demo deployment has a token, which verifies. -/
theorem demo_response_tokens_verify : ∃ response s token,
    .observer (.onNext response) ∈ (PesGrpcHandler.createPublicEndorsement demoTimestamped
      PesGrpcHandler.demoContext PesGrpcHandler.demoRequest).trace ∧
    s ∈ response.endorsementSignatures ∧ s.timeStampToken = some token ∧
    ({ Tsa.demoVerifier with instant := 10 ^ 18 } : Tsa.TsaTimestampVerifierImpl).verify
      Tsa.demoLibrary ⟨token.derBytes⟩ s.signature = .ok () := by
  have hanswered : ((PesGrpcHandler.createPublicEndorsement demoTimestamped
      PesGrpcHandler.demoContext PesGrpcHandler.demoRequest).trace.filterMap
        HandlerEvent.observed?).any ObserverEvent.hasToken = true := by decide +kernel
  have hcompleted : .onCompleted ∈ (PesGrpcHandler.createPublicEndorsement demoTimestamped
      PesGrpcHandler.demoContext PesGrpcHandler.demoRequest).trace.filterMap
        HandlerEvent.observed? := by decide +kernel
  obtain ⟨o, ho, htoken⟩ := List.any_eq_true.mp hanswered
  cases o with
  | onNext response =>
    obtain ⟨s, hs, hsome⟩ := List.any_eq_true.mp htoken
    obtain ⟨token, htoken⟩ := Option.isSome_iff_exists.mp hsome
    have hresponse := HandlerEvent.mem_of_observed ho
    exact ⟨response, s, token, hresponse, hs, htoken,
      response_tokens_verify Tsa.demoLibrary Tsa.demoLibrary_lawful Tsa.demoVerifier _ _ _ _
        demoTimestamped rfl _ _ (HandlerEvent.mem_of_observed hcompleted) response hresponse s hs
        token htoken _⟩
  | onCompleted => cases htoken
  | onError code description => cases htoken

/-! ## What the authorities cannot do -/

def Signature.withoutToken (s : Signature) : Signature := { s with timeStampToken := none }

def Endorsement.withoutTokens (e : Endorsement) : Endorsement :=
  { e with endorsementSignatures := e.endorsementSignatures.map Signature.withoutToken }

def Proto.Signature.withoutToken (s : Proto.Signature) : Proto.Signature :=
  { s with timeStampToken := none }

def Proto.PublicEndorsementMessage.withoutTokens (m : Proto.PublicEndorsementMessage) :
    Proto.PublicEndorsementMessage :=
  { m with endorsementSignatures := m.endorsementSignatures.map Proto.Signature.withoutToken }

def HandlerEvent.withoutTokens : HandlerEvent → HandlerEvent
  | .observer (.onNext response) => .observer (.onNext response.withoutTokens)
  | e => e

def DeployedPorts.withTimestamps (deployed : DeployedPorts)
    (requestTimeStampToken : ℕ → Bytes → Option (Option TimeStampToken)) : DeployedPorts :=
  { deployed with
    signing := { deployed.signing with requestTimeStampToken := requestTimeStampToken } }

theorem map_eq_of_forall₂ {α β : Type} {f : α → β} {l l' : List α}
    (h : List.Forall₂ (fun a a' => f a = f a') l l') : l.map f = l'.map f := by
  rw [← List.forall₂_eq_eq_eq, List.forall₂_map_left_iff, List.forall₂_map_right_iff]
  exact h

section Independence

variable (deployed : DeployedPorts)
  (requestTimeStampToken : ℕ → Bytes → Option (Option TimeStampToken))

theorem related_generate (n : ℕ) (data : Bytes) (certificate : X509Certificate)
    (privateKey : PrivateKey) :
    Traced.Related Eq Eq (fun s s' => s.withoutToken = s'.withoutToken)
      (deployed.ports.generate n data certificate privateKey)
      ((deployed.withTimestamps requestTimeStampToken).ports.generate n data certificate
        privateKey) := by
  refine (Traced.Related.quiet (.refl (fun _ => rfl) _)).bind fun der _ hder => ?_
  refine (Traced.Related.quiet (.refl (fun _ => rfl) _)).bind fun algorithm _ halgorithm => ?_
  subst hder halgorithm
  refine (Traced.Related.quiet (.refl (fun _ => rfl) _)).bind fun bytes _ hbytes => ?_
  subst hbytes
  exact .pure rfl

open PublicEndorsementService in
theorem related_createEndorsement (e : Endorsement) (identity : CallerIdentity) :
    Traced.Related Eq Eq (fun r r' => r.withoutTokens = r'.withoutTokens)
      (createEndorsement deployed.ports e identity)
      (createEndorsement (deployed.withTimestamps requestTimeStampToken).ports e identity) := by
  rw [createEndorsement_eq, createEndorsement_eq]
  refine (Traced.Related.refl (vet deployed.ports e identity)).bind fun checked _ hchecked => ?_
  subst hchecked
  refine (Traced.Related.emit rfl).bind fun _ _ _ => ?_
  refine (Traced.Related.refl _).bind fun receipt _ hreceipt => ?_
  subst hreceipt
  refine Traced.Related.bind (R := List.Forall₂ fun s s' => s.withoutToken = s'.withoutToken) ?_
    fun signatures signatures' hsignatures => ?_
  · refine Traced.Related.mapM (R := Eq) ?_ (List.forall₂_refl _)
    rintro p _ rfl
    refine (Traced.Related.emit rfl).bind fun _ _ _ => ?_
    exact Traced.Related.embed (fun _ _ h => congrArg Event.inside h)
      (related_generate deployed requestTimeStampToken _ _ _ _)
  · refine (Traced.Related.emit rfl).bind fun _ _ _ => .pure ?_
    simp only [Endorsement.withoutTokens, map_eq_of_forall₂ hsignatures]
    rfl

theorem withoutTokens_toProto (e : Endorsement) :
    (EndorsementMapper.toProto e).withoutTokens = EndorsementMapper.toProto e.withoutTokens := by
  simp only [Proto.PublicEndorsementMessage.withoutTokens, EndorsementMapper.toProto,
    Endorsement.withoutTokens, List.map_map]
  rfl

/-- Whatever the timestamping authorities do, a call does the same, ends in the same way and gives
the same answer but for the tokens in it. -/
theorem timestamps_change_tokens_only (context : CallContext)
    (request : Proto.CreatePublicEndorsementRequest) :
    (PesGrpcHandler.createPublicEndorsement deployed context request).trace.map
        HandlerEvent.withoutTokens =
      (PesGrpcHandler.createPublicEndorsement (deployed.withTimestamps requestTimeStampToken)
        context request).trace.map HandlerEvent.withoutTokens ∧
    (PesGrpcHandler.createPublicEndorsement deployed context request).outcome =
      (PesGrpcHandler.createPublicEndorsement (deployed.withTimestamps requestTimeStampToken)
        context request).outcome := by
  have hrelated : Traced.Related
      (fun e e' : HandlerEvent => e.withoutTokens = e'.withoutTokens) Eq Eq
      (PesGrpcHandler.createPublicEndorsement deployed context request)
      (PesGrpcHandler.createPublicEndorsement (deployed.withTimestamps requestTimeStampToken)
        context request) := by
    unfold PesGrpcHandler.createPublicEndorsement
    split
    · refine (Traced.Related.quiet (.refl (fun _ => rfl) _)).bind fun identity _ hidentity => ?_
      subst hidentity
      refine Traced.Related.tryCatch (Q := Eq) ?_ ?_
      · refine (Traced.Related.embed ?_
          (related_createEndorsement deployed requestTimeStampToken _ _)).bind fun r r' hr => ?_
        · rintro e _ rfl
          rfl
        refine (Traced.Related.emit ?_).bind fun _ _ _ => .emit rfl
        simp only [HandlerEvent.withoutTokens, withoutTokens_toProto, hr]
      · rintro e _ rfl
        cases e <;> first | exact .emit rfl | exact .throw rfl
    · exact .emit rfl
  exact ⟨map_eq_of_forall₂ hrelated.trace, hrelated.outcome.eq⟩

end Independence

end PublicEndorsement.Pes
