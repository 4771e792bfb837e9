import PublicEndorsement.TracedComputation
import PublicEndorsement.TsaVerifier

/-!
# Tokens that were accepted stay verifiable

The checks made when a token is issued and those made on a stored token are different
code. They agree: the imprint of an accepted token is that of the request, and nothing
that is checked later depends on the clock.
-/

namespace PublicEndorsement.Pes.Tsa

variable {Token Holder : Type}

/-- What Bouncy Castle promises: a response that is valid for a request has a token with
the imprint of that request, and a token is what its encoding is parsed to. -/
structure Library.Lawful (lib : Library Token Holder) : Prop where
  imprint : ∀ response request token, response.token = some token →
    lib.validateResponse response request = .ok () →
    lib.messageImprintAlg token = request.messageImprintAlg ∧
      lib.messageImprintDigest token = request.messageImprintDigest
  parse : ∀ token der, lib.getEncoded token = .ok der → lib.parseToken der = .ok (some token)

namespace TsaTimestampVerifierImpl

variable {lib : Library Token Holder} {v : TsaTimestampVerifierImpl} {token : Token}
  {response : TimeStampResponse Token} {request : TimeStampRequest}

theorem verifyCandidates_of_instant (instant : ℤ) (token : Token)
    (failures : List JavaException) (candidates : List Holder) :
    ({ v with instant := instant } : TsaTimestampVerifierImpl).verifyCandidates lib token failures
      candidates = v.verifyCandidates lib token failures candidates := by
  induction candidates generalizing failures with
  | nil => rfl
  | cons candidate candidates ih =>
    rw [verifyCandidates, verifyCandidates]
    simp only [ih]
    rfl

/-- The private `verify` does not read the clock. -/
theorem verifyToken_of_instant (instant : ℤ) (token : Token) :
    ({ v with instant := instant } : TsaTimestampVerifierImpl).verifyToken lib token =
      v.verifyToken lib token := by
  simp only [verifyToken, verifyCandidates_of_instant]

theorem token_of_extractTimeStampToken (h : extractTimeStampToken response = .ok token) :
    response.token = some token := by
  rw [extractTimeStampToken] at h
  split at h
  · rename_i token' htoken
    cases h
    exact htoken
  · obtain ⟨_, -, hthrown⟩ := except_bind_eq_ok.mp h
    cases hthrown

theorem valid_of_verifyResponseMatchesRequest
    (h : verifyResponseMatchesRequest lib response request = .ok ()) :
    lib.validateResponse response request = .ok () := by
  rw [verifyResponseMatchesRequest] at h
  split_ifs at h
  split at h
  · assumption
  · cases h

theorem encoded_of_toDomainToken {t : TimeStampToken} (h : toDomainToken lib token = .ok t) :
    lib.getEncoded token = .ok t.derBytes := by
  rw [toDomainToken] at h
  split at h
  · rename_i derBytes hencoded
    cases h
    exact hencoded
  · cases h

/-- What the acceptance of a response says about its token. -/
theorem extractTokenAndVerify_spec {t : TimeStampToken}
    (h : v.extractTokenAndVerify lib response request = .ok t) :
    ∃ token, response.token = some token ∧ lib.validateResponse response request = .ok () ∧
      v.verifyToken lib token = .ok () ∧ lib.getEncoded token = .ok t.derBytes := by
  simp only [extractTokenAndVerify, except_bind_eq_ok] at h
  obtain ⟨_, -, token, htoken, _, hmatches, _, -, _, hverified, hdomain⟩ := h
  exact ⟨token, token_of_extractTimeStampToken htoken,
    valid_of_verifyResponseMatchesRequest hmatches, hverified, encoded_of_toDomainToken hdomain⟩

/-- The imprint of a token that was made with SHA-384. -/
theorem verifyMessageImprint_of_sha384 {sha384 : Bytes → Bytes}
    (hsha : lib.messageDigest "SHA-384" = some sha384)
    (halg : lib.messageImprintAlg token = idSha384) (data : Bytes) :
    verifyMessageImprint lib token data =
      if sha384 data = lib.messageImprintDigest token then .ok ()
      else .error (.tsa "TSA token message imprint digest does not match expected data" []) := by
  have hname : approvedHashAlgorithms.lookup idSha384 = some "SHA-384" := rfl
  simp only [verifyMessageImprint, halg, hname, hsha, ne_eq, ite_not]
  rfl

/-- A stored token is parsed back to the token that was accepted. -/
theorem verify_of_encoded (hlib : lib.Lawful) {t : TimeStampToken}
    (hencoded : lib.getEncoded token = .ok t.derBytes) (data : Bytes) :
    v.verify lib t data = v.verifyImprintAndToken lib token data := by
  rw [verify, parseDomainToken, hlib.parse token t.derBytes hencoded]
  rfl

/-- A token that was once accepted for the SHA-384 digest of some data verifies against
that data whatever the clock shows later, and against no data with another digest. -/
theorem stored_token_verifies (lib : Library Token Holder) (hlib : lib.Lawful)
    (sha384 : Bytes → Bytes) (hsha : lib.messageDigest "SHA-384" = some sha384)
    (v : TsaTimestampVerifierImpl) (data : Bytes) (nonce : ℕ)
    (response : TimeStampResponse Token) (t : TimeStampToken)
    (haccepted : v.extractTokenAndVerify lib response
      (createTimestampRequest idSha384 (sha384 data) nonce) = .ok t) (later : ℤ) :
    ({ v with instant := later } : TsaTimestampVerifierImpl).verify lib t data = .ok () ∧
      ∀ d, sha384 d ≠ sha384 data →
        ∃ message causes, ({ v with instant := later } : TsaTimestampVerifierImpl).verify lib t d =
          .error (.tsa message causes) := by
  obtain ⟨token, htoken, hvalid, hverified, hencoded⟩ := extractTokenAndVerify_spec haccepted
  obtain ⟨halg, hdigest⟩ := hlib.imprint _ _ token htoken hvalid
  have himprint : ∀ d, verifyMessageImprint lib token d = if sha384 d = sha384 data then .ok ()
      else .error (.tsa "TSA token message imprint digest does not match expected data" []) := by
    intro d
    rw [verifyMessageImprint_of_sha384 hsha halg, hdigest]
    rfl
  constructor
  · rw [verify_of_encoded hlib hencoded, verifyImprintAndToken, himprint, if_pos rfl]
    exact (verifyToken_of_instant later token).trans hverified
  · intro d hd
    refine ⟨"TSA token message imprint digest does not match expected data", [], ?_⟩
    rw [verify_of_encoded hlib hencoded, verifyImprintAndToken, himprint, if_neg hd]
    rfl

end TsaTimestampVerifierImpl

/-- The SHA-384 digest of `abc`. -/
def demoDigest : Bytes :=
  [0xcb, 0x00, 0x75, 0x3f, 0x45, 0xa3, 0x5e, 0x8b, 0xb5, 0xa0, 0x3d, 0x69, 0x9a, 0xc6, 0x50, 0x07,
    0x27, 0x2c, 0x32, 0xab, 0x0e, 0xde, 0xd1, 0x63, 0x1a, 0x8b, 0x60, 0x5a, 0x43, 0xff, 0x5b, 0xed,
    0x80, 0x86, 0x07, 0x2b, 0xa1, 0xe7, 0xcc, 0x23, 0x58, 0xba, 0xec, 0xa1, 0x34, 0xc8, 0x25, 0xa7]

/-- SHA-384 as far as it is looked at here. -/
def demoSha384 (data : Bytes) : Bytes :=
  if data = [0x61, 0x62, 0x63] then demoDigest else List.replicate 48 0

def demoCertificate : X509Certificate := ⟨[0x30], .ec 384, ecdsaWithSHA384, 0, 1000⟩

def demoLibrary : Library Bytes Unit where
  messageImprintAlg _ := idSha384
  messageImprintDigest token := token
  genTime _ := 500
  signers _ := [⟨idSha384, ecdsaWithSHA384⟩]
  certificates _ := .ok [()]
  signerCertificates _ := .ok [()]
  validateToken _ _ := .ok ()
  getEncoded token := .ok token
  parseToken der := .ok (some der)
  validateResponse response request :=
    if response.token = some request.messageImprintDigest ∧
      request.messageImprintAlg = idSha384 then .ok () else .error (.checked "mismatch")
  getCertificate _ := .ok demoCertificate
  buildPath anchors target _ _ := .ok ⟨[target], anchors.headD ⟨none, none⟩⟩
  messageDigest name := if name = "SHA-384" then some demoSha384 else none
  printInstant := toString

theorem demoLibrary_lawful : demoLibrary.Lawful where
  imprint response request token htoken hvalid := by
    simp only [demoLibrary] at hvalid
    split at hvalid
    · rename_i h
      rw [htoken, Option.some.injEq] at h
      exact ⟨h.2.symm, h.1⟩
    · cases hvalid
  parse token der hencoded := by
    cases hencoded
    rfl

def demoVerifier : TsaTimestampVerifierImpl :=
  ⟨500 * 1000000, [⟨some demoCertificate, none⟩], by simp⟩

theorem demo_stored_token_verifies :
    ({ demoVerifier with instant := 10 ^ 18 } : TsaTimestampVerifierImpl).verify demoLibrary
      ⟨demoDigest⟩ [0x61, 0x62, 0x63] = .ok () :=
  (TsaTimestampVerifierImpl.stored_token_verifies demoLibrary demoLibrary_lawful demoSha384 rfl
    demoVerifier [0x61, 0x62, 0x63] 7 ⟨.ok ⟨0, none, none⟩, some demoDigest⟩ ⟨demoDigest⟩
    rfl (10 ^ 18)).1

end PublicEndorsement.Pes.Tsa
