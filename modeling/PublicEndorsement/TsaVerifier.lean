import Mathlib.Tactic

/-!
# Verification of timestamp tokens

`TsaTimestampVerifierImpl`, which accepts the response of a timestamping authority when it
is issued and verifies the token again later on. What Bouncy Castle and the platform
compute is a parameter; the exceptions they may throw are told apart as far as the
`catch` clauses do.
-/

namespace PublicEndorsement.Pes.Tsa

abbrev Bytes := List UInt8

abbrev Oid := List ℕ

def printOid (oid : Oid) : String := ".".intercalate (oid.map Nat.repr)

def idSha256 : Oid := [2, 16, 840, 1, 101, 3, 4, 2, 1]
def idSha384 : Oid := [2, 16, 840, 1, 101, 3, 4, 2, 2]
def idSha512 : Oid := [2, 16, 840, 1, 101, 3, 4, 2, 3]
def rsaEncryption : Oid := [1, 2, 840, 113549, 1, 1, 1]
def sha256WithRSAEncryption : Oid := [1, 2, 840, 113549, 1, 1, 11]
def sha384WithRSAEncryption : Oid := [1, 2, 840, 113549, 1, 1, 12]
def sha512WithRSAEncryption : Oid := [1, 2, 840, 113549, 1, 1, 13]
def idEcPublicKey : Oid := [1, 2, 840, 10045, 2, 1]
def ecdsaWithSHA256 : Oid := [1, 2, 840, 10045, 4, 3, 2]
def ecdsaWithSHA384 : Oid := [1, 2, 840, 10045, 4, 3, 3]
def ecdsaWithSHA512 : Oid := [1, 2, 840, 10045, 4, 3, 4]

def approvedHashAlgorithms : List (Oid × String) :=
  [(idSha256, "SHA-256"), (idSha384, "SHA-384"), (idSha512, "SHA-512")]

def approvedSignatureAlgorithms : List Oid :=
  [sha256WithRSAEncryption, sha384WithRSAEncryption, sha512WithRSAEncryption,
    ecdsaWithSHA256, ecdsaWithSHA384, ecdsaWithSHA512]

def approvedCmsEncryptionAlgorithms : List Oid :=
  approvedSignatureAlgorithms ++ [rsaEncryption, idEcPublicKey]

def minRsaKeyBits : ℕ := 2048

def minEcFieldBits : ℕ := 256

def maxClockSkew : ℤ := 15 * 60 * 1000000000

/-- An exception by the classes that are caught apart from each other. The first of the
`causes` of a `TsaException` is its cause, and the others are suppressed. -/
inductive JavaException where
  | tsa (message : String) (causes : List JavaException)
  | certificate (message : String)
  | checked (message : String)
  | unchecked (message : String)

def JavaException.getMessage : JavaException → String
  | .tsa message _ => message
  | .certificate message => message
  | .checked message => message
  | .unchecked message => message

inductive PublicKey where
  | rsa (modulusBits : ℕ)
  | ec (fieldSize : ℕ)
  | other (algorithm : String)
  deriving DecidableEq, Repr

/-- Times of certificates and tokens are in milliseconds. -/
structure X509Certificate where
  encoded : Bytes
  publicKey : PublicKey
  sigAlgOid : Oid
  notBefore : ℤ
  notAfter : ℤ
  deriving DecidableEq, Repr

structure TrustAnchor where
  trustedCert : Option X509Certificate
  caPublicKey : Option PublicKey
  deriving DecidableEq, Repr

structure CertPathResult where
  certPath : List X509Certificate
  trustAnchor : TrustAnchor

structure SignerInfo where
  digestAlg : Oid
  encryptionAlg : Oid
  deriving DecidableEq, Repr

structure TimeStampRequest where
  messageImprintAlg : Oid
  messageImprintDigest : Bytes
  nonce : Option ℕ
  certReq : Bool
  deriving DecidableEq, Repr

structure ResponseStatus where
  status : ℤ
  statusString : Option String
  failInfo : Option UInt32
  deriving DecidableEq, Repr

structure TimeStampResponse (Token : Type) where
  status : Except JavaException ResponseStatus
  token : Option Token

structure TimeStampToken where
  derBytes : Bytes
  deriving DecidableEq, Repr

/-- What is computed outside of this repository. `signerCertificates` are the certificates
that match the signer id of a token, `validateToken` builds a verifier from a certificate
and validates the signature of the token with it, and `buildPath` is the PKIX builder
with revocation checking disabled. An instant is printed by `printInstant`. -/
structure Library (Token Holder : Type) where
  messageImprintAlg : Token → Oid
  messageImprintDigest : Token → Bytes
  genTime : Token → ℤ
  signers : Token → List SignerInfo
  certificates : Token → Except JavaException (List Holder)
  signerCertificates : Token → Except JavaException (List Holder)
  validateToken : Token → Holder → Except JavaException Unit
  getEncoded : Token → Except JavaException Bytes
  parseToken : Bytes → Except JavaException (Option Token)
  validateResponse : TimeStampResponse Token → TimeStampRequest → Except JavaException Unit
  getCertificate : Holder → Except JavaException X509Certificate
  buildPath : List TrustAnchor → X509Certificate → List X509Certificate → ℤ →
    Except JavaException CertPathResult
  messageDigest : String → Option (Bytes → Bytes)
  printInstant : ℤ → String

/-- The flags of `PKIFailureInfo` that have a name, in the order they are printed. -/
def failureInfoFlags : List (UInt32 × String) :=
  [(0x80, "badAlg"), (0x40, "badMessageCheck"), (0x20, "badRequest"), (0x10, "badTime"),
    (0x8, "badCertId"), (0x4, "badDataFormat"), (0x2, "wrongAuthority"), (0x1, "incorrectData"),
    (0x8000, "missingTimeStamp"), (0x4000, "badPOP"), (0x200, "timeNotAvailable"),
    (0x100, "unacceptedPolicy"), (0x800000, "unacceptedExtension"),
    (0x400000, "addInfoNotAvailable"), (0x40000000, "systemFailure")]

def formatFailInfo : Option UInt32 → String
  | none => "none"
  | some value =>
    let reasons := (failureInfoFlags.filter (fun entry => value &&& entry.1 ≠ 0)).map Prod.snd
    "0x" ++ String.ofList (Nat.toDigits 16 value.toNat) ++ " (" ++
      (if reasons.isEmpty then "unknown" else ", ".intercalate reasons) ++ ")"

def ResponseStatus.print (s : ResponseStatus) : String :=
  "Status: " ++ toString s.status ++ ", info: " ++ s.statusString.getD "null" ++
    ", failureInfo: " ++ formatFailInfo s.failInfo

def validatePublicKey : PublicKey → Except JavaException Unit
  | .rsa bitLength =>
    if bitLength < minRsaKeyBits then throw (.checked ("RSA key size must be at least " ++
      toString minRsaKeyBits ++ " bits, but was " ++ toString bitLength))
    else pure ()
  | .ec fieldSize =>
    if fieldSize < minEcFieldBits then throw (.checked ("EC key field size must be at least " ++
      toString minEcFieldBits ++ " bits, but was " ++ toString fieldSize))
    else pure ()
  | .other algorithm =>
    throw (.checked ("Unsupported certificate public key algorithm: " ++ algorithm))

def isTrustAnchorValidAt (anchor : TrustAnchor) (validationDate : ℤ) : Bool :=
  match anchor.trustedCert with
  | none => true
  | some cert => decide (cert.notBefore ≤ validationDate ∧ validationDate ≤ cert.notAfter)

def validatePathCertificate (cert : X509Certificate) : Except JavaException Unit :=
  if cert.sigAlgOid ∉ approvedSignatureAlgorithms then
    throw (.checked ("Unsupported or unapproved certificate signature algorithm OID: " ++
      printOid cert.sigAlgOid))
  else validatePublicKey cert.publicKey

def validateAnchor (anchor : TrustAnchor) : Except JavaException Unit :=
  match anchor.trustedCert, anchor.caPublicKey with
  | some cert, _ => validatePublicKey cert.publicKey
  | none, some caPublicKey => validatePublicKey caPublicKey
  | none, none => pure ()

def checkSigner (signer : SignerInfo) : Except JavaException Unit :=
  if signer.digestAlg ∉ approvedHashAlgorithms.map Prod.fst then
    throw (.tsa ("Unsupported or unapproved TSA CMS digest algorithm OID: " ++
      printOid signer.digestAlg) [])
  else if signer.encryptionAlg ∉ approvedCmsEncryptionAlgorithms then
    throw (.tsa ("Unsupported or unapproved TSA CMS signature algorithm OID: " ++
      printOid signer.encryptionAlg) [])
  else pure ()

def combineExceptions : List JavaException → JavaException
  | [] => .unchecked "Index 0 out of bounds for length 0"
  | [e] => e
  | failures => .tsa ("Failed to verify any signer certificate candidate: " ++
      "; ".intercalate (failures.map JavaException.getMessage)) failures

def createTimestampRequest (hashAlgorithmOid : Oid) (digest : Bytes) (nonce : ℕ) :
    TimeStampRequest where
  messageImprintAlg := hashAlgorithmOid
  messageImprintDigest := digest
  nonce := some nonce
  certReq := true

/-- `instant` is what the clock shows. -/
structure TsaTimestampVerifierImpl where
  instant : ℤ
  trustAnchors : List TrustAnchor
  nonempty : trustAnchors ≠ []

namespace TsaTimestampVerifierImpl

variable {Token Holder : Type} (lib : Library Token Holder) (v : TsaTimestampVerifierImpl)

def verifyResponseStatus (response : TimeStampResponse Token) : Except JavaException Unit :=
  match response.status with
  | .error e => throw (.tsa "Failed to read TSA response status" [e])
  | .ok s =>
    if s.status ≠ 0 ∧ s.status ≠ 1 then throw (.tsa ("TSA rejected request. " ++ s.print) [])
    else pure ()

def extractTimeStampToken (response : TimeStampResponse Token) : Except JavaException Token :=
  match response.token with
  | some token => pure token
  | none => do
    let s ← response.status
    throw (.tsa ("TSA response did not contain a timestamp token. " ++ s.print) [])

def verifyResponseMatchesRequest (response : TimeStampResponse Token)
    (request : TimeStampRequest) : Except JavaException Unit :=
  if request.nonce = none then throw (.tsa "TimeStampRequest must contain a nonce" [])
  else if request.messageImprintAlg ∉ approvedHashAlgorithms.map Prod.fst then
    throw (.tsa ("Unsupported or unapproved TSA hash algorithm OID: " ++
      printOid request.messageImprintAlg) [])
  else match lib.validateResponse response request with
    | .ok () => pure ()
    | .error e => throw (.tsa "TSA response validation failed" [e])

def verifyTimeSkew (token : Token) : Except JavaException Unit :=
  let genTime := lib.genTime token * 1000000
  if |genTime - v.instant| > maxClockSkew then
    throw (.tsa ("TSA timestamp genTime (" ++ lib.printInstant genTime ++
      ") exceeds maximum allowed clock skew (PT15M) from current time (" ++
      lib.printInstant v.instant ++ ")") [])
  else pure ()

def extractSignerCertificates (token : Token) : Except JavaException (List Holder) :=
  match lib.signerCertificates token with
  | .error e => throw (.tsa "Failed to extract signer certificates from TSA token" [e])
  | .ok [] => throw (.tsa "TSA token did not include signer certificate" [])
  | .ok candidates => pure candidates

def verifyTokenSignature (token : Token) (candidate : Holder) : Except JavaException Unit := do
  (lib.signers token).forM checkSigner
  match lib.validateToken token candidate with
  | .ok () => pure ()
  | .error e => throw (.tsa "Failed to validate TSA token CMS signature" [e])

/-- The certificates of the token that can be read. A malformed one is skipped. -/
def readCertificates : List Holder → Except JavaException (List X509Certificate)
  | [] => pure []
  | holder :: holders =>
    match lib.getCertificate holder with
    | .ok cert => do
      let certs ← readCertificates holders
      pure (cert :: certs)
    | .error (.certificate _) => readCertificates holders
    | .error e => throw e

def validateCertificateChain (signerCertHolder : Holder) (certStore : List Holder)
    (anchors : List TrustAnchor) (validationDate : ℤ) : Except JavaException Unit :=
  let validAnchors := anchors.filter (isTrustAnchorValidAt · validationDate)
  if validAnchors = [] then
    throw (.checked ("No configured trust anchors are valid at " ++
      lib.printInstant validationDate))
  else do
    let signerX509Cert ← lib.getCertificate signerCertHolder
    let x509Certs ← readCertificates lib certStore
    let result ← lib.buildPath validAnchors signerX509Cert x509Certs validationDate
    validatePublicKey signerX509Cert.publicKey
    result.certPath.forM validatePathCertificate
    validateAnchor result.trustAnchor

def verifyCertificateChain (token : Token) (candidate : Holder) : Except JavaException Unit :=
  let validated := do
    let certStore ← lib.certificates token
    validateCertificateChain lib candidate certStore v.trustAnchors (lib.genTime token)
  match validated with
  | .ok () => pure ()
  | .error e => throw (.tsa "Failed to validate TSA certificate chain" [e])

/-- Whether a candidate passes, or else the exception to be kept. -/
def tryVerifyCandidate (token : Token) (candidate : Holder) :
    Except JavaException (Option JavaException) :=
  let verified := do
    verifyTokenSignature lib token candidate
    v.verifyCertificateChain lib token candidate
  match verified with
  | .ok () => pure none
  | .error (.tsa message causes) => pure (some (.tsa message causes))
  | .error e => throw e

def verifyCandidates (token : Token) (failures : List JavaException) :
    List Holder → Except JavaException Unit
  | [] => throw (combineExceptions failures)
  | candidate :: candidates => do
    match ← v.tryVerifyCandidate lib token candidate with
    | none => pure ()
    | some e => verifyCandidates token (failures ++ [e]) candidates

/-- The private `verify`, which looks at the token only. -/
def verifyToken (token : Token) : Except JavaException Unit := do
  let candidates ← extractSignerCertificates lib token
  v.verifyCandidates lib token [] candidates

def verifyMessageImprint (token : Token) (expectedData : Bytes) : Except JavaException Unit :=
  let algOid := lib.messageImprintAlg token
  match approvedHashAlgorithms.lookup algOid with
  | none => throw (.tsa ("Unsupported or unapproved TSA hash algorithm OID: " ++
      printOid algOid) [])
  | some hashAlgName =>
    match lib.messageDigest hashAlgName with
    | none => throw (.unchecked ("Hash algorithm not available: " ++ hashAlgName))
    | some digest =>
      if digest expectedData ≠ lib.messageImprintDigest token then
        throw (.tsa "TSA token message imprint digest does not match expected data" [])
      else pure ()

def toDomainToken (token : Token) : Except JavaException TimeStampToken :=
  match lib.getEncoded token with
  | .ok derBytes => pure ⟨derBytes⟩
  | .error e => throw (.tsa "Failed to encode verified TSA timestamp token" [e])

def extractTokenAndVerify (response : TimeStampResponse Token) (request : TimeStampRequest) :
    Except JavaException TimeStampToken := do
  verifyResponseStatus response
  let token ← extractTimeStampToken response
  verifyResponseMatchesRequest lib response request
  v.verifyTimeSkew lib token
  v.verifyToken lib token
  toDomainToken lib token

/-- `verify` of a Bouncy Castle token. -/
def verifyImprintAndToken (token : Token) (expectedData : Bytes) : Except JavaException Unit := do
  verifyMessageImprint lib token expectedData
  v.verifyToken lib token

def parseDomainToken (token : TimeStampToken) : Except JavaException Token :=
  match lib.parseToken token.derBytes with
  | .ok none => throw (.tsa "TSA timestamp token DER bytes cannot be empty" [])
  | .ok (some bcToken) => pure bcToken
  | .error e => throw (.tsa "Failed to parse TSA timestamp token" [e])

def verify (token : TimeStampToken) (expectedData : Bytes) : Except JavaException Unit := do
  let bcToken ← parseDomainToken lib token
  v.verifyImprintAndToken lib bcToken expectedData

end TsaTimestampVerifierImpl
end PublicEndorsement.Pes.Tsa
