import PublicEndorsement.EndorsementMessages
import PublicEndorsement.TracedComputation

/-!
# Checking a statement against its publisher

The checks that stand between a request and the ledger: the statement's validity
period, the publisher it claims, the policy stored for that publisher, and the
publisher's signature. JSON parsing, the policy bucket and the cryptographic
provider are parameters.
-/

namespace PublicEndorsement.Pes

open Mbs

/-- What the checks read of a parsed claim; the map and its values may be null. -/
structure Claim where
  type : Utf16
  annotations : Option (List (Utf16 × Option Utf16))
  deriving DecidableEq, Repr

namespace Claim

def publisherClaimType : Utf16 := text
  "https://github.com/private-compute-infra-toolkit/public-endorsement-service/blob/main/docs/claims/publisher.md"

def publisherIdKey : Utf16 := text "publisher_id"

end Claim

structure Validity where
  notAfter : Option Utf16
  deriving DecidableEq, Repr

structure OakPredicate where
  validity : Option Validity
  claims : List Claim
  deriving DecidableEq, Repr

def OakPredicate.publisherClaims (predicate : OakPredicate) : List Claim :=
  predicate.claims.filter (fun claim => claim.type = Claim.publisherClaimType)

structure InTotoStatement where
  predicate : Option OakPredicate
  deriving DecidableEq, Repr

/-- A point in time, in nanoseconds from the epoch. -/
abbrev Instant := Int

/-- Libraries that turn bytes and texts into values: `readValue` gives the message of
the `IOException`, or the parsed statement, which is null for the JSON text `null`. -/
structure Parsers where
  readValue : Bytes → Except Utf16 (Option InTotoStatement)
  parseInstant : Utf16 → Option Instant
  showInstant : Instant → Utf16

/-- What the cryptographic provider answers. `none` stands for an
`InvalidKeySpecException` or a `CertificateException`. -/
inductive VerifyFailure where
  | signatureException
  | invalidKeyException
  deriving DecidableEq, Repr

structure Jca where
  generatePublic : Bytes → Option PublicKey
  certificatePublicKey : Bytes → Option PublicKey
  verify : (algorithm : String) → PublicKey → (data signature : Bytes) → Except VerifyFailure Bool

/-- The answer of the policy bucket to one GET; a stream may fail while it is read. -/
inductive PolicyObject where
  | noSuchKey
  | s3Exception
  | failure (e : Exn)
  | stream (content : Option Bytes)

structure PolicyStore where
  bucketName : Utf16
  getObject : Utf16 → PolicyObject
  parseJson : Bytes → Option Proto.PublisherPolicy

namespace PublicKeyParser

variable (jca : Jca)

def parse (verificationMaterial : VerificationMaterial) : Except Exn PublicKey :=
  if verificationMaterial.content = [] then
    .error (.illegalArgument (text "The verification material cannot be empty!"))
  else match verificationMaterial.format with
    | .ecdsaP256Sha256 =>
      match jca.generatePublic verificationMaterial.content with
      | some key => .ok key
      | none => .error (.invalidVerificationMaterial
          (text "Failed to parse EC public key from SPKI format"))
    | .x509Der =>
      match jca.certificatePublicKey verificationMaterial.content with
      | some key => .ok key
      | none => .error (.invalidVerificationMaterial
          (text "Failed to parse public key from X.509 certificate"))
    | .formatUnspecified =>
      .error (.illegalArgument (text "The provided verification material is unsupported!"))

end PublicKeyParser

namespace SignatureVerifierImpl

variable (jca : Jca)

def deduceAlgorithm (publicKey : PublicKey) : Except Exn String :=
  match publicKey.algorithm with
  | "RSA" => .ok "SHA256withRSA"
  | "EC" => .ok "SHA256withECDSA"
  | other => .error (.illegalArgument (text ("Unsupported Public Key Type: " ++ other)))

def verify (signature : StatementSignature) (signedData : Bytes) : Except Exn Unit := do
  let publicKey ← PublicKeyParser.parse jca signature.verificationMaterial
  let signingAlgorithm ← deduceAlgorithm publicKey
  match jca.verify signingAlgorithm publicKey signedData signature.signature with
  | .ok true => .ok ()
  | .ok false => .error (.invalidSignature (text "The signature is invalid!"))
  | .error .signatureException =>
    .error (.invalidSignature (text "The signature verification failed!"))
  | .error .invalidKeyException => .error (.invalidSignature (text "Provided key is invalid!"))

end SignatureVerifierImpl

namespace S3PolicyProvider

variable (store : PolicyStore)

def get (publisherId : Utf16) : Except Exn (Option PublisherPolicy) :=
  match store.getObject publisherId with
  | .noSuchKey => .ok none
  | .s3Exception => .error (.policy (text "Failed to fetch configuration from S3 named: " ++
      store.bucketName ++ text " for key: " ++ publisherId))
  | .failure e => .error e
  | .stream none => .error (.policy (text "Error processing S3 stream for key: " ++ publisherId))
  | .stream (some content) =>
    match store.parseJson content with
    | none => .error (.policy (text "Failed to parse JSON configuration into Protobuf"))
    | some protoConfig => .ok (some (PublisherPolicyMapper.toDomain protoConfig))

end S3PolicyProvider

namespace JsonPublisherIdProvider

variable (parsers : Parsers)

/-- The reader is the service's own mapper, so both parse alike. A null id is
returned as such. -/
def getValidPublisherId (statementBytes : Bytes) : Except Exn (Option Utf16) :=
  match parsers.readValue statementBytes with
  | .error message => .error (.illegalArgument (text "Failed to parse input as JSON: " ++ message))
  | .ok none => .error .nullPointer
  | .ok (some statement) =>
    match statement.predicate with
    | none => .error .nullPointer
    | some predicate =>
      match predicate.publisherClaims with
      | [claim] =>
        match claim.annotations with
        | none => .error .nullPointer
        | some annotations => .ok (annotations.lookup Claim.publisherIdKey).join
      | list => .error (.illegalArgument
          (text (s!"Expected exactly one publisher claim, but found: {list.length}")))

end JsonPublisherIdProvider

def publisherIdProviders (parsers : Parsers) :
    StatementFormat → Option (Bytes → Except Exn (Option Utf16))
  | .jsonIntoto => some (JsonPublisherIdProvider.getValidPublisherId parsers)
  | .formatUnspecified => none

/-- What the service does to the world, as seen from the service; `inside` are events
that happen within a port it called. -/
inductive Event (ω : Type) where
  | approvePublisher (publisherId : Utf16)
  | post (endorsement : Endorsement)
  | generate (data : Bytes) (certificate : X509Certificate) (privateKey : PrivateKey)
  | incrementEndorsementCounter (publisherId : Utf16)
  | inside (e : ω)

variable {ω : Type}

namespace PublisherVerifier

variable (store : PolicyStore)

def verify (publisherId : Utf16) (identity : CallerIdentity) (signature : StatementSignature) :
    Traced (Event ω) Exn Unit := do
  let escapedPublisherId := CallerIdentity.escape publisherId
  match ← Traced.quiet (S3PolicyProvider.get store escapedPublisherId) with
  | none => throw (.illegalArgument (text "No policy found for Publisher ID: " ++ publisherId ++
      text " escaped to: " ++ escapedPublisherId))
  | some policy =>
    let isOidcTokenMatchingPolicy := policy.oidcTokenClaims.any (fun claims =>
      identity.issuer = claims.issuer && identity.subject = claims.subject)
    if !isOidcTokenMatchingPolicy then
      throw (.illegalArgument
        (text "Client OIDC identity mismatch. No matching claims found for Issuer: " ++
          identity.issuer ++ text ", Subject: " ++ identity.subject))
    if publisherId ≠ policy.publisherId then
      throw (.illegalArgument (text "Publisher ID mismatch. Expected: " ++ policy.publisherId ++
        text ", Got: " ++ publisherId))
    if !policy.verificationMaterialList.contains signature.verificationMaterial then
      throw (.illegalArgument
        (text "The provided verification material is not authorized for this client role."))
    Traced.emit (.approvePublisher publisherId)

end PublisherVerifier

namespace EndorsementVerifier

variable (parsers : Parsers) (store : PolicyStore)

def validatePredicateType (inTotoStatement : Option InTotoStatement) : Except Exn OakPredicate :=
  match inTotoStatement.bind InTotoStatement.predicate with
  | none => .error (.illegalArgument (text "Statement or predicate cannot be null"))
  | some predicate => .ok predicate

def parseInstant (timestamp : Utf16) : Except Exn Instant :=
  match parsers.parseInstant timestamp with
  | some t => .ok t
  | none => .error (.illegalArgument
      (text "Invalid RFC 3339 timestamp in statement notAfter: " ++ timestamp))

def validateNotAfter (predicate : OakPredicate) (maxNotAfter : Instant) : Except Exn Unit := do
  match predicate.validity with
  | none => throw (.illegalArgument (text "Failed to resolve predicate validity"))
  | some validity =>
    match validity.notAfter with
    | none =>
      throw (.illegalArgument (text "Failed to resolve predicate validity expiration date"))
    | some notAfterStr =>
      let endorsementNotAfter ← parseInstant parsers notAfterStr
      if maxNotAfter < endorsementNotAfter then
        throw (.illegalArgument (text "predicate.validity.notAfter (" ++ notAfterStr ++
          text ") must be on or before " ++ parsers.showInstant maxNotAfter ++
          text ", the latest expiration PES currently allows"))

/-- A null publisher id fails when it is escaped. -/
def validatePublisherAndGetPublisherId (statement : Statement) (identity : CallerIdentity)
    (signature : StatementSignature) : Traced (Event ω) Exn Utf16 := do
  match publisherIdProviders parsers statement.format with
  | none => throw (.illegalArgument (text "Provider resolution failed for statement format: " ++
      match statement.format with
      | .formatUnspecified => text "FORMAT_UNSPECIFIED"
      | .jsonIntoto => text "JSON_INTOTO"))
  | some provider =>
    match ← Traced.quiet (provider statement.serialized) with
    | none => throw .nullPointer
    | some publisherId => do
      PublisherVerifier.verify store publisherId identity signature
      pure publisherId

def parseAndVerify (statement : Statement) (identity : CallerIdentity)
    (signature : StatementSignature) (maxNotAfter : Instant) :
    Traced (Event ω) Exn VerifiedEndorsement := do
  if statement.format = .formatUnspecified then
    throw (.illegalArgument (text "The statement format has to be specified"))
  match parsers.readValue statement.serialized with
  | .error message =>
    throw (.illegalArgument (text "Failed to parse statement as JSON: " ++ message))
  | .ok inTotoStatement => do
    let predicate ← Traced.quiet (validatePredicateType inTotoStatement)
    Traced.quiet (validateNotAfter parsers predicate maxNotAfter)
    let publisherId ← validatePublisherAndGetPublisherId parsers store statement identity signature
    pure ⟨publisherId⟩

end EndorsementVerifier
end PublicEndorsement.Pes
