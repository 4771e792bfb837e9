import PublicEndorsement.EndorsementService

/-!
# The ledger client, the signature generator and the gRPC handler

The adapters around the service as they are deployed. Serialisation, JSON, HTTP,
signing and the time stamp authority are parameters; what is sent to the ledger
and to the response observer is recorded.
-/

namespace PublicEndorsement.Pes

open Mbs

namespace Proto

structure Entry where
  name : Utf16
  rawEntry : Bytes
  signature : Bytes
  signingAlgorithm : Utf16
  keyId : Utf16
  deriving DecidableEq, Repr

def Entry.ofRawEntry (rawEntry : Bytes) : Entry := ⟨[], rawEntry, [], [], []⟩

end Proto

/-- One POST: a response, whose body is missing if it has no entity, a status outside 2xx, or a
failed exchange. -/
inductive HttpOutcome where
  | body (responseBody : Option Utf16)
  | httpResponseException (statusCode : ℕ)
  | ioException
  | failure (e : Exn)

inductive CertificateObject where
  | stream (content : Option Bytes)
  | s3Exception
  | failure (e : Exn)

structure LedgerPorts where
  tLedgerUrl : Utf16
  certificateBucketName : Utf16
  certificateFileName : Utf16
  toByteString : Proto.PublicEndorsementMessage → Bytes
  print : Proto.Entry → Utf16
  execute : (url body : Utf16) → HttpOutcome
  merge : Option Utf16 → Option Proto.Entry
  certificateObject : CertificateObject

/-- The request for one entry; its body is the JSON form of the entry. -/
inductive LedgerEvent where
  | httpPost (url : Utf16) (entry : Proto.Entry)
  deriving DecidableEq, Repr

namespace TLedgerCertificatFetcher

def fetch (ports : LedgerPorts) : Except Exn Bytes :=
  match ports.certificateObject with
  | .stream (some content) => .ok content
  | .stream none => .error (.tLog (text "Failed to read TLedger certificate from S3 response"))
  | .s3Exception => .error (.tLog (text "Failed to fetch TLedger certificate from S3 named: " ++
      ports.certificateBucketName ++ text " for key: " ++ ports.certificateFileName))
  | .failure e => .error e

end TLedgerCertificatFetcher

namespace TLedger

variable (jca : Jca) (ports : LedgerPorts)

def tledgerPostSufix : Utf16 := text "/v1/entries"

def formatRawEntry (publicEndorsement : Endorsement) : Bytes :=
  ports.toByteString { EndorsementMapper.toProto publicEndorsement with
    endorsementSignatures := [], tlogReceipt := none }

/-- Only an invalid signature is reported as a failure of the ledger. -/
def verifyTLedgerSignature (entry : Proto.Entry) : Except Exn Unit := do
  let certificateBytes ← TLedgerCertificatFetcher.fetch ports
  match SignatureVerifierImpl.verify jca ⟨entry.signature, ⟨certificateBytes, .x509Der⟩⟩
      entry.rawEntry with
  | .error (.invalidSignature _) =>
    .error (.tLog (text "Failed to verify TLedger signature for entry: " ++ entry.name))
  | result => result

def post (publicEndorsement : Endorsement) : Traced LedgerEvent Exn TLogReceipt := do
  let rawEntry := formatRawEntry ports publicEndorsement
  let entry := Proto.Entry.ofRawEntry rawEntry
  let fullUrl := ports.tLedgerUrl ++ tledgerPostSufix
  Traced.emit (.httpPost fullUrl entry)
  match ports.execute fullUrl (ports.print entry) with
  | .httpResponseException statusCode =>
    throw (.tLog (text (s!"TLedger API Error: {statusCode}")))
  | .ioException => throw (.tLog (text "Failed to communicate with Transparency Ledger"))
  | .failure e => throw e
  | .body responseBody =>
    match ports.merge responseBody with
    | none => throw (.tLog (text "Failed to parse TLedger response"))
    | some resultEntry => do
      if rawEntry ≠ resultEntry.rawEntry then
        throw (.tLog (text "TLedger response raw entry does not match sent raw entry"))
      Traced.quiet (verifyTLedgerSignature jca ports resultEntry)
      pure ⟨resultEntry.name⟩

end TLedger

/-- Signing and time stamping, which may answer differently each time they are asked;
a failing time stamp authority is logged and ignored. -/
structure SigningPorts where
  sign : ℕ → (algorithm : String) → PrivateKey → (data : Bytes) → Option Bytes
  requestTimeStampToken : ℕ → Bytes → Option (Option TimeStampToken)

namespace SignatureGeneratorImpl

variable (ports : SigningPorts)

def getCertificateBytes (certificate : X509Certificate) : Except Exn Bytes :=
  match certificate.encoded with
  | some der => .ok der
  | none => .error (.pesSignature (text "Failed to retrieve DER encoded certificate"))

def getSigningAlgorithm (keyAlgorithm : String) : Except Exn String :=
  match keyAlgorithm with
  | "RSA" => .ok "SHA256withRSA"
  | "EC" => .ok "SHA256withECDSA"
  | "DSA" => .ok "SHA256withDSA"
  | other => .error (.pesSignature (text ("Unsupported key algorithm: " ++ other)))

def sign (n : ℕ) (data : Bytes) (privateKey : PrivateKey) (algorithm : String) :
    Except Exn Bytes :=
  match ports.sign n algorithm privateKey data with
  | some signature => .ok signature
  | none => .error (.pesSignature (text "Signing operation failed"))

def generate (n : ℕ) (data : Bytes) (certificate : X509Certificate) (privateKey : PrivateKey) :
    Traced LedgerEvent Exn Signature := do
  let certificateDer ← Traced.quiet (getCertificateBytes certificate)
  let algorithm ← Traced.quiet (getSigningAlgorithm privateKey.algorithm)
  let signatureBytes ← Traced.quiet (sign ports n data privateKey algorithm)
  let token := (ports.requestTimeStampToken n signatureBytes).join
  pure ⟨signatureBytes, ⟨certificateDer, .x509Der⟩, token⟩

end SignatureGeneratorImpl

structure DeployedPorts where
  parsers : Parsers
  store : PolicyStore
  jca : Jca
  getActiveTrustPackage : Except Exn (List MeasurementBoundCertificate)
  ledger : LedgerPorts
  signing : SigningPorts
  randomUUID : Utf16

/-- The bindings of `PesModule`. -/
def DeployedPorts.ports (deployed : DeployedPorts) : Ports LedgerEvent where
  parsers := deployed.parsers
  store := deployed.store
  jca := deployed.jca
  getActiveTrustPackage := deployed.getActiveTrustPackage
  post := TLedger.post deployed.jca deployed.ledger
  generate := SignatureGeneratorImpl.generate deployed.signing
  randomUUID := deployed.randomUUID

inductive StatusCode where
  | unauthenticated
  | unavailable
  | invalidArgument
  | failedPrecondition
  deriving DecidableEq, Repr

inductive ObserverEvent where
  | onNext (response : Proto.PublicEndorsementMessage)
  | onCompleted
  | onError (code : StatusCode) (description : Utf16)
  deriving DecidableEq, Repr

inductive HandlerEvent where
  | service (e : Event LedgerEvent)
  | observer (o : ObserverEvent)

/-- What the JWT interceptor left in the call's context. -/
structure CallContext where
  issuer : Option Utf16
  subject : Option Utf16
  audiences : Option (List Utf16)

namespace PesGrpcHandler

variable (deployed : DeployedPorts)

def observe (o : ObserverEvent) : Traced HandlerEvent Exn Unit := Traced.emit (.observer o)

/-- The catch clauses; any other exception leaves the handler. -/
def report : Exn → Traced HandlerEvent Exn Unit
  | .tLog message => observe (.onError .unavailable message)
  | .illegalArgument message =>
    observe (.onError .invalidArgument (text "Invalid request: " ++ message))
  | .invalidSignature message =>
    observe (.onError .invalidArgument (text "Invalid request: " ++ message))
  | .invalidVerificationMaterial message =>
    observe (.onError .invalidArgument (text "Invalid request: " ++ message))
  | .policy message => observe (.onError .failedPrecondition
      (text "Error fetching publisher's configuration: " ++ message))
  | .illegalState message =>
    observe (.onError .unavailable (text "Service not ready: " ++ message))
  | e => throw e

def createPublicEndorsement (context : CallContext)
    (request : Proto.CreatePublicEndorsementRequest) : Traced HandlerEvent Exn Unit :=
  match context.issuer, context.subject, context.audiences with
  | some issuer, some subject, some audiences => do
    let callerIdentity ← Traced.quiet (CallerIdentity.create issuer subject audiences)
    tryCatch
      (do
        let publicEndorsement ← Traced.embed .service
          (PublicEndorsementService.createEndorsement deployed.ports
            (EndorsementMapper.toDomain request.getPublicEndorsement) callerIdentity)
        observe (.onNext (EndorsementMapper.toProto publicEndorsement))
        observe .onCompleted)
      report
  | _, _, _ => observe (.onError .unauthenticated (text "Missing JWT token"))

end PesGrpcHandler
end PublicEndorsement.Pes
