import PublicEndorsement.EndorsementVerification
import PublicEndorsement.PreAuthentication

/-!
# Creating an endorsement

`PublicEndorsementService.createEndorsement` over its ports. The ledger and the
signature generator behave arbitrarily; what they did is in the trace of the
computation.
-/

namespace PublicEndorsement.Pes

open Mbs

variable {ω : Type}

/-- What is injected into the service, and the id it draws. `generate` also receives
how many signatures were requested before, since signing may be randomised. -/
structure Ports (ω : Type) where
  parsers : Parsers
  store : PolicyStore
  jca : Jca
  getActiveTrustPackage : Except Exn (List MeasurementBoundCertificate)
  post : Endorsement → Traced ω Exn TLogReceipt
  generate : ℕ → Bytes → X509Certificate → PrivateKey → Traced ω Exn Signature
  randomUUID : Utf16

/-- `getNotAfter().toInstant()`; certificate dates have millisecond precision. -/
def notAfterInstant (certificate : X509Certificate) : Instant := certificate.notAfter * 1000000

namespace PublicEndorsementService

variable (ports : Ports ω)

def namePrefix : Utf16 := text "endorsements/"

def getEarliestCertificateExpiry (mbcs : List MeasurementBoundCertificate) : Except Exn Instant :=
  match (mbcs.map (fun mbc => notAfterInstant mbc.certificate)).min? with
  | some t => .ok t
  | none => .error (.illegalState (text "No active certificates in trust package"))

def signWithAll (dataToSign : Bytes) (mbcs : List MeasurementBoundCertificate) :
    Traced (Event ω) Exn (List Signature) :=
  mbcs.zipIdx.mapM (fun (mbc, n) => do
    Traced.emit (.generate dataToSign mbc.certificate mbc.privateKey)
    Traced.embed .inside (ports.generate n dataToSign mbc.certificate mbc.privateKey))

def createEndorsement (publicEndorsement : Endorsement) (identity : CallerIdentity) :
    Traced (Event ω) Exn Endorsement := do
  if publicEndorsement.statement.format = .formatUnspecified then
    throw (.illegalArgument (text "The statement format has to be specified"))
  let mbcs ← Traced.quiet ports.getActiveTrustPackage
  let maxNotAfter ← Traced.quiet (getEarliestCertificateExpiry mbcs)
  let verifiedEndorsement ← EndorsementVerifier.parseAndVerify ports.parsers ports.store
    publicEndorsement.statement identity publicEndorsement.statementSignature maxNotAfter
  Traced.quiet (SignatureVerifierImpl.verify ports.jca publicEndorsement.statementSignature
    publicEndorsement.statement.serialized)
  let endorsementName := namePrefix ++ ports.randomUUID
  let posted : Endorsement := { publicEndorsement with name := endorsementName }
  Traced.emit (.post posted)
  let tLogReceipt ← Traced.embed .inside (ports.post posted)
  let dataToSign := PreAuthenticationEncoding.calculate publicEndorsement.statement
    publicEndorsement.statementSignature tLogReceipt
  let endorsementSignatures ← signWithAll ports dataToSign mbcs
  Traced.emit (.incrementEndorsementCounter verifiedEndorsement.publisherId)
  pure
    { name := endorsementName
      statement := publicEndorsement.statement
      statementSignature := publicEndorsement.statementSignature
      endorsementSignatures := endorsementSignatures
      tLogReceipt := tLogReceipt }

end PublicEndorsementService
end PublicEndorsement.Pes
