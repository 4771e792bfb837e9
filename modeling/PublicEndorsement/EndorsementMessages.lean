import PublicEndorsement.EndorsementDomain

/-!
# Wire messages and their mappers

The protocol buffer messages of the API with their presence bits and unknown
fields, and the mappers between them and the domain records. Getters of absent
fields return default values; nothing but the declared fields is carried over.
-/

namespace PublicEndorsement.Pes

open Mbs

namespace Proto

abbrev UnknownFields := Bytes

inductive StatementFormat where
  | formatUnspecified
  | jsonIntoto
  | unrecognized (number : ℕ)
  deriving DecidableEq, Repr

structure Statement where
  format : StatementFormat
  serialized : Bytes
  unknownFields : UnknownFields := []
  deriving DecidableEq, Repr

structure X509Der where
  derBytes : Bytes
  unknownFields : UnknownFields := []
  deriving DecidableEq, Repr

structure EcdsaP256PublicKey where
  derBytes : Bytes
  unknownFields : UnknownFields := []
  deriving DecidableEq, Repr

inductive MaterialCase where
  | x509Certificate (certificate : X509Der)
  | ecdsaP256Sha256 (key : EcdsaP256PublicKey)
  deriving DecidableEq, Repr

structure VerificationMaterial where
  material : Option MaterialCase
  unknownFields : UnknownFields := []
  deriving DecidableEq, Repr

structure TimeStampToken where
  derBytes : Bytes
  unknownFields : UnknownFields := []
  deriving DecidableEq, Repr

structure Signature where
  signature : Bytes
  verificationMaterial : Option VerificationMaterial
  timeStampToken : Option TimeStampToken
  unknownFields : UnknownFields := []
  deriving DecidableEq, Repr

structure TLogReceipt where
  entryId : Utf16
  unknownFields : UnknownFields := []
  deriving DecidableEq, Repr

structure PublicEndorsementMessage where
  name : Utf16
  statement : Option Statement
  statementSignature : Option Signature
  endorsementSignatures : List Signature
  tlogReceipt : Option TLogReceipt
  unknownFields : UnknownFields := []
  deriving DecidableEq, Repr

structure CreatePublicEndorsementRequest where
  publicEndorsement : Option PublicEndorsementMessage
  unknownFields : UnknownFields := []

structure OidcTokenClaims where
  issuer : Utf16
  subject : Utf16

structure PublisherPolicy where
  publisherId : Utf16
  oidcTokenClaims : List OidcTokenClaims
  verificationMaterial : List VerificationMaterial

def Statement.default : Statement := { format := .formatUnspecified, serialized := [] }
def VerificationMaterial.default : VerificationMaterial := { material := none }
def TLogReceipt.default : TLogReceipt := { entryId := [] }

def Signature.default : Signature :=
  { signature := [], verificationMaterial := none, timeStampToken := none }

def PublicEndorsementMessage.default : PublicEndorsementMessage :=
  { name := [], statement := none, statementSignature := none, endorsementSignatures := [],
    tlogReceipt := none }

def Signature.getVerificationMaterial (s : Signature) : VerificationMaterial :=
  s.verificationMaterial.getD .default

def PublicEndorsementMessage.getStatement (e : PublicEndorsementMessage) : Statement :=
  e.statement.getD .default

def PublicEndorsementMessage.getStatementSignature (e : PublicEndorsementMessage) : Signature :=
  e.statementSignature.getD .default

def PublicEndorsementMessage.getTlogReceipt (e : PublicEndorsementMessage) : TLogReceipt :=
  e.tlogReceipt.getD .default

def CreatePublicEndorsementRequest.getPublicEndorsement (r : CreatePublicEndorsementRequest) :
    PublicEndorsementMessage := r.publicEndorsement.getD .default

end Proto

namespace VerificationMaterialMapper

def toDomain (proto : Proto.VerificationMaterial) : VerificationMaterial :=
  match proto.material with
  | some (.x509Certificate certificate) => ⟨certificate.derBytes, .x509Der⟩
  | some (.ecdsaP256Sha256 key) => ⟨key.derBytes, .ecdsaP256Sha256⟩
  | none => ⟨[], .formatUnspecified⟩

def toProto (domain : VerificationMaterial) : Proto.VerificationMaterial :=
  match domain.format with
  | .x509Der => { material := some (.x509Certificate { derBytes := domain.content }) }
  | .ecdsaP256Sha256 => { material := some (.ecdsaP256Sha256 { derBytes := domain.content }) }
  | .formatUnspecified => { material := none }

end VerificationMaterialMapper

namespace StatementMapper

def mapFormatToRecord : Proto.StatementFormat → StatementFormat
  | .jsonIntoto => .jsonIntoto
  | _ => .formatUnspecified

def mapFormatToProto : StatementFormat → Proto.StatementFormat
  | .jsonIntoto => .jsonIntoto
  | _ => .formatUnspecified

def toDomain (proto : Proto.Statement) : Statement :=
  ⟨mapFormatToRecord proto.format, proto.serialized⟩

def toProto (record : Statement) : Proto.Statement :=
  { format := mapFormatToProto record.format, serialized := record.serialized }

end StatementMapper

namespace StatementSignatureMapper

def toDomain (proto : Proto.Signature) : StatementSignature :=
  ⟨proto.signature, VerificationMaterialMapper.toDomain proto.getVerificationMaterial⟩

def toProto (domain : StatementSignature) : Proto.Signature :=
  { signature := domain.signature
    verificationMaterial := some (VerificationMaterialMapper.toProto domain.verificationMaterial)
    timeStampToken := none }

end StatementSignatureMapper

namespace SignatureMapper

def toDomain (proto : Proto.Signature) : Signature :=
  ⟨proto.signature, VerificationMaterialMapper.toDomain proto.getVerificationMaterial,
    proto.timeStampToken.map (fun token => ⟨token.derBytes⟩)⟩

def toProto (domain : Signature) : Proto.Signature :=
  { signature := domain.signature
    verificationMaterial := some (VerificationMaterialMapper.toProto domain.verificationMaterial)
    timeStampToken := domain.timeStampToken.map (fun token => { derBytes := token.derBytes }) }

end SignatureMapper

namespace TLogReceiptMapper

def toDomain (proto : Proto.TLogReceipt) : TLogReceipt := ⟨proto.entryId⟩
def toProto (domain : TLogReceipt) : Proto.TLogReceipt := { entryId := domain.logId }

end TLogReceiptMapper

namespace EndorsementMapper

def toDomain (proto : Proto.PublicEndorsementMessage) : Endorsement where
  name := proto.name
  statement := StatementMapper.toDomain proto.getStatement
  statementSignature := StatementSignatureMapper.toDomain proto.getStatementSignature
  endorsementSignatures := proto.endorsementSignatures.map SignatureMapper.toDomain
  tLogReceipt := TLogReceiptMapper.toDomain proto.getTlogReceipt

def toProto (domain : Endorsement) : Proto.PublicEndorsementMessage where
  name := domain.name
  statement := some (StatementMapper.toProto domain.statement)
  statementSignature := some (StatementSignatureMapper.toProto domain.statementSignature)
  endorsementSignatures := domain.endorsementSignatures.map SignatureMapper.toProto
  tlogReceipt := some (TLogReceiptMapper.toProto domain.tLogReceipt)

end EndorsementMapper

namespace PublisherPolicyMapper

def toDomain (proto : Proto.PublisherPolicy) : PublisherPolicy where
  publisherId := proto.publisherId
  oidcTokenClaims := proto.oidcTokenClaims.map (fun claims => ⟨claims.issuer, claims.subject⟩)
  verificationMaterialList := proto.verificationMaterial.map VerificationMaterialMapper.toDomain

end PublisherPolicyMapper

/-- Only absent materials lose their format on the way in. -/
theorem material_format_eq_unspecified_iff (m : Proto.VerificationMaterial) :
    (VerificationMaterialMapper.toDomain m).format = .formatUnspecified ↔ m.material = none := by
  obtain ⟨material, unknown⟩ := m
  cases material with
  | none => simp [VerificationMaterialMapper.toDomain]
  | some c => cases c <;> simp [VerificationMaterialMapper.toDomain]

end PublicEndorsement.Pes
