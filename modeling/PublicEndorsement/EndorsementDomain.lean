import PublicEndorsement.KeyBackupStorage
import PublicEndorsement.Utf16Text

/-!
# Domain model of the endorsement service

The records the service works on, the exceptions it raises, and the identity of a
caller, which cannot be built from blank names.
-/

namespace PublicEndorsement.Pes

open Mbs

inductive StatementFormat where
  | formatUnspecified
  | jsonIntoto
  deriving DecidableEq, Repr

structure Statement where
  format : StatementFormat
  serialized : Bytes
  deriving DecidableEq, Repr

inductive MaterialFormat where
  | formatUnspecified
  | x509Der
  | ecdsaP256Sha256
  deriving DecidableEq, Repr

structure VerificationMaterial where
  content : Bytes
  format : MaterialFormat
  deriving DecidableEq, Repr

structure StatementSignature where
  signature : Bytes
  verificationMaterial : VerificationMaterial
  deriving DecidableEq, Repr

structure TimeStampToken where
  derBytes : Bytes
  deriving DecidableEq, Repr

structure Signature where
  signature : Bytes
  verificationMaterial : VerificationMaterial
  timeStampToken : Option TimeStampToken
  deriving DecidableEq, Repr

structure TLogReceipt where
  logId : Utf16
  deriving DecidableEq, Repr

structure Endorsement where
  name : Utf16
  statement : Statement
  statementSignature : StatementSignature
  endorsementSignatures : List Signature
  tLogReceipt : TLogReceipt
  deriving DecidableEq, Repr

structure OidcTokenClaims where
  issuer : Utf16
  subject : Utf16
  deriving DecidableEq, Repr

structure PublisherPolicy where
  publisherId : Utf16
  oidcTokenClaims : List OidcTokenClaims
  verificationMaterialList : List VerificationMaterial
  deriving DecidableEq, Repr

structure VerifiedEndorsement where
  publisherId : Utf16
  deriving DecidableEq, Repr

/-- The exceptions of the service by class; `other` is any class no handler names. -/
inductive Exn where
  | illegalArgument (message : Utf16)
  | illegalState (message : Utf16)
  | invalidSignature (message : Utf16)
  | invalidVerificationMaterial (message : Utf16)
  | policy (message : Utf16)
  | tLog (message : Utf16)
  | pesSignature (message : Utf16)
  | nullPointer
  | other (message : Utf16)
  deriving DecidableEq, Repr

abbrev text (s : String) : Utf16 := Utf16.ofString s

/-- `Character.isWhitespace`; no character outside the basic plane is white space. -/
def isWhitespace (c : UInt16) : Bool :=
  let n := c.toNat
  (0x09 ≤ n && n ≤ 0x0D) || (0x1C ≤ n && n ≤ 0x20) || n == 0x1680 ||
    (0x2000 ≤ n && n ≤ 0x2006) || (0x2008 ≤ n && n ≤ 0x200A) || n == 0x2028 || n == 0x2029 ||
    n == 0x205F || n == 0x3000

def isBlank (s : Utf16) : Bool := s.all isWhitespace

/-- The identity of the caller; a blank issuer or subject is refused on construction. -/
structure CallerIdentity where
  issuer : Utf16
  subject : Utf16
  audiences : List Utf16
  issuer_not_blank : isBlank issuer = false
  subject_not_blank : isBlank subject = false

namespace CallerIdentity

def create (issuer subject : Utf16) (audiences : List Utf16) : Except Exn CallerIdentity :=
  if hissuer : isBlank issuer = false then
    if hsubject : isBlank subject = false then .ok ⟨issuer, subject, audiences, hissuer, hsubject⟩
    else .error (.illegalArgument (text "subject cannot be blank"))
  else .error (.illegalArgument (text "issuer cannot be blank"))

def isSafe (c : UInt16) : Bool :=
  let n := c.toNat
  (97 ≤ n && n ≤ 122) || (65 ≤ n && n ≤ 90) || (48 ≤ n && n ≤ 57) || n == 45 || n == 46

def hexDigit (n : ℕ) : UInt16 := if n < 10 then (48 + n).toUInt16 else (87 + n).toUInt16

/-- `String.format("_%04x", (int) c)`. -/
def escapeUnit (c : UInt16) : Utf16 :=
  let n := c.toNat
  [95, hexDigit (n / 4096), hexDigit (n / 256 % 16), hexDigit (n / 16 % 16), hexDigit (n % 16)]

def escape (s : Utf16) : Utf16 := s.flatMap (fun c => if isSafe c then [c] else escapeUnit c)

def getClientId (identity : CallerIdentity) : Utf16 :=
  escape identity.issuer ++ text "/" ++ escape identity.subject

end CallerIdentity
end PublicEndorsement.Pes
