import PublicEndorsement.InteractionProgram

/-!
# The S3 storage adapter for key backups

Data model of the measurement-bound certificate service, and the adapter that
keeps one key backup as four S3 objects next to a generation lock. Every access
to S3, KMS and the other ports is one operation of a program; what the operations
do is left to the machine that runs them.
-/

namespace PublicEndorsement.Mbs

open Interaction

abbrev Bytes := List UInt8

inductive ObjectKey where
  | cert
  | kmsEncryptedDataKey
  | aesEncryptedPrivateKey
  | attestationDoc
  | lock
  deriving DecidableEq, Repr

structure KeyBackupBucketProperties where
  publicBucketName : String
  privateBucketName : String

/-- Object names fixed by `KeyBackupBucketPropertiesFactory`. -/
def ObjectKey.path : ObjectKey → String
  | .cert => "public/0/root_certificate.pem"
  | .kmsEncryptedDataKey => "private/0/root_data_key.kms"
  | .aesEncryptedPrivateKey => "private/0/root_private_key.aes"
  | .attestationDoc => "public/0/attestation_doc.base64"
  | .lock => "private/0/root_generation.lock"

def KeyBackupBucketProperties.bucket (props : KeyBackupBucketProperties) : ObjectKey → String
  | .cert => props.publicBucketName
  | .kmsEncryptedDataKey => props.privateBucketName
  | .aesEncryptedPrivateKey => props.privateBucketName
  | .attestationDoc => props.publicBucketName
  | .lock => props.privateBucketName

structure KeyBackup where
  certBytes : Bytes
  kmsEncryptedDataKey : Bytes
  aeadEncryptedPrivateKey : Bytes
  attestationDocBytes : Bytes
  deriving DecidableEq, Repr

structure PublicKey where
  algorithm : String
  encoded : Bytes
  deriving DecidableEq, Repr

structure PrivateKey where
  algorithm : String
  encoded : Bytes
  deriving DecidableEq, Repr

/-- What the services read of a parsed certificate. `encoded` is absent when
`getEncoded` throws; `notAfter` counts milliseconds from the epoch. -/
structure X509Certificate where
  encoded : Option Bytes
  publicKey : PublicKey
  sigAlgName : String
  notAfter : Int
  deriving DecidableEq, Repr

/-- The token is a Base64 text in the source; it is kept here by the bytes it encodes. -/
structure AttestationToken where
  bytes : Bytes
  deriving DecidableEq, Repr

structure MeasurementBoundCertificate where
  certificate : X509Certificate
  privateKey : PrivateKey
  attestationToken : AttestationToken
  deriving DecidableEq, Repr

structure KmsGeneratedKey where
  plaintext : Bytes
  ciphertext : Bytes

structure X509CertificateAndPrivateKey where
  certificate : X509Certificate
  privateKey : PrivateKey

inductive MbsEvent where
  | success
  | waitingForMbsLock
  | s3FetchFailed
  | s3WriteFailed
  | kmsOperationFailed
  | storedBackupCorrupted
  deriving DecidableEq, Repr

/-- An `SdkException`: either an `S3Exception`, possibly a `NoSuchKeyException`,
or a failure on the client's side. -/
inductive SdkException where
  | noSuchKey
  | s3 (statusCode : ℕ) (awsErrorCode : Option String)
  | client
  deriving DecidableEq, Repr

inductive Failure where
  | storageAlreadyLocked (message : String)
  | keyBackupAccessFailed (message : String)
  | keyBackupNotFound (message : String)
  | keyBackupPartiallyWritten (message : String)
  | keyBackupIncomplete (message : String)
  | kms (message : String)
  | bundleCorrupted (message : String)
  | generalSecurity (message : String)
  | io (message : String)
  | interrupted
  | unchecked (message : String)
  deriving DecidableEq, Repr

/-- The three places that call `getKeyBackup`: the check before the lock, the
check under the lock, and the final load. -/
inductive Site where
  | check
  | recheck
  | load
  deriving DecidableEq, Repr

/-- Marks left in the history by the program. `since` is the length the history
had when the recorded call began. -/
inductive Note where
  | putKeyBackup (keyBackup : KeyBackup)
  | getKeyBackup (site : Site) (since : ℕ) (outcome : Except Failure KeyBackup)

inductive Call where
  | getObject (key : ObjectKey)
  | putObject (key : ObjectKey) (content : Bytes) (ifNoneMatch : Bool)
  | deleteObject (key : ObjectKey)
  | kmsDecrypt (ciphertext : Bytes)
  | kmsGenerateDataKey
  | certificateFactoryGenerate
  | collectBoundToPubkey (publicKey : PublicKey) (userData : Bytes)
  | aeadEncrypt (plaintext key : Bytes)
  | sign (sigAlgName : String) (key : PrivateKey) (data : Bytes)
  | verify (sigAlgName : String) (key : PublicKey) (data signature : Bytes)
  | sleep (millis : ℕ)
  | recordEvent (event : MbsEvent)
  | setCurrentCertificate (bundle : MeasurementBoundCertificate)
  | mark (site : Site)
  | note (n : Note)

abbrev Reply : Call → Type
  | .getObject _ => Except SdkException Bytes
  | .putObject _ _ _ => Except SdkException Unit
  | .deleteObject _ => Except SdkException Unit
  | .kmsDecrypt _ => Except Failure Bytes
  | .kmsGenerateDataKey => Except Failure KmsGeneratedKey
  | .certificateFactoryGenerate => Except Failure X509CertificateAndPrivateKey
  | .collectBoundToPubkey _ _ => Except Failure AttestationToken
  | .aeadEncrypt _ _ => Except Failure Bytes
  | .sign _ _ _ => Except Failure Bytes
  | .verify _ _ _ _ => Except Failure Bool
  | .sleep _ => Except Failure Unit
  | .recordEvent _ => Unit
  | .setCurrentCertificate _ => Unit
  | .mark _ => ℕ
  | .note _ => Unit

abbrev Code (α : Type) := Fallible Call Reply Failure α

def perform (o : Call) : Code (Reply o) := Fallible.perform o

def recordEvent (event : MbsEvent) : Code Unit := perform (.recordEvent event)

namespace S3KeyBackupStorage

variable (props : KeyBackupBucketProperties)

def httpStatusPreconditionFailed : ℕ := 412
def awsErrorCodePreconditionFailed : String := "PreconditionFailed"

/-- `NoSuchKeyException` carries HTTP status 404 and its own error code. -/
def isAlreadyLocked : SdkException → Bool
  | .s3 statusCode awsErrorCode =>
    statusCode == httpStatusPreconditionFailed ||
      awsErrorCode.any (fun code => code.toLower == awsErrorCodePreconditionFailed.toLower)
  | .noSuchKey => false
  | .client => false

def acquireLock (instanceId : Bytes) : Code Unit := do
  match ← perform (.putObject .lock instanceId true) with
  | .ok _ => pure ()
  | .error e =>
    if isAlreadyLocked e then
      throw (.storageAlreadyLocked ("Generation lock present at " ++ ObjectKey.lock.path))
    else do
      recordEvent .s3WriteFailed
      throw (.keyBackupAccessFailed "Failed to write S3 generation lock file")

def releaseLock : Code Unit := do
  match ← perform (.deleteObject .lock) with
  | .ok _ => pure ()
  | .error _ => do
    recordEvent .s3WriteFailed
    throw (.keyBackupAccessFailed "Failed to delete S3 generation lock file")

def tryGetS3Object (key : ObjectKey) : Code (Option Bytes) := do
  match ← perform (.getObject key) with
  | .ok bytes => pure (some bytes)
  | .error .noSuchKey => pure none
  | .error _ => do
    recordEvent .s3FetchFailed
    throw (.keyBackupAccessFailed
      ("Failed to fetch object: " ++ key.path ++ " from bucket: " ++ props.bucket key))

def putS3Object (key : ObjectKey) (content : Bytes) : Code Unit := do
  match ← perform (.putObject key content false) with
  | .ok _ => pure ()
  | .error _ => do
    recordEvent .s3WriteFailed
    throw (.keyBackupAccessFailed
      ("Failed to put object: " ++ key.path ++ " in bucket: " ++ props.bucket key))

def listToString (items : List String) : String := "[" ++ ", ".intercalate items ++ "]"

/-- The decision `getKeyBackup` takes once all four reads are in. -/
def assemble (certBytes kmsEncryptedDataKey aeadEncryptedPrivateKey attestationDocBytes :
    Option Bytes) : Except Failure KeyBackup :=
  let missing :=
    (if certBytes.isNone then [ObjectKey.cert.path] else []) ++
    (if kmsEncryptedDataKey.isNone then [ObjectKey.kmsEncryptedDataKey.path] else []) ++
    (if aeadEncryptedPrivateKey.isNone then [ObjectKey.aesEncryptedPrivateKey.path] else []) ++
    (if attestationDocBytes.isNone then [ObjectKey.attestationDoc.path] else [])
  if missing.length = 4 then .error (.keyBackupNotFound "Key backup absent")
  else match certBytes, kmsEncryptedDataKey, aeadEncryptedPrivateKey, attestationDocBytes with
    | none, _, _, _ => .error (.keyBackupPartiallyWritten
        ("Key backup partially written, missing " ++ listToString missing))
    | some c, some k, some p, some a => .ok ⟨c, k, p, a⟩
    | _, _, _, _ => .error (.keyBackupIncomplete
        ("Key backup incomplete, missing " ++ listToString missing))

/-- The certificate is read first and was written last. -/
def getKeyBackup : Code KeyBackup := do
  let certBytes ← tryGetS3Object props .cert
  let kmsEncryptedDataKey ← tryGetS3Object props .kmsEncryptedDataKey
  let aeadEncryptedPrivateKey ← tryGetS3Object props .aesEncryptedPrivateKey
  let attestationDocBytes ← tryGetS3Object props .attestationDoc
  Fallible.ofOutcome
    (assemble certBytes kmsEncryptedDataKey aeadEncryptedPrivateKey attestationDocBytes)

def putKeyBackup (keyBackup : KeyBackup) : Code Unit := do
  putS3Object props .aesEncryptedPrivateKey keyBackup.aeadEncryptedPrivateKey
  putS3Object props .kmsEncryptedDataKey keyBackup.kmsEncryptedDataKey
  putS3Object props .attestationDoc keyBackup.attestationDocBytes
  putS3Object props .cert keyBackup.certBytes

end S3KeyBackupStorage
end PublicEndorsement.Mbs
