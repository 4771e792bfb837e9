import PublicEndorsement.KeyBackupStorage

/-!
# The KMS-backed certificate provider

`reloadCertificate` of `KmsMeasurementBoundCertificateProvider`, from the retry
around one attempt down to the generation of a missing backup and the decoding of
a stored one. Calls to `putKeyBackup` and `getKeyBackup` leave a note in the
history; the notes change nothing else.
-/

namespace PublicEndorsement.Mbs

open Interaction S3KeyBackupStorage

/-- The deterministic parts of the libraries the provider calls; `none` stands for
a `GeneralSecurityException`. `kmsDecrypt` is what KMS answers when it answers. -/
structure Primitives where
  writePem : Bytes → Bytes
  generateCertificate : Bytes → Option X509Certificate
  aeadDecrypt : (key ciphertext : Bytes) → Option Bytes
  generatePrivate : (algorithm : String) → Bytes → Option PrivateKey
  kmsDecrypt : Bytes → Option Bytes

structure ProviderConfig where
  bucketProperties : KeyBackupBucketProperties
  instanceId : Bytes
  userDataBoundToAttestation : Bytes

/-- Record the outcome of one `getKeyBackup` together with where it began. -/
def observed (site : Site) (x : Code KeyBackup) : Code KeyBackup := do
  let since ← perform (.mark site)
  let outcome ← Fallible.outcome x
  perform (.note (.getKeyBackup site since outcome))
  Fallible.ofOutcome outcome

def orThrow {α : Type} : Except Failure α → Code α := Fallible.ofOutcome

def orGeneralSecurity {α : Type} (message : String) : Option α → Code α
  | some a => pure a
  | none => throw (.generalSecurity message)

namespace KmsMeasurementBoundCertificateProvider

variable (lib : Primitives) (cfg : ProviderConfig)

def retryBackoffMillis : ℕ := 10000

def probe : Bytes := "mbs-key-certificate-consistency-check".toUTF8.toList

def invalidKeySize : String := "Invalid key size. Expected 32 bytes for AES-256-GCM."

def encrypt (plaintext key : Bytes) : Code Bytes := do
  if key.length ≠ 32 then throw (.generalSecurity invalidKeySize)
  orThrow (← perform (.aeadEncrypt plaintext key))

def decrypt (ciphertext key : Bytes) : Code Bytes := do
  if key.length ≠ 32 then throw (.generalSecurity invalidKeySize)
  orGeneralSecurity "decryption failed" (lib.aeadDecrypt key ciphertext)

def parsePrivateKey (privateKeyBytes : Bytes) (algorithm : String) : Code PrivateKey :=
  orGeneralSecurity "invalid private key" (lib.generatePrivate algorithm privateKeyBytes)

def toPemBytes (certificate : X509Certificate) : Code Bytes := do
  let encoded ← orGeneralSecurity "certificate encoding failed" certificate.encoded
  pure (lib.writePem encoded)

/-- Only a `GeneralSecurityException` is turned into `false`. -/
def isKeyMatchingCertificate (certificate : X509Certificate) (privateKey : PrivateKey) :
    Code Bool :=
  try do
    let signature ← orThrow (← perform (.sign certificate.sigAlgName privateKey probe))
    orThrow (← perform (.verify certificate.sigAlgName certificate.publicKey probe signature))
  catch
    | .generalSecurity _ => pure false
    | e => throw e

def decodeKeyMaterial (keyBackup : KeyBackup) (dataKey : Bytes) :
    Code (X509Certificate × PrivateKey × AttestationToken) :=
  try do
    let certificate ← orGeneralSecurity "invalid certificate"
      (lib.generateCertificate keyBackup.certBytes)
    let token := AttestationToken.mk keyBackup.attestationDocBytes
    let decryptedPrivateKeyBytes ← decrypt lib keyBackup.aeadEncryptedPrivateKey dataKey
    let privateKey ← parsePrivateKey lib decryptedPrivateKeyBytes certificate.publicKey.algorithm
    pure (certificate, privateKey, token)
  catch
    | .generalSecurity _ => throw (.bundleCorrupted "Key material could not be decoded")
    | e => throw e

def toMeasurementBoundCertificate (keyBackup : KeyBackup) : Code MeasurementBoundCertificate := do
  let dataKey ← orThrow (← perform (.kmsDecrypt keyBackup.kmsEncryptedDataKey))
  let (certificate, privateKey, token) ← decodeKeyMaterial lib keyBackup dataKey
  if !(← isKeyMatchingCertificate certificate privateKey) then
    throw (.bundleCorrupted "Private key does not match certificate")
  pure ⟨certificate, privateKey, token⟩

def generateAndStoreKeyBackup : Code Unit := do
  let certAndKey ← orThrow (← perform .certificateFactoryGenerate)
  let certificate := certAndKey.certificate
  let privateKey := certAndKey.privateKey
  let token ← orThrow (← perform
    (.collectBoundToPubkey certificate.publicKey cfg.userDataBoundToAttestation))
  let dataKey ← orThrow (← perform .kmsGenerateDataKey)
  let aeadEncryptedPrivateKey ← encrypt privateKey.encoded dataKey.plaintext
  let pem ← toPemBytes lib certificate
  let keyBackup := KeyBackup.mk pem dataKey.ciphertext aeadEncryptedPrivateKey token.bytes
  perform (.note (.putKeyBackup keyBackup))
  putKeyBackup cfg.bucketProperties keyBackup

/-- False only for pristine storage, the one case in which generating is permitted. -/
def keyBackupExists (site : Site) : Code Bool :=
  try do
    let _unused ← observed site (getKeyBackup cfg.bucketProperties)
    pure true
  catch
    | .keyBackupNotFound _ => pure false
    | e => throw e

/-- There is no finally: a failure under the lock leaves the lock behind. -/
def generateMissingKeyBackup : Code Unit := do
  if ← keyBackupExists cfg .check then
    return ()
  acquireLock cfg.instanceId
  if !(← keyBackupExists cfg .recheck) then
    generateAndStoreKeyBackup lib cfg
  releaseLock

def loadExistingKeyBackup : Code Unit := do
  let keyBackup ← observed .load (getKeyBackup cfg.bucketProperties)
  let bundle ← toMeasurementBoundCertificate lib keyBackup
  perform (.setCurrentCertificate bundle)

def reloadCertificateOnce : Code Unit := do
  generateMissingKeyBackup lib cfg
  loadExistingKeyBackup lib cfg

def isTransient : Failure → Bool
  | .storageAlreadyLocked _ => true
  | .keyBackupPartiallyWritten _ => true
  | _ => false

def reloadCertificateWithRetryOnTransientError : Code Unit :=
  try reloadCertificateOnce lib cfg
  catch failure =>
    if isTransient failure then do
      orThrow (← perform (.sleep retryBackoffMillis))
      reloadCertificateOnce lib cfg
    else throw failure

def recordFailureEvent : Failure → Code Unit
  | .storageAlreadyLocked _ => recordEvent .waitingForMbsLock
  | .kms _ => recordEvent .kmsOperationFailed
  | .bundleCorrupted _ => recordEvent .storedBackupCorrupted
  | .keyBackupIncomplete _ => recordEvent .storedBackupCorrupted
  | .keyBackupPartiallyWritten _ => recordEvent .storedBackupCorrupted
  | _ => pure ()

def reloadCertificate : Code Unit := do
  try reloadCertificateWithRetryOnTransientError lib cfg
  catch failure => do
    recordFailureEvent failure
    throw (.unchecked "Failed to reload certificate")
  recordEvent .success

/-- One invocation as the scheduler runs it: an exception ends it like a return. -/
def invocation : Program Call Reply Unit :=
  (ExceptT.run (reloadCertificate lib cfg)).bind (fun _ => .pure ())

/-- The bundle a backup decodes to, when KMS answers and every decoding step works. -/
def decode (keyBackup : KeyBackup) : Option MeasurementBoundCertificate := do
  let dataKey ← lib.kmsDecrypt keyBackup.kmsEncryptedDataKey
  let certificate ← lib.generateCertificate keyBackup.certBytes
  if dataKey.length ≠ 32 then none
  let privateKeyBytes ← lib.aeadDecrypt dataKey keyBackup.aeadEncryptedPrivateKey
  let privateKey ← lib.generatePrivate certificate.publicKey.algorithm privateKeyBytes
  pure ⟨certificate, privateKey, ⟨keyBackup.attestationDocBytes⟩⟩

end KmsMeasurementBoundCertificateProvider
end PublicEndorsement.Mbs
