import PublicEndorsement.CertificateProvider
import PublicEndorsement.EnvironmentRuns

/-!
# The certificate provider over its ports

`KmsMeasurementBoundCertificateProvider` once more, as its class is written: against the
interfaces it is given, each of which may throw any exception at any call. The library
functions it decodes with are ports as well. `reloadCertificate_becomes` says that the
provider over S3 storage is this one with S3 storage put in the place of its ports.
-/

namespace PublicEndorsement.Mbs.Ports

open Interaction

inductive Port where
  | getKeyBackup (site : Site)
  | putKeyBackup (keyBackup : KeyBackup)
  | acquireLock
  | releaseLock
  | kmsDecrypt (ciphertext : Bytes)
  | kmsGenerateDataKey
  | certificateFactoryGenerate
  | collectBoundToPubkey (publicKey : PublicKey) (userData : Bytes)
  | generateCertificate (certBytes : Bytes)
  | aeadDecrypt (key ciphertext : Bytes)
  | aeadEncrypt (plaintext key : Bytes)
  | generatePrivate (algorithm : String) (encoded : Bytes)
  | toPemBytes (certificate : X509Certificate)
  | sign (sigAlgName : String) (key : PrivateKey) (data : Bytes)
  | verify (sigAlgName : String) (key : PublicKey) (data signature : Bytes)
  | sleep (millis : ℕ)

abbrev Value : Port → Type
  | .getKeyBackup _ => KeyBackup
  | .putKeyBackup _ => Unit
  | .acquireLock => Unit
  | .releaseLock => Unit
  | .kmsDecrypt _ => Bytes
  | .kmsGenerateDataKey => KmsGeneratedKey
  | .certificateFactoryGenerate => X509CertificateAndPrivateKey
  | .collectBoundToPubkey _ _ => AttestationToken
  | .generateCertificate _ => X509Certificate
  | .aeadDecrypt _ _ => Bytes
  | .aeadEncrypt _ _ => Bytes
  | .generatePrivate _ _ => PrivateKey
  | .toPemBytes _ => Bytes
  | .sign _ _ _ => Bytes
  | .verify _ _ _ _ => Bool
  | .sleep _ => Unit

inductive Action where
  | ask (port : Port)
  | recordEvent (event : MbsEvent)
  | setCurrentCertificate (bundle : MeasurementBoundCertificate)

abbrev Answer : Action → Type
  | .ask port => Except Failure (Value port)
  | .recordEvent _ => Unit
  | .setCurrentCertificate _ => Unit

abbrev Code (α : Type) := Fallible Action Answer Failure α

def ask (port : Port) : Code (Value port) := do
  Fallible.ofOutcome (← Fallible.perform (Action.ask port))

def recordEvent (event : MbsEvent) : Code Unit := Fallible.perform (Action.recordEvent event)

open KmsMeasurementBoundCertificateProvider (invalidKeySize probe retryBackoffMillis isTransient)

def encrypt (plaintext key : Bytes) : Code Bytes :=
  if key.length ≠ 32 then throw (.generalSecurity invalidKeySize)
  else ask (.aeadEncrypt plaintext key)

def decrypt (ciphertext key : Bytes) : Code Bytes :=
  if key.length ≠ 32 then throw (.generalSecurity invalidKeySize)
  else ask (.aeadDecrypt key ciphertext)

def isKeyMatchingCertificate (certificate : X509Certificate) (privateKey : PrivateKey) :
    Code Bool :=
  try do
    let signature ← ask (.sign certificate.sigAlgName privateKey probe)
    ask (.verify certificate.sigAlgName certificate.publicKey probe signature)
  catch
    | .generalSecurity _ => pure false
    | e => throw e

def decodeKeyMaterial (keyBackup : KeyBackup) (dataKey : Bytes) :
    Code (X509Certificate × PrivateKey × AttestationToken) :=
  try do
    let certificate ← ask (.generateCertificate keyBackup.certBytes)
    let decryptedPrivateKeyBytes ← decrypt keyBackup.aeadEncryptedPrivateKey dataKey
    let privateKey ← ask
      (.generatePrivate certificate.publicKey.algorithm decryptedPrivateKeyBytes)
    pure (certificate, privateKey, AttestationToken.mk keyBackup.attestationDocBytes)
  catch
    | .generalSecurity _ => throw (.bundleCorrupted "Key material could not be decoded")
    | e => throw e

def toMeasurementBoundCertificate (keyBackup : KeyBackup) : Code MeasurementBoundCertificate := do
  let dataKey ← ask (.kmsDecrypt keyBackup.kmsEncryptedDataKey)
  let (certificate, privateKey, token) ← decodeKeyMaterial keyBackup dataKey
  if !(← isKeyMatchingCertificate certificate privateKey) then
    throw (.bundleCorrupted "Private key does not match certificate")
  else pure ⟨certificate, privateKey, token⟩

section Generation

variable (userDataBoundToAttestation : Bytes)

def generateAndStoreKeyBackup : Code Unit := do
  let certAndKey ← ask .certificateFactoryGenerate
  let token ← ask
    (.collectBoundToPubkey certAndKey.certificate.publicKey userDataBoundToAttestation)
  let dataKey ← ask .kmsGenerateDataKey
  let aeadEncryptedPrivateKey ← encrypt certAndKey.privateKey.encoded dataKey.plaintext
  let pem ← ask (.toPemBytes certAndKey.certificate)
  ask (.putKeyBackup (KeyBackup.mk pem dataKey.ciphertext aeadEncryptedPrivateKey token.bytes))

def keyBackupExists (site : Site) : Code Bool :=
  try do
    let _unused ← ask (.getKeyBackup site)
    pure true
  catch
    | .keyBackupNotFound _ => pure false
    | e => throw e

def generateMissingKeyBackup : Code Unit := do
  if ← keyBackupExists .check then pure ()
  else do
    ask .acquireLock
    if !(← keyBackupExists .recheck) then generateAndStoreKeyBackup userDataBoundToAttestation
    ask .releaseLock

def loadExistingKeyBackup : Code Unit := do
  let keyBackup ← ask (.getKeyBackup .load)
  let bundle ← toMeasurementBoundCertificate keyBackup
  Fallible.perform (Action.setCurrentCertificate bundle)

def reloadCertificateOnce : Code Unit := do
  generateMissingKeyBackup userDataBoundToAttestation
  loadExistingKeyBackup

def reloadCertificateWithRetryOnTransientError : Code Unit :=
  try reloadCertificateOnce userDataBoundToAttestation
  catch failure =>
    if isTransient failure then do
      ask (.sleep retryBackoffMillis)
      reloadCertificateOnce userDataBoundToAttestation
    else throw failure

def recordFailureEvent : Failure → Code Unit
  | .storageAlreadyLocked _ => recordEvent .waitingForMbsLock
  | .kms _ => recordEvent .kmsOperationFailed
  | .bundleCorrupted _ => recordEvent .storedBackupCorrupted
  | .keyBackupIncomplete _ => recordEvent .storedBackupCorrupted
  | .keyBackupPartiallyWritten _ => recordEvent .storedBackupCorrupted
  | _ => pure ()

def reloadCertificate : Code Unit := do
  try reloadCertificateWithRetryOnTransientError userDataBoundToAttestation
  catch failure => do
    recordFailureEvent failure
    throw (.unchecked "Failed to reload certificate")
  recordEvent .success

end Generation

/-! ## The ports over S3 storage -/

section S3

variable (lib : Primitives) (cfg : ProviderConfig)

/-- The outcome of a library function, where `none` is a `GeneralSecurityException`. -/
def ofLibrary {α : Type} (message : String) : Option α → Except Failure α
  | some a => .ok a
  | none => .error (.generalSecurity message)

open S3KeyBackupStorage in
def s3Ports : (port : Port) → Program Call Reply (Except Failure (Value port))
  | .getKeyBackup site => ExceptT.run (observed site (getKeyBackup cfg.bucketProperties))
  | .putKeyBackup keyBackup => ExceptT.run (do
      Mbs.perform (.note (.putKeyBackup keyBackup))
      putKeyBackup cfg.bucketProperties keyBackup)
  | .acquireLock => ExceptT.run (acquireLock cfg.instanceId)
  | .releaseLock => ExceptT.run releaseLock
  | .kmsDecrypt ciphertext => Interaction.perform (Call.kmsDecrypt ciphertext)
  | .kmsGenerateDataKey => Interaction.perform Call.kmsGenerateDataKey
  | .certificateFactoryGenerate => Interaction.perform Call.certificateFactoryGenerate
  | .collectBoundToPubkey publicKey userData =>
    Interaction.perform (Call.collectBoundToPubkey publicKey userData)
  | .generateCertificate certBytes =>
    .pure (ofLibrary "invalid certificate" (lib.generateCertificate certBytes))
  | .aeadDecrypt key ciphertext =>
    .pure (ofLibrary "decryption failed" (lib.aeadDecrypt key ciphertext))
  | .aeadEncrypt plaintext key => Interaction.perform (Call.aeadEncrypt plaintext key)
  | .generatePrivate algorithm encoded =>
    .pure (ofLibrary "invalid private key" (lib.generatePrivate algorithm encoded))
  | .toPemBytes certificate =>
    .pure ((ofLibrary "certificate encoding failed" certificate.encoded).map lib.writePem)
  | .sign sigAlgName key data => Interaction.perform (Call.sign sigAlgName key data)
  | .verify sigAlgName key data signature =>
    Interaction.perform (Call.verify sigAlgName key data signature)
  | .sleep millis => Interaction.perform (Call.sleep millis)

def s3Handler : (action : Action) → Program Call Reply (Answer action)
  | .ask port => s3Ports lib cfg port
  | .recordEvent event => Interaction.perform (Call.recordEvent event)
  | .setCurrentCertificate bundle => Interaction.perform (Call.setCurrentCertificate bundle)

/-- With S3 storage in the place of its ports, `x` is `y`. -/
def Becomes {α : Type} (x : Code α) (y : Mbs.Code α) : Prop :=
  Fallible.interpret (s3Handler lib cfg) x = y

namespace Becomes

variable {lib cfg} {α β : Type} {x : Code α} {y : Mbs.Code α}

theorem pure (a : α) : Becomes lib cfg (Pure.pure a) (Pure.pure a) := rfl

theorem throw (e : Failure) :
    Becomes (α := α) lib cfg (MonadExcept.throw e) (MonadExcept.throw e) := rfl

theorem bind {f : α → Code β} {g : α → Mbs.Code β} (hx : Becomes lib cfg x y)
    (hf : ∀ a, Becomes lib cfg (f a) (g a)) : Becomes lib cfg (x >>= f) (y >>= g) := by
  have hfg : (fun a => Fallible.interpret (s3Handler lib cfg) (f a)) = g := funext hf
  rw [Becomes, Fallible.interpret_bind, hfg, show Fallible.interpret _ x = y from hx]

theorem tryCatch {h : Failure → Code α} {k : Failure → Mbs.Code α} (hx : Becomes lib cfg x y)
    (hh : ∀ e, Becomes lib cfg (h e) (k e)) :
    Becomes lib cfg (MonadExcept.tryCatch x h) (MonadExcept.tryCatch y k) := by
  have hhk : (fun e => Fallible.interpret (s3Handler lib cfg) (h e)) = k := funext hh
  rw [Becomes, Fallible.interpret_tryCatch, hhk, show Fallible.interpret _ x = y from hx]

theorem ask (port : Port) :
    Becomes lib cfg (Ports.ask port) (ExceptT.mk (s3Ports lib cfg port)) := by
  rw [Becomes, Ports.ask, Fallible.interpret_bind, Fallible.interpret_perform]
  simp only [Fallible.interpret_ofOutcome]
  exact Fallible.lift_bind_ofOutcome _

/-- A port that is one call whose failure is thrown. -/
theorem call {port : Port} {p : Program Call Reply (Except Failure (Value port))}
    (hp : s3Ports lib cfg port = p) :
    Becomes lib cfg (Ports.ask port) (ExceptT.lift p >>= fun r => orThrow r) := by
  rw [← hp]
  exact (ask port).trans (Fallible.lift_bind_ofOutcome _).symm

theorem callBind {port : Port} {p : Program Call Reply (Except Failure (Value port))}
    {f : Value port → Code β} {g : Value port → Mbs.Code β}
    (hp : s3Ports lib cfg port = p) (hf : ∀ a, Becomes lib cfg (f a) (g a)) :
    Becomes lib cfg (Ports.ask port >>= f) (ExceptT.lift p >>= fun r => orThrow r >>= g) := by
  have hassoc : (ExceptT.lift p >>= fun r => orThrow r >>= g : Mbs.Code β) =
      (ExceptT.lift p >>= fun r => orThrow r) >>= g := (bind_assoc _ _ _).symm
  rw [hassoc]
  exact bind (call hp) hf

end Becomes

theorem isKeyMatchingCertificate_becomes (certificate : X509Certificate)
    (privateKey : PrivateKey) :
    Becomes lib cfg (isKeyMatchingCertificate certificate privateKey)
      (KmsMeasurementBoundCertificateProvider.isKeyMatchingCertificate certificate privateKey) := by
  refine Becomes.tryCatch (Becomes.callBind rfl fun signature => Becomes.call rfl) fun e => ?_
  cases e with
  | generalSecurity message => exact Becomes.pure false
  | _ => exact Becomes.throw _

theorem orGeneralSecurity_eq {α : Type} (message : String) (o : Option α) :
    orGeneralSecurity message o = ExceptT.mk (.pure (ofLibrary message o)) := by
  cases o with
  | none => rfl
  | some a => rfl

theorem decrypt_becomes (ciphertext key : Bytes) :
    Becomes lib cfg (decrypt ciphertext key)
      (KmsMeasurementBoundCertificateProvider.decrypt lib ciphertext key) := by
  unfold decrypt KmsMeasurementBoundCertificateProvider.decrypt
  by_cases hlen : key.length = 32
  · simp only [hlen, ne_eq, not_true_eq_false, if_false, orGeneralSecurity_eq]
    exact Becomes.ask _
  · simp only [hlen, ne_eq, not_false_eq_true, if_true]
    exact Becomes.throw _

theorem encrypt_becomes (plaintext key : Bytes) :
    Becomes lib cfg (encrypt plaintext key)
      (KmsMeasurementBoundCertificateProvider.encrypt plaintext key) := by
  unfold encrypt KmsMeasurementBoundCertificateProvider.encrypt
  by_cases hlen : key.length = 32
  · simp only [hlen, ne_eq, not_true_eq_false, if_false]
    exact Becomes.call rfl
  · simp only [hlen, ne_eq, not_false_eq_true, if_true]
    exact Becomes.throw _

theorem decodeKeyMaterial_becomes (keyBackup : KeyBackup) (dataKey : Bytes) :
    Becomes lib cfg (decodeKeyMaterial keyBackup dataKey)
      (KmsMeasurementBoundCertificateProvider.decodeKeyMaterial lib keyBackup dataKey) := by
  refine Becomes.tryCatch ?_ fun e => ?_
  · simp only [orGeneralSecurity_eq, KmsMeasurementBoundCertificateProvider.parsePrivateKey]
    refine Becomes.bind (Becomes.ask _) fun certificate => ?_
    refine Becomes.bind (decrypt_becomes lib cfg _ _) fun privateKeyBytes => ?_
    exact Becomes.bind (Becomes.ask _) fun privateKey => Becomes.pure _
  · cases e with
    | generalSecurity message => exact Becomes.throw _
    | _ => exact Becomes.throw _

theorem toMeasurementBoundCertificate_becomes (keyBackup : KeyBackup) :
    Becomes lib cfg (toMeasurementBoundCertificate keyBackup)
      (KmsMeasurementBoundCertificateProvider.toMeasurementBoundCertificate lib keyBackup) := by
  refine Becomes.callBind rfl fun dataKey => ?_
  refine Becomes.bind (decodeKeyMaterial_becomes lib cfg _ _) fun m => ?_
  refine Becomes.bind (isKeyMatchingCertificate_becomes lib cfg _ _) fun isMatching => ?_
  cases isMatching with
  | true => exact Becomes.pure _
  | false => exact Becomes.throw _

theorem toPemBytes_becomes (certificate : X509Certificate) :
    Becomes lib cfg (ask (.toPemBytes certificate))
      (KmsMeasurementBoundCertificateProvider.toPemBytes lib certificate) := by
  refine (Becomes.ask _).trans ?_
  change ExceptT.mk (Program.pure ((ofLibrary _ certificate.encoded).map lib.writePem)) = _
  unfold KmsMeasurementBoundCertificateProvider.toPemBytes
  cases certificate.encoded with
  | none => rfl
  | some encoded => rfl

theorem generateAndStoreKeyBackup_becomes :
    Becomes lib cfg (generateAndStoreKeyBackup cfg.userDataBoundToAttestation)
      (KmsMeasurementBoundCertificateProvider.generateAndStoreKeyBackup lib cfg) := by
  refine Becomes.callBind rfl fun certAndKey => ?_
  refine Becomes.callBind rfl fun token => ?_
  refine Becomes.callBind rfl fun dataKey => ?_
  refine Becomes.bind (encrypt_becomes lib cfg _ _) fun aeadEncryptedPrivateKey => ?_
  exact Becomes.bind (toPemBytes_becomes lib cfg _) fun pem => Becomes.ask _

theorem keyBackupExists_becomes (site : Site) :
    Becomes lib cfg (keyBackupExists site)
      (KmsMeasurementBoundCertificateProvider.keyBackupExists cfg site) := by
  refine Becomes.tryCatch (Becomes.bind (Becomes.ask _) fun _ => Becomes.pure true) fun e => ?_
  cases e with
  | keyBackupNotFound message => exact Becomes.pure false
  | _ => exact Becomes.throw _

theorem generateMissingKeyBackup_becomes :
    Becomes lib cfg (generateMissingKeyBackup cfg.userDataBoundToAttestation)
      (KmsMeasurementBoundCertificateProvider.generateMissingKeyBackup lib cfg) := by
  refine Becomes.bind (keyBackupExists_becomes lib cfg _) fun exists_ => ?_
  cases exists_ with
  | true => exact Becomes.pure ()
  | false =>
    refine Becomes.bind (Becomes.ask .acquireLock) fun _ => ?_
    refine Becomes.bind (keyBackupExists_becomes lib cfg _) fun exists_ => ?_
    cases exists_ with
    | true => exact Becomes.ask .releaseLock
    | false =>
      exact Becomes.bind (generateAndStoreKeyBackup_becomes lib cfg)
        fun _ => Becomes.ask .releaseLock

theorem reloadCertificateOnce_becomes :
    Becomes lib cfg (reloadCertificateOnce cfg.userDataBoundToAttestation)
      (KmsMeasurementBoundCertificateProvider.reloadCertificateOnce lib cfg) := by
  refine Becomes.bind (generateMissingKeyBackup_becomes lib cfg) fun _ => ?_
  refine Becomes.bind (Becomes.ask (.getKeyBackup .load)) fun keyBackup => ?_
  refine Becomes.bind (toMeasurementBoundCertificate_becomes lib cfg _) fun bundle => ?_
  exact Fallible.interpret_perform _ _

theorem recordEvent_becomes (event : MbsEvent) :
    Becomes lib cfg (recordEvent event) (Mbs.recordEvent event) :=
  Fallible.interpret_perform _ _

theorem recordFailureEvent_becomes (failure : Failure) :
    Becomes lib cfg (recordFailureEvent failure)
      (KmsMeasurementBoundCertificateProvider.recordFailureEvent failure) := by
  cases failure with
  | storageAlreadyLocked message => exact recordEvent_becomes lib cfg _
  | kms message => exact recordEvent_becomes lib cfg _
  | bundleCorrupted message => exact recordEvent_becomes lib cfg _
  | keyBackupIncomplete message => exact recordEvent_becomes lib cfg _
  | keyBackupPartiallyWritten message => exact recordEvent_becomes lib cfg _
  | _ => exact Becomes.pure ()

/-- The provider over S3 storage is the provider over its ports, with S3 storage in their
place. -/
theorem reloadCertificate_becomes :
    Becomes lib cfg (reloadCertificate cfg.userDataBoundToAttestation)
      (KmsMeasurementBoundCertificateProvider.reloadCertificate lib cfg) := by
  refine Becomes.bind (Becomes.tryCatch (Becomes.tryCatch
    (reloadCertificateOnce_becomes lib cfg) fun failure => ?_) fun failure => ?_)
    fun _ => recordEvent_becomes lib cfg _
  · cases isTransient failure with
    | true =>
      simp only [if_true]
      exact Becomes.callBind rfl fun _ => reloadCertificateOnce_becomes lib cfg
    | false =>
      simp only [Bool.false_eq_true, if_false]
      exact Becomes.throw _
  · exact Becomes.bind (recordFailureEvent_becomes lib cfg failure) fun _ => Becomes.throw _

end S3
end PublicEndorsement.Mbs.Ports
