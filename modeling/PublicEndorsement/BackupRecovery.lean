import PublicEndorsement.BackupResults
import PublicEndorsement.UndisturbedRuns

/-!
# Reloading without disturbance

The results over all runs say what never happens, whoever fails. Here one instance calls
`reloadCertificate` after any such run, and nothing disturbs it: no other instance takes a step, no
late request arrives and every port works. Whether it gets a certificate depends on the buckets
alone: it does if the backup is complete and can be decoded, or if nothing is stored and nobody has
left the lock behind. Otherwise it fails, and so does everybody after it.
-/

namespace PublicEndorsement.Mbs

open Interaction Machine OrderedPublication S3KeyBackupStorage
open KmsMeasurementBoundCertificateProvider

instance : Inhabited Choice := ⟨.ok⟩

/-- Ports that answer, and whose answers fit together: what was generated, encrypted and encoded
can be decrypted and decoded again. What is found in the buckets need not come from them. -/
structure WorkingPorts (lib : Primitives) where
  certAndKey : X509CertificateAndPrivateKey
  encoded : Bytes
  collectBoundToPubkey : PublicKey → Bytes → AttestationToken
  dataKey : KmsGeneratedKey
  aeadEncrypt : (plaintext key : Bytes) → Bytes
  sign : String → PrivateKey → Bytes → Bytes
  verify : String → PublicKey → (data signature : Bytes) → Bool
  encoded_eq : certAndKey.certificate.encoded = some encoded
  generateCertificate : lib.generateCertificate (lib.writePem encoded) =
    some certAndKey.certificate
  kmsDecrypt : lib.kmsDecrypt dataKey.ciphertext = some dataKey.plaintext
  keySize : dataKey.plaintext.length = 32
  aeadDecrypt : lib.aeadDecrypt dataKey.plaintext
    (aeadEncrypt certAndKey.privateKey.encoded dataKey.plaintext) =
      some certAndKey.privateKey.encoded
  generatePrivate : lib.generatePrivate certAndKey.certificate.publicKey.algorithm
    certAndKey.privateKey.encoded = some certAndKey.privateKey
  consistent : verify certAndKey.certificate.sigAlgName certAndKey.certificate.publicKey probe
    (sign certAndKey.certificate.sigAlgName certAndKey.privateKey probe) = true

namespace WorkingPorts

variable {lib : Primitives} (ports : WorkingPorts lib)

/-- KMS refuses what it cannot decrypt. -/
def answer : Call → Choice
  | .kmsDecrypt ciphertext =>
    if (lib.kmsDecrypt ciphertext).isSome then .ok
    else .failure (.kms "Failed to decrypt ciphertext using AWS KMS with NSM")
  | .kmsGenerateDataKey => .dataKey ports.dataKey
  | .certificateFactoryGenerate => .certificate ports.certAndKey
  | .collectBoundToPubkey publicKey userData =>
    .attestation (ports.collectBoundToPubkey publicKey userData)
  | .aeadEncrypt plaintext key => .bytes (ports.aeadEncrypt plaintext key)
  | .sign sigAlgName key data => .bytes (ports.sign sigAlgName key data)
  | .verify sigAlgName key data signature =>
    .verdict (ports.verify sigAlgName key data signature)
  | _ => .ok

def verdict (bundle : MeasurementBoundCertificate) : Bool :=
  ports.verify bundle.certificate.sigAlgName bundle.certificate.publicKey probe
    (ports.sign bundle.certificate.sigAlgName bundle.privateKey probe)

abbrev Matches (bundle : MeasurementBoundCertificate) : Prop := ports.verdict bundle = true

def token (cfg : ProviderConfig) : AttestationToken :=
  ports.collectBoundToPubkey ports.certAndKey.certificate.publicKey cfg.userDataBoundToAttestation

def keyBackup (cfg : ProviderConfig) : KeyBackup where
  certBytes := lib.writePem ports.encoded
  kmsEncryptedDataKey := ports.dataKey.ciphertext
  aeadEncryptedPrivateKey :=
    ports.aeadEncrypt ports.certAndKey.privateKey.encoded ports.dataKey.plaintext
  attestationDocBytes := (ports.token cfg).bytes

def bundle (cfg : ProviderConfig) : MeasurementBoundCertificate :=
  ⟨ports.certAndKey.certificate, ports.certAndKey.privateKey, ports.token cfg⟩

theorem decode_keyBackup (cfg : ProviderConfig) :
    decode lib (ports.keyBackup cfg) = some (ports.bundle cfg) := by
  simp [decode, keyBackup, bundle, ports.kmsDecrypt, ports.generateCertificate, ports.keySize,
    ports.aeadDecrypt, ports.generatePrivate]

theorem matches_bundle (cfg : ProviderConfig) : ports.Matches (ports.bundle cfg) :=
  ports.consistent

end WorkingPorts

def KeyBackup.object (keyBackup : KeyBackup) : ObjectKey → Option Bytes
  | .cert => some keyBackup.certBytes
  | .kmsEncryptedDataKey => some keyBackup.kmsEncryptedDataKey
  | .aesEncryptedPrivateKey => some keyBackup.aeadEncryptedPrivateKey
  | .attestationDoc => some keyBackup.attestationDocBytes
  | .lock => none

variable {ι : Type}

def Event.recorded? : Event ι → Option (ι × MbsEvent)
  | .recorded i event => some (i, event)
  | _ => none

/-- What can be seen of the world, apart from the history of single requests. -/
structure Snapshot (ι : Type) where
  objects : ObjectKey → Option Bytes
  inFlight : List Effect
  currentCertificate : ι → Option MeasurementBoundCertificate
  recorded : List (ι × MbsEvent)

def World.snapshot (w : World ι) : Snapshot ι where
  objects := w.objects
  inFlight := w.inFlight
  currentCertificate := w.currentCertificate
  recorded := w.history.filterMap Event.recorded?

namespace Snapshot

variable (a : Snapshot ι)

def put (key : ObjectKey) (content : Option Bytes) : Snapshot ι :=
  { a with objects := Function.update a.objects key content }

def record (i : ι) (event : MbsEvent) : Snapshot ι :=
  { a with recorded := a.recorded ++ [(i, event)] }

def install [DecidableEq ι] (i : ι) (bundle : MeasurementBoundCertificate) : Snapshot ι :=
  { a with currentCertificate := Function.update a.currentCertificate i (some bundle) }

/-- All artifacts are there; the lock may be. -/
def Holds (keyBackup : KeyBackup) : Prop :=
  ∀ key, key ≠ .lock → a.objects key = keyBackup.object key

/-- There is a lock and no complete backup, or there is one that cannot be decoded, or whose key
does not match its certificate. -/
def Stuck {lib : Primitives} (ports : WorkingPorts lib) : Prop :=
  a.objects .cert = none ∧ a.objects .lock ≠ none ∨
    ∃ keyBackup, a.Holds keyBackup ∧ ∀ bundle, decode lib keyBackup = some bundle →
      ¬ ports.Matches bundle

def found : Except Failure KeyBackup :=
  assemble (a.objects .cert) (a.objects .kmsEncryptedDataKey) (a.objects .aesEncryptedPrivateKey)
    (a.objects .attestationDoc)

def store (keyBackup : KeyBackup) : Snapshot ι :=
  keyBackup.parts.foldl (fun a part => a.put part.1 (some part.2)) a

variable {a}

theorem found_put_lock (content : Option Bytes) : (a.put .lock content).found = a.found := by
  simp [found, put]

/-- A backup is stored under a lock, which is released then. -/
theorem store_under_lock (content : Bytes) (keyBackup : KeyBackup) :
    ((a.put .lock (some content)).store keyBackup).put .lock none =
      { a with objects := keyBackup.object } := by
  have hobjects : (((a.put .lock (some content)).store keyBackup).put .lock none).objects =
      keyBackup.object := by
    funext key
    cases key <;> rfl
  exact congrArg (fun objects => { a with objects := objects }) hobjects

theorem found_of_holds {keyBackup : KeyBackup} (h : a.Holds keyBackup) :
    a.found = .ok keyBackup := by
  rw [found, h .cert (by decide), h .kmsEncryptedDataKey (by decide),
    h .aesEncryptedPrivateKey (by decide), h .attestationDoc (by decide)]
  rfl

/-- Without a certificate the storage is empty, or a backup was not completed. -/
theorem found_of_cert_eq_none (hcert : a.objects .cert = none) :
    (∀ key, key ≠ .lock → a.objects key = none) ∧
        a.found = .error (.keyBackupNotFound "Key backup absent") ∨
      (¬ ∀ key, key ≠ .lock → a.objects key = none) ∧
        ∃ message, a.found = .error (.keyBackupPartiallyWritten message) := by
  rw [found, hcert]
  rcases assemble_missing_cert (a.objects .kmsEncryptedDataKey)
    (a.objects .aesEncryptedPrivateKey) (a.objects .attestationDoc) with
    ⟨hkms, haes, hdoc, hfound⟩ | ⟨hsome, hfound⟩
  · refine .inl ⟨fun key hkey => ?_, hfound⟩
    cases key <;> first | assumption | exact absurd rfl hkey
  · refine .inr ⟨fun hnone => ?_, hfound⟩
    rcases hsome with hkms | haes | hdoc
    · exact hkms (hnone _ (by decide))
    · exact haes (hnone _ (by decide))
    · exact hdoc (hnone _ (by decide))

end Snapshot

namespace World

/-- Single requests are not seen. -/
theorem snapshot_record {e : Event ι} (he : e.recorded? = none) (w : World ι) :
    (w.record e).snapshot = w.snapshot := by
  simp [snapshot, record, he]

theorem snapshot_carryOut_put {w : World ι} {key : ObjectKey} {content : Bytes}
    {ifNoneMatch : Bool} (h : w.admits (.put key content ifNoneMatch) = true) :
    (w.carryOut (.put key content ifNoneMatch)).snapshot = w.snapshot.put key (some content) := by
  rw [carryOut, if_pos h]
  simp [snapshot, Snapshot.put, Event.recorded?]

theorem snapshot_carryOut_delete (w : World ι) (key : ObjectKey) :
    (w.carryOut (.delete key)).snapshot = w.snapshot.put key none := by
  simp [carryOut, admits, snapshot, Snapshot.put, Event.recorded?]

end World

variable [DecidableEq ι] {lib : Primitives} {cfg : ι → ProviderConfig} {i : ι}
  {ports : WorkingPorts lib} {a b : Snapshot ι} {α : Type}

variable (cfg i ports) in
abbrev Settles (a : Snapshot ι) (x : Code α) (r : Except Failure α) (b : Snapshot ι) : Prop :=
  (providers lib cfg).Leads i ports.answer World.snapshot a x r b

/-! ## Single requests -/

theorem settles_recordEvent (event : MbsEvent) :
    Settles cfg i ports a (recordEvent event) (.ok ()) (a.record i event) := by
  refine Leads.perform fun w hw => ⟨_, rfl, ?_⟩
  subst hw
  simp [World.snapshot, World.record, Snapshot.record, Event.recorded?]

theorem settles_note (n : Note) : Settles cfg i ports a (perform (.note n)) (.ok ()) a := by
  refine Leads.perform fun w hw => ⟨_, rfl, ?_⟩
  exact (World.snapshot_record rfl w).trans hw

theorem settles_setCurrentCertificate (bundle : MeasurementBoundCertificate) :
    Settles cfg i ports a (perform (.setCurrentCertificate bundle)) (.ok ())
      (a.install i bundle) := by
  refine Leads.perform fun w hw => ⟨_, rfl, ?_⟩
  subst hw
  simp [World.snapshot, World.install, Snapshot.install, Event.recorded?]

theorem settles_tryGetS3Object (props : KeyBackupBucketProperties) (key : ObjectKey) :
    Settles cfg i ports a (tryGetS3Object props key) (.ok (a.objects key)) a := by
  have hget : Settles cfg i ports a (perform (.getObject key))
      (.ok ((a.objects key).elim (.error .noSuchKey) .ok)) a := by
    refine Leads.perform fun w hw => ⟨w, ?_, hw⟩
    subst hw
    rfl
  refine hget.bind ?_
  cases a.objects key with
  | none => exact .pure none
  | some bytes => exact .pure (some bytes)

theorem settles_putS3Object (props : KeyBackupBucketProperties) (key : ObjectKey)
    (content : Bytes) :
    Settles cfg i ports a (putS3Object props key content) (.ok ()) (a.put key (some content)) := by
  refine Leads.bind (r := .ok ()) (Leads.perform (r := .ok ()) fun w hw => ⟨_, rfl, ?_⟩) (.pure ())
  subst hw
  have hadmits : w.admits (.put key content false) = true := rfl
  exact World.snapshot_carryOut_put hadmits

theorem settles_acquireLock (instanceId : Bytes) (hfree : a.objects .lock = none) :
    Settles cfg i ports a (acquireLock instanceId) (.ok ()) (a.put .lock (some instanceId)) := by
  refine Leads.bind (Leads.perform (r := .ok ()) fun w hw => ?_) (.pure ())
  subst hw
  change w.objects .lock = none at hfree
  have hadmits : w.admits (.put .lock instanceId true) = true := by simp [World.admits, hfree]
  refine ⟨(w.carryOut (.put .lock instanceId true)).record (.created i .lock), ?_, ?_⟩
  · change w.putObject i .lock instanceId true .ok = _
    simp [World.putObject, World.request, hadmits]
  · rw [World.snapshot_record rfl, World.snapshot_carryOut_put hadmits]

/-- A lock that is there is not replaced, whoever has put it there. -/
theorem settles_acquireLock_held (instanceId : Bytes) (hheld : a.objects .lock ≠ none) :
    Settles cfg i ports a (acquireLock instanceId)
      (.error (.storageAlreadyLocked ("Generation lock present at " ++ ObjectKey.lock.path)))
      a := by
  refine Leads.bind (b := a)
    (Leads.perform (r := .error World.preconditionFailed) fun w hw => ?_) ?_
  · subst hw
    change w.objects .lock ≠ none at hheld
    have hrefused : w.admits (.put .lock instanceId true) = false := by
      simpa [World.admits, Option.isSome_iff_ne_none] using hheld
    refine ⟨w, ?_, rfl⟩
    change w.putObject i .lock instanceId true .ok = _
    simp [World.putObject, World.request, hrefused]
  · exact .throw _

theorem settles_releaseLock :
    Settles cfg i ports a releaseLock (.ok ()) (a.put .lock none) := by
  refine Leads.bind (Leads.perform (r := .ok ()) fun w hw => ⟨_, rfl, ?_⟩) (.pure ())
  subst hw
  exact World.snapshot_carryOut_delete w .lock

/-! ## The storage adapter -/

theorem settles_getKeyBackup (props : KeyBackupBucketProperties) :
    Settles cfg i ports a (getKeyBackup props) a.found a := by
  refine (settles_tryGetS3Object props .cert).bind ?_
  refine (settles_tryGetS3Object props .kmsEncryptedDataKey).bind ?_
  refine (settles_tryGetS3Object props .aesEncryptedPrivateKey).bind ?_
  exact (settles_tryGetS3Object props .attestationDoc).bind (.ofOutcome _)

theorem settles_putKeyBackup (props : KeyBackupBucketProperties) (keyBackup : KeyBackup) :
    Settles cfg i ports a (putKeyBackup props keyBackup) (.ok ()) (a.store keyBackup) := by
  refine (settles_putS3Object props _ _).bind ?_
  refine (settles_putS3Object props _ _).bind ?_
  refine (settles_putS3Object props _ _).bind ?_
  exact settles_putS3Object props _ _

theorem settles_observed (site : Site) {x : Code KeyBackup} {r : Except Failure KeyBackup}
    (hx : Settles cfg i ports a x r b) : Settles cfg i ports a (observed site x) r b := by
  refine Leads.bind_any (fun w hw => ⟨w.history.length, w, rfl, hw⟩) fun since => ?_
  exact hx.outcome.bind ((settles_note _).bind (.ofOutcome r))

/-! ## The provider -/

/-- A port that answers without touching the world. -/
theorem settles_perform {o : Call} {r : Reply o}
    (h : ∀ w : World ι, World.exec lib i o (ports.answer o) w = some (r, w)) :
    Settles cfg i ports a (perform o) (.ok r) a :=
  Leads.perform fun w hw => ⟨w, h w, hw⟩

theorem settles_orGeneralSecurity (message : String) {o : Option α} {v : α} (h : o = some v) :
    Settles cfg i ports a (orGeneralSecurity message o) (.ok v) a := by
  subst h
  exact .pure v

theorem settles_keyBackupExists (site : Site) (c : ProviderConfig) {keyBackup : KeyBackup}
    (h : a.found = .ok keyBackup) :
    Settles cfg i ports a (keyBackupExists c site) (.ok true) a :=
  ((settles_observed site (h ▸ settles_getKeyBackup c.bucketProperties)).bind
    (.pure true)).tryCatch_ok

theorem settles_keyBackupExists_of_empty (site : Site) (c : ProviderConfig) {message : String}
    (h : a.found = .error (.keyBackupNotFound message)) :
    Settles cfg i ports a (keyBackupExists c site) (.ok false) a :=
  (settles_observed site (h ▸ settles_getKeyBackup c.bucketProperties)).bind_error.tryCatch_error
    (.pure false)

theorem settles_keyBackupExists_of_incomplete (site : Site) (c : ProviderConfig) {message : String}
    (h : a.found = .error (.keyBackupPartiallyWritten message)) :
    Settles cfg i ports a (keyBackupExists c site)
      (.error (.keyBackupPartiallyWritten message)) a :=
  (settles_observed site (h ▸ settles_getKeyBackup c.bucketProperties)).bind_error.tryCatch_error
    (.throw _)

theorem settles_isKeyMatchingCertificate (bundle : MeasurementBoundCertificate) :
    Settles cfg i ports a (isKeyMatchingCertificate bundle.certificate bundle.privateKey)
      (.ok (ports.verdict bundle)) a := by
  set signature := ports.sign bundle.certificate.sigAlgName bundle.privateKey probe with hsignature
  have hsign : Settles cfg i ports a
      (perform (.sign bundle.certificate.sigAlgName bundle.privateKey probe))
      (.ok (.ok signature)) a := settles_perform fun w => rfl
  have hverify : Settles cfg i ports a (perform (.verify bundle.certificate.sigAlgName
      bundle.certificate.publicKey probe signature)) (.ok (.ok (ports.verdict bundle))) a :=
    settles_perform fun w => rfl
  exact (hsign.bind (Leads.bind (.pure signature)
    (hverify.bind (.pure (ports.verdict bundle))))).tryCatch_ok

theorem decode_eq_some {keyBackup : KeyBackup} {bundle : MeasurementBoundCertificate}
    (h : decode lib keyBackup = some bundle) :
    ∃ dataKey, lib.kmsDecrypt keyBackup.kmsEncryptedDataKey = some dataKey ∧
      dataKey.length = 32 ∧
      lib.generateCertificate keyBackup.certBytes = some bundle.certificate ∧
      (∃ bytes, lib.aeadDecrypt dataKey keyBackup.aeadEncryptedPrivateKey = some bytes ∧
        lib.generatePrivate bundle.certificate.publicKey.algorithm bytes =
          some bundle.privateKey) ∧
      bundle.attestationToken = ⟨keyBackup.attestationDocBytes⟩ := by
  simp only [decode, Option.bind_eq_bind, Option.bind_eq_some_iff] at h
  obtain ⟨dataKey, hkms, certificate, hcert, h⟩ := h
  by_cases hsize : dataKey.length = 32
  · simp only [hsize, ne_eq, not_true_eq_false, if_false, Option.bind_eq_some_iff] at h
    obtain ⟨bytes, haead, privateKey, hprivate, hbundle⟩ := h
    cases hbundle
    exact ⟨dataKey, hkms, hsize, hcert, ⟨bytes, haead, hprivate⟩, rfl⟩
  · simp [hsize] at h

theorem settles_decodeKeyMaterial {keyBackup : KeyBackup} {dataKey : Bytes}
    {bundle : MeasurementBoundCertificate} (hdecode : decode lib keyBackup = some bundle)
    (hkms : lib.kmsDecrypt keyBackup.kmsEncryptedDataKey = some dataKey) :
    Settles cfg i ports a (decodeKeyMaterial lib keyBackup dataKey)
      (.ok (bundle.certificate, bundle.privateKey, bundle.attestationToken)) a := by
  obtain ⟨dataKey', hkms', hsize, hcert, ⟨bytes, haead, hprivate⟩, htoken⟩ :=
    decode_eq_some hdecode
  obtain rfl := Option.some_injective _ (hkms.symm.trans hkms')
  have hdecrypt : Settles cfg i ports a (decrypt lib keyBackup.aeadEncryptedPrivateKey dataKey)
      (.ok bytes) a := by
    simp only [decrypt, hsize, ne_eq, not_true_eq_false, if_false]
    exact settles_orGeneralSecurity _ haead
  rw [htoken]
  refine Leads.tryCatch_ok ((settles_orGeneralSecurity _ hcert).bind (hdecrypt.bind ?_))
  exact (settles_orGeneralSecurity _ hprivate).bind (.pure _)

theorem settles_orGeneralSecurity_none (message : String) {o : Option α} (h : o = none) :
    Settles cfg i ports a (orGeneralSecurity message o) (.error (.generalSecurity message)) a := by
  subst h
  exact .throw _

theorem settles_decrypt_of_none {ciphertext key : Bytes}
    (h : key.length = 32 → lib.aeadDecrypt key ciphertext = none) :
    ∃ message, Settles cfg i ports a (decrypt lib ciphertext key)
      (.error (.generalSecurity message)) a := by
  by_cases hsize : key.length = 32
  · refine ⟨"decryption failed", ?_⟩
    simp only [decrypt, hsize, ne_eq, not_true_eq_false, if_false]
    exact settles_orGeneralSecurity_none _ (h hsize)
  · refine ⟨invalidKeySize, ?_⟩
    simp only [decrypt, ne_eq, hsize, not_false_eq_true, if_true]
    exact Leads.bind_error (.throw _)

/-- Whichever step of the decoding fails, the bundle is reported as corrupted. -/
theorem settles_decodeKeyMaterial_of_none {keyBackup : KeyBackup} {dataKey : Bytes}
    (hdecode : decode lib keyBackup = none)
    (hkms : lib.kmsDecrypt keyBackup.kmsEncryptedDataKey = some dataKey) :
    Settles cfg i ports a (decodeKeyMaterial lib keyBackup dataKey)
      (.error (.bundleCorrupted "Key material could not be decoded")) a := by
  suffices hfails : ∃ message, Settles cfg i ports a (do
      let certificate ← orGeneralSecurity "invalid certificate"
        (lib.generateCertificate keyBackup.certBytes)
      let token := AttestationToken.mk keyBackup.attestationDocBytes
      let decryptedPrivateKeyBytes ← decrypt lib keyBackup.aeadEncryptedPrivateKey dataKey
      let privateKey ← parsePrivateKey lib decryptedPrivateKeyBytes certificate.publicKey.algorithm
      pure (certificate, privateKey, token)) (.error (.generalSecurity message)) a by
    obtain ⟨message, hmessage⟩ := hfails
    exact hmessage.tryCatch_error (.throw _)
  cases hcert : lib.generateCertificate keyBackup.certBytes with
  | none => exact ⟨_, Leads.bind_error (settles_orGeneralSecurity_none _ rfl)⟩
  | some certificate =>
    by_cases haead : dataKey.length = 32 →
        lib.aeadDecrypt dataKey keyBackup.aeadEncryptedPrivateKey = none
    · obtain ⟨message, hmessage⟩ : ∃ message, Settles cfg i ports a
          (decrypt lib keyBackup.aeadEncryptedPrivateKey dataKey)
          (.error (.generalSecurity message)) a := settles_decrypt_of_none haead
      exact ⟨message, (settles_orGeneralSecurity _ rfl).bind hmessage.bind_error⟩
    · obtain ⟨hsize, hsome⟩ := Classical.not_imp.mp haead
      obtain ⟨bytes, hbytes⟩ := Option.ne_none_iff_exists'.mp hsome
      have hprivate : lib.generatePrivate certificate.publicKey.algorithm bytes = none := by
        by_contra hsome
        obtain ⟨privateKey, hprivate⟩ := Option.ne_none_iff_exists'.mp hsome
        simp [decode, hkms, hcert, hsize, hbytes, hprivate] at hdecode
      have hdecrypt : Settles cfg i ports a
          (decrypt lib keyBackup.aeadEncryptedPrivateKey dataKey) (.ok bytes) a := by
        simp only [decrypt, hsize, ne_eq, not_true_eq_false, if_false]
        exact settles_orGeneralSecurity _ hbytes
      exact ⟨_, (settles_orGeneralSecurity _ rfl).bind (hdecrypt.bind
        (settles_orGeneralSecurity_none _ hprivate).bind_error)⟩

theorem settles_kmsDecrypt {ciphertext dataKey : Bytes}
    (h : lib.kmsDecrypt ciphertext = some dataKey) :
    Settles cfg i ports a (perform (.kmsDecrypt ciphertext)) (.ok (.ok dataKey)) a := by
  refine settles_perform fun w => ?_
  have hanswer : ports.answer (.kmsDecrypt ciphertext) = .ok := if_pos (by rw [h]; rfl)
  rw [hanswer]
  change (lib.kmsDecrypt ciphertext).map _ = _
  rw [h]
  rfl

theorem settles_kmsDecrypt_of_none {ciphertext : Bytes} (h : lib.kmsDecrypt ciphertext = none) :
    Settles cfg i ports a (perform (.kmsDecrypt ciphertext))
      (.ok (.error (.kms "Failed to decrypt ciphertext using AWS KMS with NSM"))) a := by
  refine settles_perform fun w => ?_
  have hanswer : ports.answer (.kmsDecrypt ciphertext) =
      .failure (.kms "Failed to decrypt ciphertext using AWS KMS with NSM") :=
    if_neg (by rw [h]; exact Bool.false_ne_true)
  rw [hanswer]
  rfl

theorem settles_toMeasurementBoundCertificate {keyBackup : KeyBackup}
    {bundle : MeasurementBoundCertificate} (hdecode : decode lib keyBackup = some bundle)
    (hmatches : ports.Matches bundle) :
    Settles cfg i ports a (toMeasurementBoundCertificate lib keyBackup) (.ok bundle) a := by
  obtain ⟨dataKey, hkms, -⟩ := decode_eq_some hdecode
  refine (settles_kmsDecrypt hkms).bind (Leads.bind (.pure dataKey) ?_)
  refine (settles_decodeKeyMaterial hdecode hkms).bind ?_
  refine (settles_isKeyMatchingCertificate bundle).bind ?_
  rw [hmatches]
  exact .pure bundle

/-- A backup without a usable bundle. -/
theorem settles_toMeasurementBoundCertificate_of_unusable {keyBackup : KeyBackup}
    (h : ∀ bundle, decode lib keyBackup = some bundle → ¬ ports.Matches bundle) :
    ∃ e event, recordFailureEvent e = recordEvent event ∧
      Settles cfg i ports a (toMeasurementBoundCertificate lib keyBackup) (.error e) a := by
  cases hkms : lib.kmsDecrypt keyBackup.kmsEncryptedDataKey with
  | none =>
    exact ⟨.kms _, .kmsOperationFailed, rfl,
      (settles_kmsDecrypt_of_none hkms).bind (Leads.bind_error (.throw _))⟩
  | some dataKey =>
    cases hdecode : decode lib keyBackup with
    | none =>
      refine ⟨.bundleCorrupted "Key material could not be decoded", .storedBackupCorrupted, rfl,
        (settles_kmsDecrypt hkms).bind (Leads.bind (.pure dataKey) ?_)⟩
      exact (settles_decodeKeyMaterial_of_none hdecode hkms).bind_error
    | some bundle =>
      refine ⟨.bundleCorrupted "Private key does not match certificate", .storedBackupCorrupted,
        rfl, (settles_kmsDecrypt hkms).bind (Leads.bind (.pure dataKey) ?_)⟩
      refine (settles_decodeKeyMaterial hdecode hkms).bind ?_
      refine (settles_isKeyMatchingCertificate bundle).bind ?_
      rw [Bool.eq_false_of_not_eq_true (h bundle hdecode)]
      exact Leads.bind_error (.throw _)

theorem settles_loadExistingKeyBackup {keyBackup : KeyBackup}
    {bundle : MeasurementBoundCertificate} (c : ProviderConfig) (hfound : a.found = .ok keyBackup)
    (hdecode : decode lib keyBackup = some bundle) (hmatches : ports.Matches bundle) :
    Settles cfg i ports a (loadExistingKeyBackup lib c) (.ok ()) (a.install i bundle) := by
  refine (settles_observed .load (hfound ▸ settles_getKeyBackup c.bucketProperties)).bind ?_
  refine (settles_toMeasurementBoundCertificate hdecode hmatches).bind ?_
  exact settles_setCurrentCertificate bundle

theorem settles_generateAndStoreKeyBackup (c : ProviderConfig) :
    Settles cfg i ports a (generateAndStoreKeyBackup lib c) (.ok ())
      (a.store (ports.keyBackup c)) := by
  have hgenerate : Settles cfg i ports a (perform .certificateFactoryGenerate)
      (.ok (.ok ports.certAndKey)) a := settles_perform fun w => rfl
  have hcollect : Settles cfg i ports a (perform (.collectBoundToPubkey
      ports.certAndKey.certificate.publicKey c.userDataBoundToAttestation))
      (.ok (.ok (ports.token c))) a := settles_perform fun w => rfl
  have hdataKey : Settles cfg i ports a (perform .kmsGenerateDataKey)
      (.ok (.ok ports.dataKey)) a := settles_perform fun w => rfl
  have hsealed : Settles cfg i ports a (perform (.aeadEncrypt ports.certAndKey.privateKey.encoded
      ports.dataKey.plaintext)) (.ok (.ok (ports.keyBackup c).aeadEncryptedPrivateKey)) a :=
    settles_perform fun w => rfl
  have hencrypt : Settles cfg i ports a
      (encrypt ports.certAndKey.privateKey.encoded ports.dataKey.plaintext)
      (.ok (ports.keyBackup c).aeadEncryptedPrivateKey) a := by
    simp only [encrypt, ports.keySize, ne_eq, not_true_eq_false, if_false]
    exact hsealed.bind (.pure _)
  have hpem : Settles cfg i ports a (toPemBytes lib ports.certAndKey.certificate)
      (.ok (lib.writePem ports.encoded)) a :=
    (settles_orGeneralSecurity _ ports.encoded_eq).bind (.pure _)
  refine hgenerate.bind (Leads.bind (.pure _) ?_)
  refine hcollect.bind (Leads.bind (.pure _) ?_)
  refine hdataKey.bind (Leads.bind (.pure _) ?_)
  refine hencrypt.bind (hpem.bind ((settles_note _).bind ?_))
  exact settles_putKeyBackup _ _

/-- The backup is complete. The lock does not matter: it is not looked at. -/
theorem settles_reloadCertificateOnce {keyBackup : KeyBackup}
    {bundle : MeasurementBoundCertificate} (c : ProviderConfig) (hfound : a.found = .ok keyBackup)
    (hdecode : decode lib keyBackup = some bundle) (hmatches : ports.Matches bundle) :
    Settles cfg i ports a (reloadCertificateOnce lib c) (.ok ()) (a.install i bundle) := by
  have hmissing : Settles cfg i ports a (generateMissingKeyBackup lib c) (.ok ()) a :=
    (settles_keyBackupExists .check c hfound).bind (.pure ())
  exact hmissing.bind (settles_loadExistingKeyBackup c hfound hdecode hmatches)

/-- Nothing is stored and there is no lock: a backup is generated and loaded. -/
theorem settles_reloadCertificateOnce_of_empty (c : ProviderConfig)
    (hempty : ∀ key, a.objects key = none) :
    Settles cfg i ports a (reloadCertificateOnce lib c) (.ok ())
      ({ a with objects := (ports.keyBackup c).object }.install i (ports.bundle c)) := by
  have hfound : a.found = .error (.keyBackupNotFound "Key backup absent") := by
    rcases Snapshot.found_of_cert_eq_none (hempty .cert) with ⟨-, hfound⟩ | ⟨hnot, -⟩
    · exact hfound
    · exact absurd (fun key _ => hempty key) hnot
  have hmissing : Settles cfg i ports a (generateMissingKeyBackup lib c) (.ok ())
      (((a.put .lock (some c.instanceId)).store (ports.keyBackup c)).put .lock none) := by
    refine (settles_keyBackupExists_of_empty .check c hfound).bind ?_
    refine (settles_acquireLock c.instanceId (hempty .lock)).bind ?_
    refine (settles_keyBackupExists_of_empty .recheck c
      ((Snapshot.found_put_lock _).trans hfound)).bind ?_
    exact (settles_generateAndStoreKeyBackup c).bind settles_releaseLock
  rw [Snapshot.store_under_lock] at hmissing
  refine hmissing.bind ?_
  exact settles_loadExistingKeyBackup c (Snapshot.found_of_holds fun _ _ => rfl)
    (ports.decode_keyBackup c) (ports.matches_bundle c)

/-- Nothing is stored, but somebody has left the lock. -/
theorem settles_reloadCertificateOnce_of_locked (c : ProviderConfig) {message : String}
    (hfound : a.found = .error (.keyBackupNotFound message)) (hlocked : a.objects .lock ≠ none) :
    Settles cfg i ports a (reloadCertificateOnce lib c)
      (.error (.storageAlreadyLocked ("Generation lock present at " ++ ObjectKey.lock.path)))
      a := by
  refine Leads.bind_error ((settles_keyBackupExists_of_empty .check c hfound).bind ?_)
  exact (settles_acquireLock_held c.instanceId hlocked).bind_error

theorem settles_reloadCertificateOnce_of_incomplete (c : ProviderConfig) {message : String}
    (hfound : a.found = .error (.keyBackupPartiallyWritten message)) :
    Settles cfg i ports a (reloadCertificateOnce lib c)
      (.error (.keyBackupPartiallyWritten message)) a :=
  (settles_keyBackupExists_of_incomplete .check c hfound).bind_error.bind_error

/-- The backup is complete, but it cannot be decoded or the key does not match. -/
theorem settles_reloadCertificateOnce_of_unusable (c : ProviderConfig) {keyBackup : KeyBackup}
    (hfound : a.found = .ok keyBackup)
    (h : ∀ bundle, decode lib keyBackup = some bundle → ¬ ports.Matches bundle) :
    ∃ e event, recordFailureEvent e = recordEvent event ∧
      Settles cfg i ports a (reloadCertificateOnce lib c) (.error e) a := by
  have hmissing : Settles cfg i ports a (generateMissingKeyBackup lib c) (.ok ()) a :=
    (settles_keyBackupExists .check c hfound).bind (.pure ())
  obtain ⟨e, event, hevent, hfails⟩ : ∃ e event, recordFailureEvent e = recordEvent event ∧
      Settles cfg i ports a (toMeasurementBoundCertificate lib keyBackup) (.error e) a :=
    settles_toMeasurementBoundCertificate_of_unusable h
  refine ⟨e, event, hevent, hmissing.bind ?_⟩
  refine (settles_observed .load (hfound ▸ settles_getKeyBackup c.bucketProperties)).bind ?_
  exact hfails.bind_error

theorem settles_reloadCertificate (c : ProviderConfig)
    (h : Settles cfg i ports a (reloadCertificateOnce lib c) (.ok ()) b) :
    Settles cfg i ports a (reloadCertificate lib c) (.ok ()) (b.record i .success) :=
  h.tryCatch_ok.tryCatch_ok.bind (settles_recordEvent .success)

/-- What fails for a transient reason is tried once more, and fails again. -/
theorem settles_reloadCertificate_of_error (c : ProviderConfig) {e : Failure} {event : MbsEvent}
    (hevent : recordFailureEvent e = recordEvent event)
    (h : Settles cfg i ports a (reloadCertificateOnce lib c) (.error e) a) :
    Settles cfg i ports a (reloadCertificate lib c)
      (.error (.unchecked "Failed to reload certificate")) (a.record i event) := by
  have hsleep : Settles cfg i ports a (perform (.sleep retryBackoffMillis)) (.ok (.ok ())) a :=
    settles_perform fun w => rfl
  have hretry : Settles cfg i ports a (reloadCertificateWithRetryOnTransientError lib c)
      (.error e) a := by
    refine h.tryCatch_error ?_
    split_ifs
    · exact hsleep.bind (Leads.bind (.pure ()) h)
    · exact .throw e
  refine Leads.bind_error (hretry.tryCatch_error ?_)
  rw [hevent]
  exact (settles_recordEvent event).bind (.throw _)

/-- Whoever is stuck is told so, and nothing is overwritten. -/
theorem settles_reloadCertificate_of_stuck (c : ProviderConfig) (h : a.Stuck ports) :
    ∃ event, Settles cfg i ports a (reloadCertificate lib c)
      (.error (.unchecked "Failed to reload certificate")) (a.record i event) := by
  obtain ⟨e, event, hevent, hfails⟩ : ∃ e event, recordFailureEvent e = recordEvent event ∧
      Settles cfg i ports a (reloadCertificateOnce lib c) (.error e) a := by
    rcases h with ⟨hcert, hlock⟩ | ⟨keyBackup, hholds, hunusable⟩
    · rcases Snapshot.found_of_cert_eq_none hcert with ⟨-, hfound⟩ | ⟨-, message, hfound⟩
      · exact ⟨_, .waitingForMbsLock, rfl, settles_reloadCertificateOnce_of_locked c hfound hlock⟩
      · exact ⟨_, .storedBackupCorrupted, rfl,
          settles_reloadCertificateOnce_of_incomplete c hfound⟩
    · exact settles_reloadCertificateOnce_of_unusable c (Snapshot.found_of_holds hholds) hunusable
  exact ⟨event, settles_reloadCertificate_of_error c hevent hfails⟩

/-! ## After any run -/

variable (lib cfg ports) in
/-- Instance `i` reloads its certificate after the given schedule, undisturbed. -/
def reload (schedule : List (Action ι Choice ℕ)) (i : ι) : List (Action ι Choice ℕ) :=
  schedule ++ (providers lib cfg).undisturbed i ports.answer (worldAfter lib cfg schedule)

variable {schedule : List (Action ι Choice ℕ)}

variable (lib cfg ports) in
def reloadOutcome (schedule : List (Action ι Choice ℕ)) (i : ι) : Option (Except Failure Unit) :=
  ((providers lib cfg).alone i ports.answer (ExceptT.run (reloadCertificate lib (cfg i)))
    (worldAfter lib cfg schedule)).map Prod.fst

theorem run_reload {r : Except Failure Unit}
    (hidle : ((providers lib cfg).run World.pristine schedule).control i = .idle)
    (h : Settles cfg i ports (worldAfter lib cfg schedule).snapshot (reloadCertificate lib (cfg i))
      r b) :
    reloadOutcome lib cfg ports schedule i = some r ∧
      (worldAfter lib cfg (reload lib cfg ports schedule i)).snapshot = b ∧
      ((providers lib cfg).run World.pristine (reload lib cfg ports schedule i)).control =
        ((providers lib cfg).run World.pristine schedule).control := by
  obtain ⟨w', hrun, hw'⟩ := h _ rfl
  refine ⟨by rw [reloadOutcome, hrun, Option.map_some], ?_⟩
  have hmain : (providers lib cfg).alone i ports.answer ((providers lib cfg).main i)
      (worldAfter lib cfg schedule) = some ((), w') := alone_bind_of_run hrun
  have hend := run_undisturbed hidle hmain
  unfold worldAfter reload
  rw [worldAfter, hend]
  exact ⟨hw', rfl⟩

section Stored

omit [DecidableEq ι]

theorem stored_published (j : ι) (keyBackup : KeyBackup) (key : ObjectKey) :
    stored (.published j keyBackup) key = keyBackup.object key := by
  cases key <;> rfl

/-- The certificate is written last. -/
theorem stored_cert_eq_none {n : ℕ} (hn : n < 4) (j : ι) (keyBackup : KeyBackup) :
    stored (.publishing j keyBackup n) .cert = none := by
  interval_cases n <;> rfl

end Stored

/-- A certificate in the bucket is there with all the other artifacts. -/
theorem World.Inv.exists_holds {w : World ι} (hw : w.Inv lib) (h : w.objects .cert ≠ none) :
    ∃ keyBackup, w.snapshot.Holds keyBackup := by
  obtain ⟨p, hp⟩ := hw.tracks
  rw [hp.stored_eq .cert (by decide)] at h
  cases p with
  | unclaimed => exact absurd rfl h
  | claimed j => exact absurd rfl h
  | publishing j keyBackup n =>
    have hn : 4 ≤ n := by
      by_contra hlt
      exact h (stored_cert_eq_none (by omega) j keyBackup)
    refine ⟨keyBackup, fun key hkey => (hp.stored_eq key hkey).trans ?_⟩
    rw [← stored_published j, stored, stored, Phase.written, List.take_of_length_le hn]
    rfl
  | published j keyBackup =>
    exact ⟨keyBackup, fun key hkey => (hp.stored_eq key hkey).trans (stored_published j _ key)⟩

/-- Without certificate and lock nothing is stored. -/
theorem World.Inv.objects_eq_none {w : World ι} (hw : w.Inv lib) (hcert : w.objects .cert = none)
    (hlock : w.objects .lock = none) (key : ObjectKey) : w.objects key = none := by
  obtain ⟨p, hp⟩ := hw.tracks
  by_cases hkey : key = .lock
  · rw [hkey, hlock]
  rw [hp.stored_eq key hkey]
  rw [hp.stored_eq .cert (by decide)] at hcert
  cases p with
  | unclaimed => rfl
  | claimed j => exact absurd hlock (hp.locked trivial)
  | publishing j keyBackup n => exact absurd hlock (hp.locked trivial)
  | published j keyBackup => cases hcert

variable (lib cfg ports) in
def reloadInTurn (schedule : List (Action ι Choice ℕ)) (order : List ι) :
    List (Action ι Choice ℕ) :=
  order.foldl (reload lib cfg ports) schedule

variable (lib cfg ports) in
def outcomesInTurn (schedule : List (Action ι Choice ℕ)) :
    List ι → List (Option (Except Failure Unit))
  | [] => []
  | j :: order =>
    reloadOutcome lib cfg ports schedule j ::
      outcomesInTurn (reload lib cfg ports schedule j) order

variable (lib cfg) in
def Reloaded (schedule : List (Action ι Choice ℕ)) (order : List ι)
    (bundle : MeasurementBoundCertificate) : Prop :=
  ∀ i ∈ order, ((providers lib cfg).run World.pristine schedule).control i = .idle ∧
    (worldAfter lib cfg schedule).currentCertificate i = some bundle

variable {order : List ι}

/-- Whoever reloads from a complete backup gets its certificate, and keeps it. -/
theorem reloadInTurn_of_complete {keyBackup : KeyBackup} {bundle : MeasurementBoundCertificate}
    {ready : List ι} (hready : Reloaded lib cfg schedule ready bundle)
    (hidle : ∀ i ∈ order, ((providers lib cfg).run World.pristine schedule).control i = .idle)
    (hholds : (worldAfter lib cfg schedule).snapshot.Holds keyBackup)
    (hdecode : decode lib keyBackup = some bundle) (hmatches : ports.Matches bundle) :
    (∀ r ∈ outcomesInTurn lib cfg ports schedule order, r = some (.ok ())) ∧
      (worldAfter lib cfg (reloadInTurn lib cfg ports schedule order)).objects =
        (worldAfter lib cfg schedule).objects ∧
      Reloaded lib cfg (reloadInTurn lib cfg ports schedule order) (ready ++ order) bundle := by
  induction order generalizing schedule ready with
  | nil =>
    rw [List.append_nil]
    exact ⟨List.forall_mem_nil _, rfl, hready⟩
  | cons j order ih =>
    have hreloads : Settles cfg j ports (worldAfter lib cfg schedule).snapshot
        (reloadCertificate lib (cfg j)) (.ok ()) _ :=
      settles_reloadCertificate _ (settles_reloadCertificateOnce _
        (Snapshot.found_of_holds hholds) hdecode hmatches)
    obtain ⟨houtcome, hsnapshot, hcontrol⟩ := run_reload (hidle j List.mem_cons_self) hreloads
    have hobjects := congrArg Snapshot.objects hsnapshot
    have hcertificate : (worldAfter lib cfg (reload lib cfg ports schedule j)).currentCertificate =
        Function.update (worldAfter lib cfg schedule).currentCertificate j (some bundle) :=
      congrArg Snapshot.currentCertificate hsnapshot
    have hready' : Reloaded lib cfg (reload lib cfg ports schedule j) (ready ++ [j]) bundle := by
      intro i hi
      rw [hcontrol, hcertificate]
      by_cases hij : i = j
      · rw [hij, Function.update_self]
        exact ⟨hidle j List.mem_cons_self, rfl⟩
      · rw [Function.update_of_ne hij]
        exact hready i ((List.mem_append.mp hi).resolve_right
          fun hmem => hij (List.mem_singleton.mp hmem))
    obtain ⟨houtcomes, hobjects', hall⟩ := ih hready'
      (fun i hi => hcontrol ▸ hidle i (List.mem_cons_of_mem j hi))
      (fun key hkey => (congrFun hobjects key).trans (hholds key hkey))
    rw [List.append_assoc, List.singleton_append] at hall
    exact ⟨List.forall_mem_cons.mpr ⟨houtcome, houtcomes⟩, hobjects'.trans hobjects, hall⟩

/-- The first instance generates the backup that the others then load. -/
theorem reloadInTurn_of_empty {j : ι}
    (hidle : ∀ i ∈ j :: order, ((providers lib cfg).run World.pristine schedule).control i = .idle)
    (hempty : ∀ key, (worldAfter lib cfg schedule).objects key = none) :
    (∀ r ∈ outcomesInTurn lib cfg ports schedule (j :: order), r = some (.ok ())) ∧
      (worldAfter lib cfg (reloadInTurn lib cfg ports schedule (j :: order))).objects =
        (ports.keyBackup (cfg j)).object ∧
      Reloaded lib cfg (reloadInTurn lib cfg ports schedule (j :: order)) (j :: order)
        (ports.bundle (cfg j)) := by
  have hgenerates : Settles cfg j ports (worldAfter lib cfg schedule).snapshot
      (reloadCertificate lib (cfg j)) (.ok ()) _ :=
    settles_reloadCertificate _ (settles_reloadCertificateOnce_of_empty _ hempty)
  obtain ⟨houtcome, hsnapshot, hcontrol⟩ := run_reload (hidle j List.mem_cons_self) hgenerates
  have hobjects := congrArg Snapshot.objects hsnapshot
  have hcertificate := congrFun (congrArg Snapshot.currentCertificate hsnapshot) j
  have hfirst : Reloaded lib cfg (reload lib cfg ports schedule j) [j]
      (ports.bundle (cfg j)) := by
    intro i hi
    rw [List.mem_singleton.mp hi, hcontrol]
    exact ⟨hidle j List.mem_cons_self, hcertificate.trans (Function.update_self ..)⟩
  obtain ⟨houtcomes, hobjects', hall⟩ := reloadInTurn_of_complete hfirst
    (fun i hi => hcontrol ▸ hidle i (List.mem_cons_of_mem j hi))
    (fun key _ => congrFun hobjects key) (ports.decode_keyBackup (cfg j))
    (ports.matches_bundle (cfg j))
  exact ⟨List.forall_mem_cons.mpr ⟨houtcome, houtcomes⟩, hobjects'.trans hobjects, hall⟩

/-- Whatever stops one instance stops everybody. -/
theorem reloadInTurn_of_stuck
    (hidle : ∀ i ∈ order, ((providers lib cfg).run World.pristine schedule).control i = .idle)
    (hstuck : (worldAfter lib cfg schedule).snapshot.Stuck ports) :
    (∀ r ∈ outcomesInTurn lib cfg ports schedule order,
        r = some (.error (.unchecked "Failed to reload certificate"))) ∧
      (worldAfter lib cfg (reloadInTurn lib cfg ports schedule order)).objects =
        (worldAfter lib cfg schedule).objects ∧
      (worldAfter lib cfg (reloadInTurn lib cfg ports schedule order)).currentCertificate =
        (worldAfter lib cfg schedule).currentCertificate ∧
      ((providers lib cfg).run World.pristine (reloadInTurn lib cfg ports schedule order)).control =
        ((providers lib cfg).run World.pristine schedule).control := by
  induction order generalizing schedule with
  | nil => exact ⟨List.forall_mem_nil _, rfl, rfl, rfl⟩
  | cons j order ih =>
    obtain ⟨event, hfails⟩ : ∃ event, Settles cfg j ports (worldAfter lib cfg schedule).snapshot
        (reloadCertificate lib (cfg j)) (.error (.unchecked "Failed to reload certificate"))
        ((worldAfter lib cfg schedule).snapshot.record j event) :=
      settles_reloadCertificate_of_stuck (cfg j) hstuck
    obtain ⟨houtcome, hsnapshot, hcontrol⟩ := run_reload (hidle j List.mem_cons_self) hfails
    have hobjects := congrArg Snapshot.objects hsnapshot
    have hcertificate := congrArg Snapshot.currentCertificate hsnapshot
    obtain ⟨houtcomes, hobjects', hcertificate', hcontrol'⟩ :=
      @ih (reload lib cfg ports schedule j)
        (fun i hi => hcontrol ▸ hidle i (List.mem_cons_of_mem j hi)) (hsnapshot ▸ hstuck)
    exact ⟨List.forall_mem_cons.mpr ⟨houtcome, houtcomes⟩, hobjects'.trans hobjects,
      hcertificate'.trans hcertificate, hcontrol'.trans hcontrol⟩

/-- Nothing is stored, a backup can be used, or everybody is stuck. -/
theorem World.Inv.empty_or_usable_or_stuck {w : World ι} (hw : w.Inv lib)
    (ports : WorkingPorts lib) :
    (∀ key, w.objects key = none) ∨
      (∃ keyBackup bundle, w.snapshot.Holds keyBackup ∧ decode lib keyBackup = some bundle ∧
        ports.Matches bundle) ∨ w.snapshot.Stuck ports := by
  by_cases hcert : w.objects .cert = none
  · by_cases hlock : w.objects .lock = none
    · exact .inl (hw.objects_eq_none hcert hlock)
    · exact .inr (.inr (.inl ⟨hcert, hlock⟩))
  · obtain ⟨keyBackup, hholds⟩ := hw.exists_holds hcert
    by_cases husable : ∃ bundle, decode lib keyBackup = some bundle ∧ ports.Matches bundle
    · obtain ⟨bundle, hdecode, hmatches⟩ := husable
      exact .inr (.inl ⟨keyBackup, bundle, hholds, hdecode, hmatches⟩)
    · refine .inr (.inr (.inr ⟨keyBackup, hholds, fun bundle hdecode hmatches => ?_⟩))
      exact husable ⟨bundle, hdecode, hmatches⟩

variable (lib cfg ports schedule order) in
/-- After any run nothing is stored, or the stored backup is complete and can be used, or the
instances are stuck: there is a lock without a complete backup, or a complete backup without a
usable bundle. If idle instances then reload their certificates one after the other and
undisturbed, they all succeed and get one certificate in the first two cases, the first of them
generating a backup if there is none. In the third they all fail, nobody gets a certificate or
loses one, and nothing in the buckets is touched. -/
theorem instances_recover
    (hidle : ∀ i ∈ order, ((providers lib cfg).run World.pristine schedule).control i = .idle) :
    ((∀ key, (worldAfter lib cfg schedule).objects key = none) ∨
      (∃ keyBackup bundle, (worldAfter lib cfg schedule).snapshot.Holds keyBackup ∧
        decode lib keyBackup = some bundle ∧ ports.Matches bundle) ∨
      (worldAfter lib cfg schedule).snapshot.Stuck ports) ∧
    (∀ keyBackup bundle, (worldAfter lib cfg schedule).snapshot.Holds keyBackup →
      decode lib keyBackup = some bundle → ports.Matches bundle →
        (∀ r ∈ outcomesInTurn lib cfg ports schedule order, r = some (.ok ())) ∧
        (worldAfter lib cfg (reloadInTurn lib cfg ports schedule order)).objects =
          (worldAfter lib cfg schedule).objects ∧
        Reloaded lib cfg (reloadInTurn lib cfg ports schedule order) order bundle) ∧
    ((∀ key, (worldAfter lib cfg schedule).objects key = none) → ∀ j rest, order = j :: rest →
      (∀ r ∈ outcomesInTurn lib cfg ports schedule order, r = some (.ok ())) ∧
      (worldAfter lib cfg (reloadInTurn lib cfg ports schedule order)).objects =
        (ports.keyBackup (cfg j)).object ∧
      Reloaded lib cfg (reloadInTurn lib cfg ports schedule order) order (ports.bundle (cfg j))) ∧
    ((worldAfter lib cfg schedule).snapshot.Stuck ports →
      (∀ r ∈ outcomesInTurn lib cfg ports schedule order,
        r = some (.error (.unchecked "Failed to reload certificate"))) ∧
      (worldAfter lib cfg (reloadInTurn lib cfg ports schedule order)).objects =
        (worldAfter lib cfg schedule).objects ∧
      (worldAfter lib cfg (reloadInTurn lib cfg ports schedule order)).currentCertificate =
        (worldAfter lib cfg schedule).currentCertificate ∧
      ∀ i ∈ order, ((providers lib cfg).run World.pristine
        (reloadInTurn lib cfg ports schedule order)).control i = .idle) := by
  have hinv : (worldAfter lib cfg schedule).Inv lib := providers_inv lib cfg schedule
  refine ⟨hinv.empty_or_usable_or_stuck ports, ?_, ?_, fun hstuck => ?_⟩
  · intro keyBackup bundle hholds hdecode hmatches
    have hnone : Reloaded lib cfg schedule [] bundle := by rintro i ⟨⟩
    exact reloadInTurn_of_complete hnone hidle hholds hdecode hmatches
  · rintro hempty j rest rfl
    exact reloadInTurn_of_empty hidle hempty
  · obtain ⟨houtcomes, hobjects, hcertificate, hcontrol⟩ := reloadInTurn_of_stuck hidle hstuck
    exact ⟨houtcomes, hobjects, hcertificate, fun i hi => hcontrol ▸ hidle i hi⟩

/-! ## A crash under the lock -/

def demoPrimitives : Primitives where
  writePem bytes := bytes
  generateCertificate _ := some ⟨some [], ⟨"EC", []⟩, "SHA256withECDSA", 0⟩
  aeadDecrypt _ ciphertext := some ciphertext
  generatePrivate algorithm bytes := some ⟨algorithm, bytes⟩
  kmsDecrypt _ := some (List.replicate 32 0)

def demoPorts : WorkingPorts demoPrimitives where
  certAndKey := ⟨⟨some [], ⟨"EC", []⟩, "SHA256withECDSA", 0⟩, ⟨"EC", [7]⟩⟩
  encoded := []
  collectBoundToPubkey _ _ := ⟨[]⟩
  dataKey := ⟨List.replicate 32 0, []⟩
  aeadEncrypt plaintext _ := plaintext
  sign _ _ _ := []
  verify _ _ _ _ := true
  encoded_eq := rfl
  generateCertificate := rfl
  kmsDecrypt := rfl
  keySize := rfl
  aeadDecrypt := rfl
  generatePrivate := rfl
  consistent := rfl

def demoConfig : Bool → ProviderConfig := fun _ => ⟨⟨"public", "private"⟩, [1], []⟩

def demoCrash : List (Action Bool Choice ℕ) :=
  .start false :: List.replicate 7 (.advance false .ok) ++ [.crash false]

/-- The crash keeps the other instance from getting a certificate; without it both get one. -/
theorem demo_instances_recover :
    (outcomesInTurn demoPrimitives demoConfig demoPorts demoCrash [true] =
        [some (.error (.unchecked "Failed to reload certificate"))] ∧
      (worldAfter demoPrimitives demoConfig (reloadInTurn demoPrimitives demoConfig demoPorts
        demoCrash [true])).currentCertificate =
          (worldAfter demoPrimitives demoConfig demoCrash).currentCertificate) ∧
    Reloaded demoPrimitives demoConfig (reloadInTurn demoPrimitives demoConfig demoPorts []
      [true, false]) [true, false] (demoPorts.bundle (demoConfig true)) := by
  obtain ⟨-, -, -, hstuck⟩ := instances_recover demoPrimitives demoConfig demoPorts demoCrash
    [true] (fun i hi => by rw [List.mem_singleton.mp hi]; rfl)
  obtain ⟨-, -, hfree, -⟩ := instances_recover demoPrimitives demoConfig demoPorts []
    [true, false] (fun i _ => rfl)
  obtain ⟨houtcomes, -, hcertificate, -⟩ :=
    hstuck (.inl ⟨rfl, Option.isSome_iff_ne_none.mp rfl⟩)
  refine ⟨⟨?_, hcertificate⟩, (hfree (fun _ => rfl) true [false] rfl).2.2⟩
  rw [outcomesInTurn, outcomesInTurn, houtcomes _ List.mem_cons_self]

end PublicEndorsement.Mbs
