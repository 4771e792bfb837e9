import PublicEndorsement.StorageCode

/-!
# The provider's code over any machine

Triples that follow the control flow of `KmsMeasurementBoundCertificateProvider` and
ask nothing of the machine but what its ports answer. A protocol for the buckets
supplies the assertions: what an instance knows once it holds the lock, once it has
found the storage empty, and once the backup is complete.
-/

namespace PublicEndorsement.Mbs

open Interaction Machine S3KeyBackupStorage

variable {ι σ χ η : Type} {M : Machine ι Call Reply σ χ η} {R : Protocol ι σ} {i : ι}
variable {α : Type} {P : σ → Prop}

/-- Code that keeps `P`, also when it throws, and returns only what `F` admits. -/
abbrev Keeps (M : Machine ι Call Reply σ χ η) (R : Protocol ι σ) (i : ι) (P : σ → Prop)
    (x : Code α) (F : α → Prop) : Prop :=
  M.Spec R i P x (fun a s => P s ∧ F a) (fun _ => P)

/-- An operation that respects the others, keeps `P` and has the answers `F` only. -/
def Answers (M : Machine ι Call Reply σ χ η) (R : Protocol ι σ) (i : ι) (P : σ → Prop)
    (o : Call) (F : Reply o → Prop) : Prop :=
  ∀ s choice r s', R.inv s → P s → M.exec i o choice s = some (r, s') →
    R.Guarantee i s s' ∧ P s' ∧ F r

theorem keeps_perform {o : Call} {F : Reply o → Prop} (hP : R.Stable i P)
    (h : Answers M R i P o F) : Keeps M R i P (perform o) F :=
  Spec.perform hP (fun r => hP.and (.const (F r))) h

theorem keeps_pure {F : α → Prop} (hP : R.Stable i P) {a : α} (h : F a) :
    Keeps M R i P (pure a) F := Spec.pure hP (fun _ _ hp => ⟨hp, h⟩)

theorem keeps_throw {F : α → Prop} (hP : R.Stable i P) (e : Failure) :
    Keeps M R i P (throw e) F := Spec.throw hP (fun _ _ hp => hp)

theorem keeps_orThrow (hP : R.Stable i P) (r : Except Failure α) :
    Keeps M R i P (orThrow r) (fun a => r = .ok a) := by
  cases r with
  | ok a => exact keeps_pure hP rfl
  | error e => exact keeps_throw hP e

theorem keeps_orGeneralSecurity (hP : R.Stable i P) (message : String) (o : Option α) :
    Keeps M R i P (orGeneralSecurity message o) (fun a => o = some a) := by
  cases o with
  | none => exact keeps_throw hP _
  | some a => exact keeps_pure hP rfl

theorem Keeps.weaken {x : Code α} {F F' : α → Prop} (h : Keeps M R i P x F)
    (hF : ∀ a, F a → F' a) : Keeps M R i P x F' :=
  h.conseq (fun _ _ hp => hp) (fun a _ _ hp => ⟨hp.1, hF a hp.2⟩) (fun _ _ _ hp => hp)

/-- Only what holds after a normal return matters. -/
theorem Keeps.forget {x : Code α} {F : α → Prop} (h : Keeps M R i P x F) :
    M.Spec R i P x (fun a s => P s ∧ F a) (fun _ _ => True) :=
  h.conseq (fun _ _ hp => hp) (fun _ _ _ hp => hp) (fun _ _ _ _ => trivial)

namespace KmsMeasurementBoundCertificateProvider

variable {lib : Primitives}

/-- The probe says yes only if the verifier does, about a signature of the signer. -/
theorem keeps_isKeyMatchingCertificate (hP : R.Stable i P) {certificate : X509Certificate}
    {privateKey : PrivateKey} (Signed : Bytes → Prop) {Match : Prop}
    (hsign : Answers M R i P (.sign certificate.sigAlgName privateKey probe)
      (fun r => ∀ signature, r = .ok signature → Signed signature))
    (hverify : ∀ signature, Signed signature →
      Answers M R i P (.verify certificate.sigAlgName certificate.publicKey probe signature)
        (fun r => r = .ok true → Match)) :
    Keeps M R i P (isKeyMatchingCertificate certificate privateKey)
      (fun matching => matching = true → Match) := by
  refine Spec.tryCatch (K := fun _ => P) ?_ fun e => ?_
  · refine (keeps_perform hP hsign).bindFact fun r hr => ?_
    refine (keeps_orThrow hP r).bindFact fun signature hsignature => ?_
    refine (keeps_perform hP (hverify signature (hr signature hsignature))).bindFact fun r hr => ?_
    refine (keeps_orThrow hP r).weaken fun verdict hverdict htrue => ?_
    exact hr (hverdict.trans (congrArg Except.ok htrue))
  · cases e with
    | generalSecurity message => exact keeps_pure hP (fun h => by cases h)
    | _ => exact keeps_throw hP _

theorem keeps_decrypt (hP : R.Stable i P) (ciphertext key : Bytes) :
    Keeps M R i P (decrypt lib ciphertext key)
      (fun plaintext => key.length = 32 ∧ lib.aeadDecrypt key ciphertext = some plaintext) := by
  unfold decrypt
  by_cases hlen : key.length = 32
  · simp only [hlen, ne_eq, not_true_eq_false, if_false, true_and]
    exact keeps_orGeneralSecurity hP _ _
  · simp only [hlen, ne_eq, not_false_eq_true, if_true]
    exact keeps_throw hP _

theorem keeps_decodeKeyMaterial (hP : R.Stable i P) (keyBackup : KeyBackup) (dataKey : Bytes)
    (hkms : lib.kmsDecrypt keyBackup.kmsEncryptedDataKey = some dataKey) :
    Keeps M R i P (decodeKeyMaterial lib keyBackup dataKey)
      (fun m => decode lib keyBackup = some ⟨m.1, m.2.1, m.2.2⟩) := by
  refine Spec.tryCatch (K := fun _ => P) ?_ fun e => ?_
  · refine (keeps_orGeneralSecurity hP _ _).bindFact fun certificate hcert => ?_
    refine (keeps_decrypt hP _ _).bindFact fun privateKeyBytes hbytes => ?_
    refine (keeps_orGeneralSecurity hP _ _).bindFact fun privateKey hkey => ?_
    apply keeps_pure hP
    simp [decode, hkms, hcert, hbytes.1, hbytes.2, hkey]
  · cases e with
    | generalSecurity message => exact keeps_throw hP _
    | _ => exact keeps_throw hP _

/-- What is returned is what the backup decodes to, and it passed the probe. -/
theorem keeps_toMeasurementBoundCertificate (hP : R.Stable i P) (keyBackup : KeyBackup)
    (Match : X509Certificate → PrivateKey → Prop)
    (hkms : Answers M R i P (.kmsDecrypt keyBackup.kmsEncryptedDataKey) (fun r => ∀ dataKey,
      r = .ok dataKey → lib.kmsDecrypt keyBackup.kmsEncryptedDataKey = some dataKey))
    (hprobe : ∀ certificate privateKey,
      Keeps M R i P (isKeyMatchingCertificate certificate privateKey)
        (fun matching => matching = true → Match certificate privateKey)) :
    Keeps M R i P (toMeasurementBoundCertificate lib keyBackup) (fun bundle =>
      decode lib keyBackup = some bundle ∧ Match bundle.certificate bundle.privateKey) := by
  refine (keeps_perform hP hkms).bindFact fun r hr => ?_
  refine (keeps_orThrow hP r).bindFact fun dataKey hkey => ?_
  refine (keeps_decodeKeyMaterial hP keyBackup dataKey (hr dataKey hkey)).bindFact fun m hm => ?_
  obtain ⟨certificate, privateKey, token⟩ := m
  refine (hprobe certificate privateKey).bindFact fun matching hmatching => ?_
  cases matching with
  | true => exact keeps_pure hP ⟨hm, hmatching rfl⟩
  | false => exact keeps_throw hP _

theorem keeps_encrypt (hP : R.Stable i P) {plaintext key : Bytes} {F : Bytes → Prop}
    (hencrypt : Answers M R i P (.aeadEncrypt plaintext key)
      (fun r => ∀ ciphertext, r = .ok ciphertext → F ciphertext)) :
    Keeps M R i P (encrypt plaintext key) F := by
  unfold encrypt
  by_cases hlen : key.length = 32
  · simp only [hlen, ne_eq, not_true_eq_false, if_false]
    refine (keeps_perform hP hencrypt).bindFact fun r hr => ?_
    exact (keeps_orThrow hP r).weaken hr
  · simp only [hlen, ne_eq, not_false_eq_true, if_true]
    exact keeps_throw hP _

theorem keeps_toPemBytes (hP : R.Stable i P) (certificate : X509Certificate) :
    Keeps M R i P (toPemBytes lib certificate) (fun _ => True) :=
  (keeps_orGeneralSecurity hP _ _).bindFact fun _ _ => keeps_pure hP trivial

/-- Generating a backup: `Generated` holds from the answer of the certificate factory
until the backup is handed to `putKeyBackup`. -/
theorem generateAndStoreKeyBackup_of (c : ProviderConfig) {Done : σ → Prop}
    (Generated : X509CertificateAndPrivateKey → σ → Prop)
    (Sealed : X509CertificateAndPrivateKey → Bytes → Prop)
    (hstable : ∀ pair, R.Stable i (Generated pair))
    (hgenerate : M.Spec R i P (perform .certificateFactoryGenerate)
      (onOutcome Generated (fun _ _ => True)) (fun _ _ => True))
    (hcollect : ∀ pair publicKey userData, Answers M R i (Generated pair)
      (.collectBoundToPubkey publicKey userData) (fun _ => True))
    (hdataKey : ∀ pair, Answers M R i (Generated pair) .kmsGenerateDataKey (fun _ => True))
    (hencrypt : ∀ pair key, Answers M R i (Generated pair)
      (.aeadEncrypt pair.privateKey.encoded key)
      (fun r => ∀ ciphertext, r = .ok ciphertext → Sealed pair ciphertext))
    (hput : ∀ pair keyBackup, Sealed pair keyBackup.aeadEncryptedPrivateKey →
      M.Spec R i (Generated pair) (do
        perform (.note (.putKeyBackup keyBackup))
        putKeyBackup c.bucketProperties keyBackup) (fun _ => Done) (fun _ _ => True)) :
    M.Spec R i P (generateAndStoreKeyBackup lib c) (fun _ => Done) (fun _ _ => True) := by
  refine hgenerate.bind fun r => ?_
  cases r with
  | error e => exact Spec.throw (.const True) (fun _ _ _ => trivial)
  | ok pair =>
    have hP := hstable pair
    refine (keeps_orThrow hP (.ok pair)).forget.bindFact fun certAndKey hpair => ?_
    cases hpair
    refine (keeps_perform hP (hcollect pair _ _)).forget.bindFact fun r _ => ?_
    refine (keeps_orThrow hP r).forget.bindFact fun token _ => ?_
    refine (keeps_perform hP (hdataKey pair)).forget.bindFact fun r _ => ?_
    refine (keeps_orThrow hP r).forget.bindFact fun dataKey _ => ?_
    refine (keeps_encrypt hP (hencrypt pair _)).forget.bindFact fun encryptedKey hsealed => ?_
    refine (keeps_toPemBytes hP _).forget.bindFact fun pem _ => ?_
    exact hput pair _ hsealed

/-- A read that is recorded together with where it began. -/
theorem observed_of {Q : KeyBackup → σ → Prop} {E : Failure → σ → Prop}
    (site : Site) (x : Code KeyBackup) (Before : ℕ → σ → Prop)
    (After : ℕ → Except Failure KeyBackup → σ → Prop)
    (hmark : M.Spec R i P (perform (.mark site)) Before E)
    (hx : ∀ since, M.Spec R i (Before since) x (fun keyBackup => After since (.ok keyBackup))
      (fun e => After since (.error e)))
    (hnote : ∀ since r, M.Spec R i (After since r)
      (perform (.note (.getKeyBackup site since r))) (fun _ => After since r) E)
    (hafter : ∀ since r, R.Stable i (After since r))
    (hQ : ∀ since keyBackup s, After since (.ok keyBackup) s → Q keyBackup s)
    (hE : ∀ since e s, After since (.error e) s → E e s) :
    M.Spec R i P (observed site x) Q E := by
  refine hmark.bind fun since => ?_
  refine (hx since).outcome.bind fun r => ?_
  have hsame : ∀ s, onOutcome (fun keyBackup => After since (.ok keyBackup))
      (fun e => After since (.error e)) r s → After since r s := by
    intro s h
    cases r <;> exact h
  refine Spec.bind ((hnote since r).conseq (fun s _ h => hsame s h) (fun _ _ _ h => h)
    (fun _ _ _ h => h)) fun _ => ?_
  apply Spec.ofOutcome (hafter since r)
  intro s _ h
  cases r with
  | ok keyBackup => exact hQ since keyBackup s h
  | error e => exact hE since e s h

/-- Only the answer that there is no backup is caught. -/
theorem keyBackupExists_of (c : ProviderConfig) {site : Site} {Found : σ → Prop}
    {Absent : σ → Prop} {E : Failure → σ → Prop}
    (hfound : R.Stable i Found) (hE : ∀ e, R.Stable i (E e))
    (hread : M.Spec R i P (observed site (getKeyBackup c.bucketProperties)) (fun _ => Found) E)
    (habsent : ∀ message s, E (.keyBackupNotFound message) s → Absent s) :
    M.Spec R i P (keyBackupExists c site) (fun found s => if found then Found s else Absent s)
      (fun _ _ => True) := by
  refine Spec.tryCatch (K := E) ?_ (fun e => ?_)
  · exact hread.bind fun _ => Spec.pure hfound (fun _ _ h => h)
  · cases e with
    | keyBackupNotFound message => exact Spec.pure (hE _) (fun s _ h => habsent message s h)
    | _ => exact Spec.throw (hE _) (fun _ _ _ => trivial)

/-- The critical section: `Holding` after the lock was created, `Claimed` once the
storage was found empty, `Complete` when there is a backup. -/
theorem generateMissingKeyBackup_of (c : ProviderConfig) {Holding Claimed Complete : σ → Prop}
    (hcheck : Runs M R i (keyBackupExists c .check))
    (hacquire : M.Spec R i (fun _ => True) (acquireLock c.instanceId) (fun _ => Holding)
      (fun _ _ => True))
    (hrecheck : M.Spec R i Holding (keyBackupExists c .recheck)
      (fun found s => if found then Complete s else Claimed s) (fun _ _ => True))
    (hgenerate : M.Spec R i Claimed (generateAndStoreKeyBackup lib c) (fun _ => Complete)
      (fun _ _ => True))
    (hrelease : M.Spec R i Complete releaseLock (fun _ _ => True) (fun _ _ => True)) :
    Runs M R i (generateMissingKeyBackup lib c) := by
  refine hcheck.bind fun found => ?_
  cases found with
  | true => exact Spec.pure (.const True) (fun _ _ h => h)
  | false =>
    refine hacquire.bind fun _ => ?_
    refine hrecheck.bind fun present => ?_
    cases present with
    | true => exact hrelease
    | false => exact hgenerate.bind fun _ => hrelease

/-- One whole `reloadCertificate`, with its retry and its handlers. -/
theorem reloadCertificate_of (c : ProviderConfig)
    (hgenerate : Runs M R i (generateMissingKeyBackup lib c))
    (hload : Runs M R i (loadExistingKeyBackup lib c))
    (hevent : ∀ event, Runs M R i (recordEvent event))
    (hsleep : ∀ millis, Runs M R i (perform (.sleep millis))) :
    Runs M R i (reloadCertificate lib c) := by
  have hP : R.Stable i (fun _ => True) := .const True
  have honce : Runs M R i (reloadCertificateOnce lib c) := hgenerate.bind fun _ => hload
  have hretry : Runs M R i (reloadCertificateWithRetryOnTransientError lib c) := by
    refine honce.tryCatch fun failure => ?_
    by_cases htransient : isTransient failure
    · simp only [htransient, if_true]
      refine (hsleep _).bind fun r => ?_
      exact (keeps_orThrow hP r).forget.bind fun _ =>
        honce.conseq (fun _ _ _ => trivial) (fun _ _ _ h => h) (fun _ _ _ h => h)
    · simp only [htransient]
      exact Spec.throw hP (fun _ _ h => h)
  have hfailure : ∀ failure, Runs M R i (recordFailureEvent failure) := by
    intro failure
    cases failure <;> first | exact hevent _ | exact Spec.pure hP (fun _ _ h => h)
  refine Spec.bind (K := fun _ _ => True) ?_ (fun _ => hevent .success)
  refine hretry.tryCatch fun failure => ?_
  exact (hfailure failure).bind fun _ => Spec.throw hP (fun _ _ h => h)

/-- The same for the invocation as the scheduler runs it. -/
theorem invocation_of (c : ProviderConfig) (h : Runs M R i (reloadCertificate lib c)) :
    M.Triple R i (fun _ => True) (invocation lib c) (fun _ _ => True) := by
  apply Triple.bind (K := fun _ _ => True)
  · exact Triple.conseq h (fun _ _ h => h) (fun _ _ _ _ => trivial)
  · intro r s _ _ s' _ _
    trivial

end KmsMeasurementBoundCertificateProvider
end PublicEndorsement.Mbs
