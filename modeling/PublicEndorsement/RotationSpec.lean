import PublicEndorsement.RotationReads

/-!
# The certificate provider under rotation

Triples for the critical section and for the final load. Holding the lock keeps
the operator away, so inside the critical section the assertions of the protocol
without rotation hold as they are.
-/

namespace PublicEndorsement.Mbs.Rotation

open Interaction OrderedPublication Machine RotatingWorld S3KeyBackupStorage
open KmsMeasurementBoundCertificateProvider

variable {ι : Type} [DecidableEq ι] {lib : Primitives} {crypto : Cryptography}
variable {cfg : ι → ProviderConfig} {i : ι} {s : RotatingWorld ι}

def Locked (i : ι) (A : World ι → Prop) (s : RotatingWorld ι) : Prop :=
  s.holdsLock i = true ∧ A s.world

def Kept (i : ι) (A : World ι → Prop) : Prop :=
  ∀ w w' : World ι, (∃ p, w'.Tracks p) → World.Rely i w w' → A w → A w'

theorem lasting_locked {A : World ι → Prop} (hA : Kept i A) :
    Lasting lib crypto i (Locked i A) := by
  rintro s s' - hs' hdrift ⟨hlock, ha⟩
  have hrely := hdrift.world (hdrift.locked hlock)
  exact ⟨hdrift.holds.trans hlock, hA _ _ hs'.tracks hrely ha⟩

def Claimed (i : ι) (w : World ι) : Prop := w.phase = some (.claimed i)

def Complete (w : World ι) : Prop := ∃ j keyBackup, w.phase = some (.published j keyBackup)

theorem kept_held : Kept i (Held i) := fun _ _ hw' hrely h => h.rely hw' hrely

theorem kept_claimed : Kept i (Claimed i) := fun _ _ _ hrely h => hrely.claimed h

theorem kept_complete : Kept i (Complete : World ι → Prop) :=
  fun _ _ hw' hrely ⟨j, keyBackup, h⟩ => ⟨j, keyBackup, published_of_grows hw' hrely.grows h⟩

theorem kept_writing (keyBackup : KeyBackup) (n : ℕ) : Kept i (Writing i keyBackup n) :=
  fun _ _ hw' hrely h => h.rely hw' hrely

/-- A write request, whatever became of it. -/
theorem guarantee_attempt (hs : s.Inv lib crypto) {o : Call} (r : Reply o) {eff : Effect}
    {w : World ι} (h : World.Attempt eff s.world w) (hrespects : World.Respects i s.world w) :
    (rotationProtocol lib crypto).Guarantee i s (s.afterCall i o r w) :=
  guarantee_afterCall (hs.unremarkable rfl hrespects.1 (unremarkable_attempt h)) (grows_attempt h)
    hrespects

section Lock

theorem acquireLock_spec (instanceId : Bytes) :
    Ensures lib crypto cfg i (fun _ => True) (acquireLock instanceId) (fun _ => Locked i (Held i))
      (fun _ _ => True) := by
  have hheld : (rotationProtocol lib crypto).Stable i (Locked i (Held i)) :=
    (lasting_locked kept_held).stable
  refine acquireLock_of instanceId hheld ?_ (fun event => recordEvent_spec lasting_true event)
  apply Spec.perform (.const True) (stable_done hheld)
  intro s choice r s' hs _ hexec
  obtain ⟨-, w, hput, rfl⟩ := exec_genuine hexec
  rcases putObject_cases hput with ⟨rfl, hadm, rfl⟩ | ⟨⟨e, rfl⟩, hw⟩
  · have hfree : s.world.objects .lock = none := by simpa [World.admits] using hadm
    obtain ⟨hrespects, hheld⟩ :=
      createLock_respects (i := i) hs.tracks instanceId hfree
    have hunremarkable : World.Unremarkable s.world
        ((s.world.carryOut (.put .lock instanceId true)).record (.created i .lock)) :=
      fun e he => (unremarkable_record _ rfl e he).trans (unremarkable_carryOut _ _ e he)
    refine ⟨guarantee_afterCall (hs.unremarkable rfl hrespects.1 hunremarkable)
      ((World.carryOut_grows _ _).trans (World.record_grows _ _)) hrespects, ?_, hheld⟩
    simp [RotatingWorld.afterCall, holdsAfter, Except.isOk, Except.toBool]
  · exact ⟨guarantee_attempt hs _ hw (putLock_respects hs.tracks hw), trivial⟩

theorem releaseLock_spec :
    Ensures lib crypto cfg i (Locked i Complete) releaseLock (fun _ _ => True)
      (fun _ _ => True) := by
  refine releaseLock_of ?_ (fun event => recordEvent_spec lasting_true event)
  apply Spec.perform (lasting_locked kept_complete).stable (fun _ => .const True)
  rintro s choice r s' hs ⟨-, j, keyBackup, hpub⟩ hexec
  obtain ⟨-, w, hdelete, rfl⟩ := exec_genuine hexec
  have hw := attempt_of_deleteObject hdelete
  exact ⟨guarantee_attempt hs r hw (deleteLock_respects hs.tracks hpub hw), trivial⟩

/-- The check under the lock finds the complete backup or nothing at all. -/
theorem recheck_spec (c : ProviderConfig) :
    Ensures lib crypto cfg i (Locked i (Held i)) (keyBackupExists c .recheck)
      (fun found s => if found then Locked i Complete s else Locked i (Claimed i) s)
      (fun _ _ => True) := by
  let absent : Failure → RotatingWorld ι → Prop := fun e s =>
    ∀ message, e = .keyBackupNotFound message → Locked i (Claimed i) s
  have hcomplete : Lasting lib crypto i (Locked i Complete) := lasting_locked kept_complete
  have habsent : ∀ e, Lasting lib crypto i (absent e) := fun e s s' hs hs' hdrift h message he =>
    lasting_locked kept_claimed s s' hs hs' hdrift (h message he)
  have hlost : ∀ message s, absent (.keyBackupAccessFailed message) s := fun _ _ _ he => by cases he
  have hclaimed : Ensures lib crypto cfg i (Locked i (Claimed i))
      (getKeyBackup c.bucketProperties) (fun _ => Locked i Complete) absent := by
    refine getKeyBackup_known _ (fun _ => none) (lasting_locked kept_claimed)
      (fun s hs h key hkey => objects_of_claimed hs.tracks h.2 hkey) hlost ?_
    exact fun s _ h message _ => h
  have hpublished : ∀ j keyBackup, Ensures lib crypto cfg i
      (Locked i (fun w => w.phase = some (.published j keyBackup)))
      (getKeyBackup c.bucketProperties) (fun _ => Locked i Complete) absent := by
    intro j keyBackup
    refine getKeyBackup_known _ (fun key => keyBackup.parts.lookup key)
      (lasting_locked fun _ _ hw' hrely h => published_of_grows hw' hrely.grows h)
      (fun s hs h key hkey => objects_of_published hs.tracks h.2 hkey) hlost ?_
    exact fun s _ h => ⟨h.1, j, keyBackup, h.2⟩
  refine keyBackupExists_of c hcomplete.stable (fun e => (habsent e).stable) ?_
    (fun message s h => h message rfl)
  refine observed_spec .recheck (lasting_locked kept_held) (fun _ => hcomplete) habsent ?_
  rintro s hs ⟨⟨hlock, hheld⟩, -⟩
  rcases hheld with hclaim | ⟨j, keyBackup, hpub⟩
  · exact hclaimed s hs ⟨hlock, hclaim⟩
  · exact hpublished j keyBackup s hs ⟨hlock, hpub⟩

end Lock

section Generate

theorem putS3Object_spec (props : KeyBackupBucketProperties) {keyBackup : KeyBackup} {n : ℕ}
    {key : ObjectKey} {content : Bytes} (hpart : keyBackup.parts[n]? = some (key, content)) :
    Ensures lib crypto cfg i (Locked i (Writing i keyBackup n)) (putS3Object props key content)
      (fun _ => Locked i (Writing i keyBackup (n + 1))) (fun _ _ => True) := by
  have hwritten : ∀ n, (rotationProtocol lib crypto).Stable i (Locked i (Writing i keyBackup n)) :=
    fun n => (lasting_locked (kept_writing keyBackup n)).stable
  refine putS3Object_of props (hwritten _) ?_ (fun event => recordEvent_spec lasting_true event)
  apply Spec.perform (hwritten n) (stable_done (hwritten _))
  rintro s choice r s' hs ⟨hlock, hwriting⟩ hexec
  obtain ⟨-, w, hput, rfl⟩ := exec_genuine hexec
  obtain ⟨hrespects, hnext⟩ := putArtifact_respects hs.tracks hpart hwriting
  have hholds : ∀ r, holdsAfter true (.putObject key content false) r = true := by
    intro r
    cases key <;> rfl
  rcases putObject_cases hput with ⟨rfl, -, rfl⟩ | ⟨⟨e, rfl⟩, hw⟩
  · have hdone : World.Attempt (.put key content false) s.world _ := .inr (.inl rfl)
    refine ⟨guarantee_attempt hs _ hdone (hrespects _ hdone), ?_, hnext⟩
    simp [RotatingWorld.afterCall, hholds, hlock]
  · exact ⟨guarantee_attempt hs _ hw (hrespects w hw), trivial⟩

theorem putKeyBackup_spec (props : KeyBackupBucketProperties) (keyBackup : KeyBackup) :
    Ensures lib crypto cfg i (Locked i (Writing i keyBackup 0)) (putKeyBackup props keyBackup)
      (fun _ => Locked i (Writing i keyBackup 4)) (fun _ _ => True) :=
  putKeyBackup_of props keyBackup (fun _ _ _ => putS3Object_spec props)

/-- A key pair was generated under the claim; it fits no certificate that is stored. -/
def Generated (lib : Primitives) (crypto : Cryptography) (i : ι)
    (pair : X509CertificateAndPrivateKey) (s : RotatingWorld ι) : Prop :=
  Locked i (Claimed i) s ∧ ∀ g j keyBackup, s.Put g j keyBackup →
    ¬ Fits lib crypto keyBackup.certBytes pair.privateKey.encoded

def Sealed (lib : Primitives) (pair : X509CertificateAndPrivateKey) (ciphertext : Bytes) : Prop :=
  ∀ key decrypted, lib.aeadDecrypt key ciphertext = some decrypted →
    decrypted = pair.privateKey.encoded

/-- Under the claim the current generation has no backup yet. -/
theorem put_past_of_claimed (hclaimed : Claimed i s.world) {g : ℕ} {j : ι} {keyBackup : KeyBackup}
    (h : s.Put g j keyBackup) :
    ∃ history, s.past[g]? = some history ∧ .noted j (.putKeyBackup keyBackup) ∈ history := by
  rcases put_iff.mp h with hpast | ⟨-, hmem⟩
  · exact hpast
  · rw [← mem_started_iff, (phase_logs _ hclaimed).2] at hmem
    cases hmem

theorem lasting_generated (pair : X509CertificateAndPrivateKey) :
    Lasting lib crypto i (Generated lib crypto i pair) := by
  rintro s s' hs hs' hdrift ⟨hlocked, hnew⟩
  have hlocked' := lasting_locked kept_claimed s s' hs hs' hdrift hlocked
  refine ⟨hlocked', fun g j keyBackup hput => hnew g j keyBackup ?_⟩
  have hpast := put_past_of_claimed hlocked'.2 hput
  rw [hdrift.locked hlocked.1] at hpast
  exact put_iff.mpr (.inl hpast)

theorem certificateFactoryGenerate_spec :
    Ensures lib crypto cfg i (Locked i (Claimed i)) (perform .certificateFactoryGenerate)
      (onOutcome (Generated lib crypto i) (fun _ _ => True)) (fun _ _ => True) := by
  have hclaimed : Lasting lib crypto i (Locked i (Claimed i)) := lasting_locked kept_claimed
  apply Spec.perform hclaimed.stable
  · intro r
    cases r with
    | ok pair => exact (lasting_generated pair).stable
    | error e => exact .const True
  · intro s choice r s' hs hp hexec
    obtain ⟨hgenuine, w, hanswer, rfl⟩ := exec_genuine hexec
    obtain ⟨rfl, hvalue⟩ := answer_cases hanswer
    obtain ⟨hguar, hlocked⟩ := hclaimed.passes hs (r := r) rfl (.inl rfl) hp
    refine ⟨hguar, ?_⟩
    cases r with
    | error e => trivial
    | ok pair =>
      have hchoice := hvalue pair rfl
      cases choice <;> simp only [reduceCtorEq, Option.some.injEq] at hchoice
      subst hchoice
      refine ⟨hlocked, fun g j keyBackup hput => hgenuine j keyBackup ?_⟩
      exact mem_events_iff_put.mpr ⟨g, hput⟩

theorem answers_aeadEncrypt (pair : X509CertificateAndPrivateKey) (key : Bytes) :
    Answers (genuine lib crypto cfg) (rotationProtocol lib crypto) i
      (Generated lib crypto i pair) (.aeadEncrypt pair.privateKey.encoded key)
      (fun r => ∀ ciphertext, r = .ok ciphertext → Sealed lib pair ciphertext) := by
  refine answers_port (lasting_generated pair) (fun _ _ => rfl) ?_
  intro s choice r w hgenuine hanswer
  obtain ⟨hw, hvalue⟩ := answer_cases hanswer
  refine ⟨hw, fun ciphertext hr => ?_⟩
  have hchoice := hvalue ciphertext hr
  cases choice <;> cases hchoice
  exact hgenuine

theorem put_record_iff {g : ℕ} {j : ι} {kb keyBackup : KeyBackup} {o : Call} {r : Reply o} :
    (s.afterCall i o r (s.world.record (.noted i (.putKeyBackup keyBackup)))).Put g j kb ↔
      s.Put g j kb ∨ g = s.past.length ∧ j = i ∧ kb = keyBackup := by
  rw [put_iff, put_iff]
  simp only [RotatingWorld.afterCall, World.record, List.mem_append, List.mem_singleton,
    Event.noted.injEq, Note.putKeyBackup.injEq, and_or_left, or_assoc]

theorem mem_events_record_iff {e e' : Event ι} {o : Call} {r : Reply o} :
    e ∈ (s.afterCall i o r (s.world.record e')).events ↔ e ∈ s.events ∨ e = e' := by
  simp only [mem_events_iff, RotatingWorld.afterCall, World.record, List.mem_append,
    List.mem_singleton, or_assoc]

/-- The new backup joins the others: its private key fits none of their certificates. -/
theorem inv_put (hs : s.Inv lib crypto) {pair : X509CertificateAndPrivateKey}
    {keyBackup : KeyBackup} (hsealed : Sealed lib pair keyBackup.aeadEncryptedPrivateKey)
    (hnew : ∀ g j keyBackup, s.Put g j keyBackup →
      ¬ Fits lib crypto keyBackup.certBytes pair.privateKey.encoded) {o : Call} {r : Reply o}
    (htracks : ∃ p, (s.world.record (.noted i (.putKeyBackup keyBackup))).Tracks p) :
    (s.afterCall i o r (s.world.record (.noted i (.putKeyBackup keyBackup)))).Inv lib crypto := by
  refine ⟨htracks, hs.closed, ?_, ?_⟩
  · intro g g' j j' kb kb' hlt hput hput' key privateKeyBytes hbytes
    rw [put_record_iff] at hput hput'
    -- the earlier of the two is an old one, since the new one has the last generation
    rcases hput with hold | ⟨hg, -, -⟩
    · rcases hput' with hold' | ⟨-, -, rfl⟩
      · exact hs.apart g g' j j' kb kb' hlt hold hold' key privateKeyBytes hbytes
      · rw [hsealed key privateKeyBytes hbytes]
        exact hnew g j kb hold
    · rcases hput' with hold' | ⟨hg', -, -⟩
      · exact absurd hold'.le (by omega)
      · omega
  · intro k bundle hmem
    rcases mem_events_record_iff.mp hmem with hold | hnote
    · obtain ⟨g, j, kb, hput, hdecode⟩ := hs.installs k bundle hold
      exact ⟨g, j, kb, put_record_iff.mpr (.inl hput), hdecode⟩
    · cases hnote

theorem start_spec {pair : X509CertificateAndPrivateKey} {keyBackup : KeyBackup}
    (hsealed : Sealed lib pair keyBackup.aeadEncryptedPrivateKey) :
    Ensures lib crypto cfg i (Generated lib crypto i pair)
      (perform (.note (.putKeyBackup keyBackup))) (fun _ => Locked i (Writing i keyBackup 0))
      (fun _ _ => True) := by
  apply Spec.perform (lasting_generated pair).stable
    (fun _ => (lasting_locked (kept_writing keyBackup 0)).stable)
  rintro s choice r s' hs ⟨⟨hlock, hclaimed⟩, hnew⟩ hexec
  obtain ⟨-, w, hanswer, rfl⟩ := exec_genuine hexec
  obtain rfl : s.world.record (.noted i (.putKeyBackup keyBackup)) = w :=
    (Prod.mk.inj (Option.some.inj hanswer)).2
  obtain ⟨hrespects, hwriting⟩ := start_respects hs.tracks hclaimed keyBackup
  refine ⟨guarantee_afterCall (inv_put hs hsealed hnew hrespects.1) (World.record_grows _ _)
    hrespects, ?_, hwriting⟩
  simp [RotatingWorld.afterCall, holdsAfter, hlock]

theorem generateAndStoreKeyBackup_spec (c : ProviderConfig) :
    Ensures lib crypto cfg i (Locked i (Claimed i)) (generateAndStoreKeyBackup lib c)
      (fun _ => Locked i Complete) (fun _ _ => True) := by
  refine generateAndStoreKeyBackup_of c (Generated lib crypto i) (Sealed lib)
    (fun pair => (lasting_generated pair).stable) certificateFactoryGenerate_spec ?_ ?_
    answers_aeadEncrypt ?_
  · exact fun pair _ _ => answers_port (lasting_generated pair) (fun _ _ => rfl)
      fun _ _ _ _ _ h => ⟨(answer_cases h).1, trivial⟩
  · exact fun pair => answers_port (lasting_generated pair) (fun _ _ => rfl)
      fun _ _ _ _ _ h => ⟨(answer_cases h).1, trivial⟩
  · intro pair keyBackup hsealed
    refine (start_spec hsealed).bind fun _ => ?_
    refine (putKeyBackup_spec c.bucketProperties keyBackup).conseq (fun _ _ h => h) ?_
      (fun _ _ _ h => h)
    exact fun _ s _ h => ⟨h.1, i, keyBackup, h.2⟩

end Generate

section Load

/-- The probe accepts only the two halves of one key pair. -/
theorem keeps_probe {P : RotatingWorld ι → Prop} (hP : Lasting lib crypto i P)
    (certificate : X509Certificate) (privateKey : PrivateKey) :
    Keeps (genuine lib crypto cfg) (rotationProtocol lib crypto) i P
      (isKeyMatchingCertificate certificate privateKey)
      (fun matching => matching = true → crypto.keyPair certificate.publicKey privateKey) := by
  refine keeps_isKeyMatchingCertificate hP.stable
    (crypto.signature certificate.sigAlgName privateKey probe) ?_ fun signature hsigned => ?_
  · refine answers_port hP (fun _ _ => rfl) fun s choice r w hgenuine hanswer => ?_
    obtain ⟨hw, hvalue⟩ := answer_cases hanswer
    refine ⟨hw, fun signature hr => ?_⟩
    have hchoice := hvalue signature hr
    cases choice <;> cases hchoice
    exact hgenuine
  · refine answers_port hP (fun _ _ => rfl) fun s choice r w hgenuine hanswer => ?_
    obtain ⟨hw, hvalue⟩ := answer_cases hanswer
    refine ⟨hw, fun hr => ?_⟩
    have hchoice := hvalue true hr
    cases choice <;> cases hchoice
    exact hgenuine privateKey hsigned

theorem inv_install (hs : s.Inv lib crypto) {g : ℕ} {j : ι} {keyBackup : KeyBackup}
    {bundle : MeasurementBoundCertificate} (hput : s.Put g j keyBackup)
    (hdecode : decode lib keyBackup = some bundle) {o : Call} {r : Reply o} :
    (s.afterCall i o r (s.world.install i bundle)).Inv lib crypto := by
  obtain ⟨p, hp⟩ := hs.tracks
  have hput_iff : ∀ g j kb, (s.afterCall i o r (s.world.install i bundle)).Put g j kb ↔
      s.Put g j kb := by
    intro g j kb
    rw [put_iff, put_iff]
    simp [RotatingWorld.afterCall, World.install]
  refine ⟨⟨p, (phaseOf_append_silent s.world.history _ rfl).trans hp.phase_eq, hp.stored_eq,
    hp.locked, hp.admissible, hp.single⟩, hs.closed, ?_, ?_⟩
  · simp only [hput_iff]
    exact hs.apart
  · intro k b hmem
    simp only [hput_iff]
    rw [mem_events_iff] at hmem
    simp only [RotatingWorld.afterCall, World.install, List.mem_append, List.mem_singleton] at hmem
    rcases hmem with hpast | hold | hnew
    · exact hs.installs k b (mem_events_iff.mpr (.inl hpast))
    · exact hs.installs k b (mem_events_iff.mpr (.inr hold))
    · cases hnew
      exact ⟨g, j, keyBackup, hput, hdecode⟩

theorem installCertificate_spec {keyBackup : KeyBackup} {bundle : MeasurementBoundCertificate}
    (hdecode : decode lib keyBackup = some bundle)
    (hpair : crypto.keyPair bundle.certificate.publicKey bundle.privateKey) :
    Ensures lib crypto cfg i (ReadBackup keyBackup) (perform (.setCurrentCertificate bundle))
      (fun _ _ => True) (fun _ _ => True) := by
  apply Spec.perform (lasting_metAll _ _ _ _).stable (fun _ => .const True)
  intro s choice r s' hs hread hexec
  obtain ⟨-, w, hanswer, rfl⟩ := exec_genuine hexec
  obtain rfl : s.world.install i bundle = w := (Prod.mk.inj (Option.some.inj hanswer)).2
  obtain ⟨g, j, hput⟩ := ReadBackup.put hs hread hdecode hpair
  have hinv := inv_install (i := i) (o := .setCurrentCertificate bundle) (r := r) hs hput hdecode
  exact ⟨guarantee_afterCall hinv (List.prefix_append _ _)
    ⟨hinv.tracks, fun k _ => World.Rely.install i k bundle⟩, trivial⟩

theorem loadExistingKeyBackup_spec (c : ProviderConfig) :
    Runs (genuine lib crypto cfg) (rotationProtocol lib crypto) i
      (loadExistingKeyBackup lib c) := by
  have hread : ∀ keyBackup, Lasting lib crypto i (ReadBackup keyBackup) :=
    fun _ => lasting_metAll _ _ _ _
  refine (observed_spec .load lasting_true hread (fun _ => lasting_true)
    ((getKeyBackup_spec c.bucketProperties).ofPre fun _ _ h => ⟨h.2, trivial⟩)).bind
    fun keyBackup => ?_
  have hdecode : Keeps (genuine lib crypto cfg) (rotationProtocol lib crypto) i
      (ReadBackup keyBackup) (toMeasurementBoundCertificate lib keyBackup)
      (fun bundle => decode lib keyBackup = some bundle ∧
        crypto.keyPair bundle.certificate.publicKey bundle.privateKey) :=
    keeps_toMeasurementBoundCertificate (hread keyBackup).stable keyBackup
      (fun certificate privateKey => crypto.keyPair certificate.publicKey privateKey)
      (answers_port (hread keyBackup) (fun _ _ => rfl) fun _ _ _ _ _ h => answer_cases h)
      (keeps_probe (hread keyBackup))
  exact hdecode.forget.bindFact fun bundle hbundle =>
    installCertificate_spec hbundle.1 hbundle.2

end Load

theorem check_spec (c : ProviderConfig) :
    Runs (genuine lib crypto cfg) (rotationProtocol lib crypto) i (keyBackupExists c .check) := by
  have hread : Ensures lib crypto cfg i (fun _ => True)
      (observed .check (getKeyBackup c.bucketProperties)) (fun _ _ => True) (fun _ _ => True) :=
    observed_spec .check lasting_true (fun _ => lasting_true) (fun _ => lasting_true)
      ((getKeyBackup_runs c.bucketProperties).ofPre fun _ _ _ => trivial)
  have habsent : ∀ (message : String) (s : RotatingWorld ι), True → True := fun _ _ h => h
  exact (keyBackupExists_of c (.const True) (fun _ => .const True) hread habsent).conseq
    (fun _ _ h => h) (fun _ _ _ _ => trivial) (fun _ _ _ h => h)

/-- A whole invocation keeps the protocol, whatever the operator does at settled
moments. -/
theorem invocation_spec (c : ProviderConfig) :
    (genuine lib crypto cfg).Triple (rotationProtocol lib crypto) i (fun _ => True)
      (invocation lib c) (fun _ _ => True) := by
  have hgenerate : Runs (genuine lib crypto cfg) (rotationProtocol lib crypto) i
      (generateMissingKeyBackup lib c) :=
    generateMissingKeyBackup_of c (check_spec c) (acquireLock_spec c.instanceId) (recheck_spec c)
      (generateAndStoreKeyBackup_spec c) releaseLock_spec
  exact invocation_of c (reloadCertificate_of c hgenerate (loadExistingKeyBackup_spec c)
    (fun event => recordEvent_spec lasting_true event) sleep_spec)

end PublicEndorsement.Mbs.Rotation
