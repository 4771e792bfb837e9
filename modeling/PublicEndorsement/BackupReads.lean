import PublicEndorsement.BackupAssertions
import PublicEndorsement.StorageCode

/-!
# Reading a key backup while others run

Triples for the reads of the storage adapter with respect to the protocol of the
buckets, up to `getKeyBackup` itself.
-/

namespace PublicEndorsement.Mbs

open Interaction OrderedPublication Machine

variable {ι : Type} [DecidableEq ι] {lib : Primitives} {cfg : ι → ProviderConfig} {i : ι}
variable {α : Type} {P : World ι → Prop} {E : Failure → World ι → Prop}

abbrev Ensures (lib : Primitives) (cfg : ι → ProviderConfig) (i : ι) (P : World ι → Prop)
    (x : Code α) (Q : α → World ι → Prop) (E : Failure → World ι → Prop) : Prop :=
  (providers lib cfg).Spec (backupProtocol lib) i P x Q E

/-- An event the protocol does not see changes no stable assertion. -/
theorem guarantee_record_silent {w : World ι} (hw : w.Inv lib) {e : Event ι} (he : e.step? = none)
    (hget : ∀ k site since outcome, e = .noted k (.getKeyBackup site since outcome) →
      since ≤ w.history.length ∧ OutcomeOk w.history k site since outcome)
    (hinstall : ∀ k bundle, e ≠ .installed k bundle) :
    (backupProtocol lib).Guarantee i w (w.record e) := by
  obtain ⟨p, hp⟩ := hw.tracks
  exact ⟨hw.record e ⟨p, hp.record_silent e he⟩ hget hinstall,
    fun j _ => World.Rely.record_silent j e he⟩

theorem recordEvent_spec (hP : (backupProtocol lib).Stable i P) (event : MbsEvent) :
    Ensures lib cfg i P (recordEvent event) (fun _ => P) E := by
  apply Spec.perform hP (fun _ => hP)
  intro w choice r w' hw hp hexec
  obtain ⟨rfl, rfl⟩ : () = r ∧ w.record (.recorded i event) = w' := by
    simpa [providers, World.exec] using hexec
  have hguar : (backupProtocol lib).Guarantee i w (w.record (.recorded i event)) :=
    guarantee_record_silent hw rfl (fun _ _ _ _ h => by cases h) (fun _ _ h => by cases h)
  exact ⟨hguar, hP w _ hw hguar.1 (World.Rely.record_silent i _ rfl) hp⟩

theorem getObject_spec {Q : Option Bytes → World ι → Prop} (key : ObjectKey)
    (base : List (Event ι)) (hP : (backupProtocol lib).Stable i P)
    (hQ : ∀ v, (backupProtocol lib).Stable i (Q v)) (hbase : ∀ w, P w → base <+: w.history)
    (h : ∀ w, w.Inv lib → P w → Q (w.objects key) w) :
    Ensures lib cfg i P (perform (.getObject key)) (Got Q (LostRead i base)) E := by
  apply Spec.perform hP (stable_got hQ (stable_lostRead base))
  intro w choice r w' hw hp hexec
  change w.getObject i key choice = some (r, w') at hexec
  have hlost : LostRead i base (w.record (.readFailed i key)) := by
    refine ⟨(hbase w hp).trans (w.record_grows _), key, ?_⟩
    change _ ∈ (w.history ++ [_]).drop base.length
    rw [List.drop_append_of_le_length (hbase w hp).length_le]
    exact List.mem_append_right _ (List.mem_singleton.mpr rfl)
  have hguar : (backupProtocol lib).Guarantee i w (w.record (.readFailed i key)) :=
    guarantee_record_silent hw rfl (fun _ _ _ _ h => by cases h) (fun _ _ h => by cases h)
  cases choice with
  | ok =>
    obtain ⟨rfl, rfl⟩ := Prod.mk.inj (Option.some.inj hexec)
    refine ⟨⟨hw, fun j _ => (backupProtocol lib).rely_refl j w⟩, ?_⟩
    have hval := h w hw hp
    cases hobj : w.objects key with
    | none => simpa [Got, hobj] using hval
    | some bytes => simpa [Got, hobj] using hval
  | s3Failure e tookEffect =>
    cases e <;> simp only [World.getObject, Option.some.injEq, Prod.mk.injEq, reduceCtorEq] at hexec
    all_goals
      obtain ⟨rfl, rfl⟩ := hexec
      exact ⟨hguar, hlost⟩
  | _ => cases hexec

/-- A failed read is reported as such; otherwise the value is what the object held. -/
theorem tryGetS3Object_spec {Q : Option Bytes → World ι → Prop} (props : KeyBackupBucketProperties)
    (key : ObjectKey) (base : List (Event ι)) (hP : (backupProtocol lib).Stable i P)
    (hQ : ∀ v, (backupProtocol lib).Stable i (Q v)) (hbase : ∀ w, P w → base <+: w.history)
    (h : ∀ w, w.Inv lib → P w → Q (w.objects key) w)
    (hE : ∀ message w, LostRead i base w → E (.keyBackupAccessFailed message) w) :
    Ensures lib cfg i P (S3KeyBackupStorage.tryGetS3Object props key) Q E :=
  S3KeyBackupStorage.tryGetS3Object_of props key hQ (stable_lostRead base)
    (getObject_spec key base hP hQ hbase h)
    (fun event => recordEvent_spec (stable_lostRead base) event) hE

theorem assemble_missing_cert (dataKey privateKey attestationDoc : Option Bytes) :
    (dataKey = none ∧ privateKey = none ∧ attestationDoc = none ∧
      S3KeyBackupStorage.assemble none dataKey privateKey attestationDoc =
        .error (.keyBackupNotFound "Key backup absent")) ∨
    ((dataKey ≠ none ∨ privateKey ≠ none ∨ attestationDoc ≠ none) ∧
      ∃ message, S3KeyBackupStorage.assemble none dataKey privateKey attestationDoc =
        .error (.keyBackupPartiallyWritten message)) := by
  cases dataKey <;> cases privateKey <;> cases attestationDoc <;>
    simp [S3KeyBackupStorage.assemble]

variable (props : KeyBackupBucketProperties) (site : Site) (base : List (Event ι))

theorem missed_of_lostRead (message : String) (w : World ι) (h : LostRead i base w) :
    Missed i site base (.keyBackupAccessFailed message) w :=
  ⟨h.1, h.2, fun _ he => by cases he⟩

/-- Reading on without a certificate: `found` says that some read returned an artifact. -/
def Looking (i : ι) (site : Site) (base : List (Event ι)) (found : Prop) (w : World ι) : Prop :=
  (base <+: w.history ∧ HasClaim site i w) ∧
    (found → site ≠ .recheck ∧ ∃ key content, key ≠ .lock ∧ .wrote key content ∈ w.history)

theorem stable_looking (found : Prop) :
    (backupProtocol lib).Stable i (Looking i site base found) := by
  rintro w w' hw hw' hrely ⟨⟨hbase, hclaim⟩, hfound⟩
  refine ⟨⟨hbase.trans hrely.grows, stable_hasClaim site w w' hw hw' hrely hclaim⟩, ?_⟩
  intro h
  obtain ⟨hsite, key, content, hkey, hwrote⟩ := hfound h
  exact ⟨hsite, key, content, hkey, hrely.grows.subset hwrote⟩

/-- One more read: an artifact it returns has been written, and not under the claim. -/
theorem looking_read {w : World ι} (hw : w.Inv lib) {found : Prop} {key : ObjectKey}
    (hkey : key ≠ .lock) (h : Looking i site base found w) :
    Looking i site base (found ∨ w.objects key ≠ none) w := by
  refine ⟨h.1, ?_⟩
  rintro (hf | hsome)
  · exact h.2 hf
  · obtain ⟨content, hwrote⟩ := (exists_wrote_iff hw hkey).mpr hsome
    refine ⟨?_, key, content, hkey, hwrote⟩
    intro hs
    exact hsome (objects_of_claimed hw.tracks (h.1.2 hs) hkey)

/-- After the certificate was found missing: either nothing at all is there, or the
backup is partially written, which the holder of the claim never sees. -/
theorem getKeyBackup_certMissing {Q : KeyBackup → World ι → Prop}
    (hcert : ∀ content, .wrote .cert content ∉ base) :
    Ensures lib cfg i (Looking i site base False)
      (do
        let dataKey ← S3KeyBackupStorage.tryGetS3Object props .kmsEncryptedDataKey
        let privateKey ← S3KeyBackupStorage.tryGetS3Object props .aesEncryptedPrivateKey
        let attestationDoc ← S3KeyBackupStorage.tryGetS3Object props .attestationDoc
        Fallible.ofOutcome
          (S3KeyBackupStorage.assemble none dataKey privateKey attestationDoc))
      Q (Missed i site base) := by
  have hstable : ∀ found, (backupProtocol lib).Stable i (Looking i site base found) :=
    stable_looking site base
  refine (tryGetS3Object_spec (Q := fun v => Looking i site base (False ∨ v ≠ none)) props _ base
    (hstable _) (fun _ => hstable _) (fun _ h => h.1.1)
    (fun w hw h => looking_read site base hw (by decide) h)
    (missed_of_lostRead site base)).bind fun dataKey => ?_
  -- the private key is written first: if it is absent nothing had been written
  let absent : Option Bytes → Prop := fun v =>
    v = none → ∀ key content, key ≠ .lock → .wrote key content ∉ base
  refine Spec.bind (tryGetS3Object_spec (Q := fun v w =>
      Looking i site base ((False ∨ dataKey ≠ none) ∨ v ≠ none) w ∧ absent v) props _ base
    (hstable _) (fun _ => (hstable _).and (.const _)) (fun _ h => h.1.1) ?_
    (missed_of_lostRead site base)) fun privateKey => ?_
  · intro w hw h
    refine ⟨looking_read site base hw (by decide) h, ?_⟩
    intro hnone key content hkey hmem
    exact nothing_written hw hnone hkey (h.1.1.subset hmem)
  rintro w₀ hw₀ ⟨hlooking, habsent⟩
  refine Spec.bind (tryGetS3Object_spec (Q := fun v =>
      Looking i site base (((False ∨ dataKey ≠ none) ∨ privateKey ≠ none) ∨ v ≠ none)) props _ base
    (hstable _) (fun _ => hstable _) (fun _ h => h.1.1)
    (fun w hw h => looking_read site base hw (by decide) h)
    (missed_of_lostRead site base)) (fun attestationDoc => ?_) w₀ hw₀ hlooking
  apply Spec.ofOutcome (hstable _)
  rintro w hw ⟨⟨hb, hclaim⟩, hfound⟩
  rcases assemble_missing_cert dataKey privateKey attestationDoc with
    ⟨-, hnone, -, heq⟩ | ⟨hsome, message, heq⟩
  · rw [heq]
    refine ⟨hb, ?_, fun _ _ => hclaim⟩
    intro key content hkey
    rw [← List.prefix_iff_eq_take.mp hb]
    exact habsent hnone key content hkey
  · rw [heq]
    obtain ⟨hsite, hwrote⟩ := hfound (by tauto)
    refine ⟨hb, ⟨hsite, hwrote, ?_⟩, fun _ he => by cases he⟩
    rw [← List.prefix_iff_eq_take.mp hb]
    exact hcert

/-- Read one object whose content is known under `P`. -/
theorem read_bind {props : KeyBackupBucketProperties} {key : ObjectKey} {v : Option Bytes}
    {f : Option Bytes → Code α} {Q : α → World ι → Prop} (hP : (backupProtocol lib).Stable i P)
    (hbase : ∀ w, P w → base <+: w.history)
    (hE : ∀ message w, LostRead i base w → E (.keyBackupAccessFailed message) w)
    (hv : ∀ w, w.Inv lib → P w → w.objects key = v)
    (hnext : Ensures lib cfg i P (f v) Q E) :
    Ensures lib cfg i P (S3KeyBackupStorage.tryGetS3Object props key >>= f) Q E := by
  have hread : Ensures lib cfg i P (S3KeyBackupStorage.tryGetS3Object props key)
      (fun u w => P w ∧ u = v) E :=
    tryGetS3Object_spec props key base hP (fun u => hP.and (.const (u = v))) hbase
      (fun w hw hp => ⟨hp, hv w hw hp⟩) hE
  apply hread.bindFact
  rintro _ rfl
  exact hnext

/-- After the certificate was found, the other reads complete the same backup. -/
theorem getKeyBackup_certPresent (j : ι) (keyBackup : KeyBackup) :
    Ensures lib cfg i
      (fun w => base <+: w.history ∧ w.phase = some (.published j keyBackup))
      (do
        let dataKey ← S3KeyBackupStorage.tryGetS3Object props .kmsEncryptedDataKey
        let privateKey ← S3KeyBackupStorage.tryGetS3Object props .aesEncryptedPrivateKey
        let attestationDoc ← S3KeyBackupStorage.tryGetS3Object props .attestationDoc
        Fallible.ofOutcome
          (S3KeyBackupStorage.assemble (some keyBackup.certBytes) dataKey privateKey
            attestationDoc))
      (fun result w => base <+: w.history ∧ ∃ j, w.phase = some (.published j result))
      (Missed i site base) := by
  have hstable : (backupProtocol lib).Stable i
      (fun w => base <+: w.history ∧ w.phase = some (.published j keyBackup)) :=
    (stable_grows base).and (stable_published j keyBackup)
  have hvalue : ∀ key, key ≠ .lock → ∀ w : World ι, w.Inv lib →
      base <+: w.history ∧ w.phase = some (.published j keyBackup) →
      w.objects key = keyBackup.parts.lookup key :=
    fun key hkey w hw h => objects_of_published hw.tracks h.2 hkey
  apply read_bind base hstable (fun _ h => h.1) (missed_of_lostRead site base)
    (hvalue _ (by decide))
  apply read_bind base hstable (fun _ h => h.1) (missed_of_lostRead site base)
    (hvalue _ (by decide))
  apply read_bind base hstable (fun _ h => h.1) (missed_of_lostRead site base)
    (hvalue _ (by decide))
  exact Spec.pure hstable (fun w _ h => ⟨h.1, j, h.2⟩)

/-- A `getKeyBackup` that overlaps other instances returns the published backup or
says truthfully why it did not. -/
theorem getKeyBackup_spec :
    Ensures lib cfg i (fun w => base <+: w.history ∧ (site = .recheck → Held i w))
      (S3KeyBackupStorage.getKeyBackup props)
      (fun keyBackup w => base <+: w.history ∧ ∃ j, w.phase = some (.published j keyBackup))
      (Missed i site base) := by
  let seen : Option Bytes → World ι → Prop := fun v w => base <+: w.history ∧
    v.elim (HasClaim site i w ∧ ∀ content, .wrote .cert content ∉ base) (fun content =>
      ∃ j keyBackup, w.phase = some (.published j keyBackup) ∧ keyBackup.certBytes = content)
  have hseen : ∀ v, (backupProtocol lib).Stable i (seen v) := by
    intro v
    cases v with
    | none => exact (stable_grows base).and ((stable_hasClaim site).and (.const _))
    | some content =>
      exact (stable_grows base).and
        (.ex fun j => .ex fun keyBackup => (stable_published j keyBackup).and (.const _))
  have hcert : Ensures lib cfg i (fun w => base <+: w.history ∧ (site = .recheck → Held i w))
      (S3KeyBackupStorage.tryGetS3Object props .cert) seen (Missed i site base) := by
    apply tryGetS3Object_spec props .cert base ((stable_grows base).and stable_held.imp) hseen
      (fun _ h => h.1) _ (missed_of_lostRead site base)
    rintro w hw ⟨hb, hheld⟩
    refine ⟨hb, ?_⟩
    cases hobj : w.objects .cert with
    | some content => exact cert_stored hw.tracks hobj
    | none =>
      refine ⟨?_, ?_⟩
      · intro hs
        rcases hheld hs with hclaimed | ⟨j, keyBackup, hpub⟩
        · exact hclaimed
        · rw [objects_of_published hw.tracks hpub (by decide)] at hobj
          cases hobj
      · intro content hmem
        exact (exists_wrote_iff hw (by decide)).mp ⟨content, hb.subset hmem⟩ hobj
  refine hcert.bind fun v => ?_
  cases v with
  | none =>
    rintro w hw ⟨hb, hclaim, hcert⟩
    exact getKeyBackup_certMissing props site base hcert w hw ⟨⟨hb, hclaim⟩, False.elim⟩
  | some content =>
    rintro w hw ⟨hb, j, keyBackup, hpub, rfl⟩
    exact getKeyBackup_certPresent props site base j keyBackup w hw ⟨hb, hpub⟩

end PublicEndorsement.Mbs
