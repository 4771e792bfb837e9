import PublicEndorsement.BackupWrites
import PublicEndorsement.ProviderCode

/-!
# The certificate provider follows the protocol

Triples for the provider's code, from the decoding of a backup up to one whole
invocation of `reloadCertificate`. Exceptions need no postcondition: whatever is
thrown, every operation before it respected the protocol.
-/

namespace PublicEndorsement.Mbs

open Interaction OrderedPublication Machine S3KeyBackupStorage

variable {ι : Type}

variable [DecidableEq ι] {lib : Primitives} {cfg : ι → ProviderConfig} {i : ι}
variable {α : Type} {P : World ι → Prop}

/-- The ports other than S3 leave the shared state alone. -/
theorem answers_unchanged {o : Call} {F : Reply o → Prop}
    (h : ∀ w choice r w', World.exec lib i o choice w = some (r, w') → w' = w ∧ F r) :
    Answers (providers lib cfg) (backupProtocol lib) i P o F := by
  intro w choice r w' hw hp hexec
  obtain ⟨rfl, hr⟩ := h w choice r w' hexec
  exact ⟨⟨hw, fun j _ => (backupProtocol lib).rely_refl j _⟩, hp, hr⟩

namespace KmsMeasurementBoundCertificateProvider

theorem start_spec (keyBackup : KeyBackup) :
    Ensures lib cfg i (fun w => w.phase = some (.claimed i))
      (perform (.note (.putKeyBackup keyBackup))) (fun _ => Writing i keyBackup 0)
      (fun _ _ => True) := by
  apply Spec.perform stable_claimed (fun _ => stable_writing keyBackup 0)
  intro w choice r w' hw hclaimed hexec
  obtain rfl : w.record (.noted i (.putKeyBackup keyBackup)) = w' :=
    (Prod.mk.inj (Option.some.inj hexec)).2
  obtain ⟨⟨htracks, hrely⟩, hwriting⟩ := start_respects hw.tracks hclaimed keyBackup
  exact ⟨⟨hw.record _ htracks (fun _ _ _ _ h => by cases h) (fun _ _ h => by cases h), hrely⟩,
    hwriting⟩

theorem generateAndStoreKeyBackup_spec (c : ProviderConfig) :
    Ensures lib cfg i (fun w => w.phase = some (.claimed i)) (generateAndStoreKeyBackup lib c)
      (fun _ w => ∃ j keyBackup, w.phase = some (.published j keyBackup)) (fun _ _ => True) := by
  have hclaimed : (backupProtocol lib).Stable i (fun w => w.phase = some (.claimed i)) :=
    stable_claimed
  refine generateAndStoreKeyBackup_of c (fun _ w => w.phase = some (.claimed i))
    (fun _ _ => True) (fun _ => hclaimed) ?_ ?_ ?_ ?_ ?_
  · apply Spec.perform hclaimed (fun r => ?_)
    · intro w choice r w' hw hp hexec
      obtain ⟨rfl, -⟩ := answer_cases hexec
      refine ⟨⟨hw, fun j _ => (backupProtocol lib).rely_refl j _⟩, ?_⟩
      cases r with
      | ok pair => exact hp
      | error e => trivial
    · cases r with
      | ok pair => exact hclaimed
      | error e => exact .const True
  · exact fun _ _ _ => answers_unchanged fun _ _ _ _ h => ⟨(answer_cases h).1, trivial⟩
  · exact fun _ => answers_unchanged fun _ _ _ _ h => ⟨(answer_cases h).1, trivial⟩
  · exact fun _ _ => answers_unchanged fun _ _ _ _ h => ⟨(answer_cases h).1, fun _ _ => trivial⟩
  · intro pair keyBackup _
    refine (start_spec keyBackup).bind fun _ => ?_
    refine (putKeyBackup_spec c.bucketProperties keyBackup).conseq (fun _ _ h => h) ?_
      (fun _ _ _ h => h)
    exact fun _ w _ h => ⟨i, keyBackup, h⟩

def Answered (i : ι) (site : Site) (base : List (Event ι)) : Except Failure KeyBackup →
    World ι → Prop :=
  onOutcome (fun keyBackup w => base <+: w.history ∧ ∃ j, w.phase = some (.published j keyBackup))
    (Missed i site base)

theorem stable_answered (site : Site) (base : List (Event ι)) (r : Except Failure KeyBackup) :
    (backupProtocol lib).Stable i (Answered i site base r) := by
  cases r with
  | ok keyBackup => exact (stable_grows base).and (.ex fun j => stable_published j keyBackup)
  | error e => exact stable_missed site base e

theorem Answered.outcomeOk {site : Site} {base : List (Event ι)} {r : Except Failure KeyBackup}
    {w : World ι} (h : Answered i site base r w) :
    base.length ≤ w.history.length ∧ OutcomeOk w.history i site base.length r := by
  cases r with
  | ok keyBackup =>
    obtain ⟨hbase, j, hpub⟩ := h
    exact ⟨hbase.length_le, j, noted_of_published hpub⟩
  | error e => exact ⟨h.1.length_le, h.2.1⟩

theorem noteGetKeyBackup_spec {E : Failure → World ι → Prop} (site : Site)
    (base : List (Event ι)) (r : Except Failure KeyBackup) :
    Ensures lib cfg i (Answered i site base r)
      (perform (.note (.getKeyBackup site base.length r))) (fun _ => Answered i site base r) E := by
  have hstable : (backupProtocol lib).Stable i (Answered i site base r) :=
    stable_answered site base r
  apply Spec.perform hstable (fun _ => hstable)
  intro w choice u w' hw hans hexec
  obtain rfl : w.record (.noted i (.getKeyBackup site base.length r)) = w' :=
    (Prod.mk.inj (Option.some.inj hexec)).2
  have hguar : (backupProtocol lib).Guarantee i w
      (w.record (.noted i (.getKeyBackup site base.length r))) := by
    apply guarantee_record_silent hw rfl
    · intro k site' since outcome he
      cases he
      exact hans.outcomeOk
    · intro k bundle he
      cases he
  exact ⟨hguar, hstable w _ hw hguar.1 (World.Rely.record_silent i _ rfl) hans⟩

def Began (i : ι) (site : Site) (since : ℕ) (w : World ι) : Prop :=
  ∃ base : List (Event ι), since = base.length ∧ base <+: w.history ∧ (site = .recheck → Held i w)

theorem mark_spec {E : Failure → World ι → Prop} (site : Site) :
    Ensures lib cfg i (fun w => site = .recheck → Held i w) (perform (.mark site))
      (Began i site) E := by
  apply Spec.perform stable_held.imp
    (fun since => .ex fun base => (Protocol.Stable.const _).and
      ((stable_grows base).and stable_held.imp))
  intro w choice r w' hw hheld hexec
  obtain ⟨rfl, rfl⟩ := Prod.mk.inj (Option.some.inj hexec)
  exact ⟨⟨hw, fun j _ => (backupProtocol lib).rely_refl j _⟩, w.history, rfl, List.prefix_rfl,
    hheld⟩

/-- The recorded outcome of a `getKeyBackup` is a truthful one. -/
theorem observed_spec (props : KeyBackupBucketProperties) (site : Site) :
    Ensures lib cfg i (fun w => site = .recheck → Held i w) (observed site (getKeyBackup props))
      (fun keyBackup w => ∃ j, w.phase = some (.published j keyBackup))
      (fun e w => ∀ message, e = .keyBackupNotFound message → HasClaim site i w) := by
  refine observed_of site _ (Began i site)
    (fun since r w => ∃ base, since = base.length ∧ Answered i site base r w)
    (mark_spec site) ?_ ?_ ?_ ?_ ?_
  · refine fun since => Spec.ofExists fun base => Spec.ofFact fun hsince => ?_
    exact (getKeyBackup_spec props site base).conseq (fun _ _ h => h)
      (fun _ w _ h => ⟨base, hsince, h⟩) (fun _ w _ h => ⟨base, hsince, h⟩)
  · refine fun since r => Spec.ofExists fun base => Spec.ofFact fun hsince => ?_
    subst hsince
    exact (noteGetKeyBackup_spec site base r).conseq (fun _ _ h => h)
      (fun _ w _ h => ⟨base, rfl, h⟩) (fun _ _ _ h => h)
  · exact fun since r => .ex fun base => (Protocol.Stable.const _).and (stable_answered site base r)
  · rintro since keyBackup w ⟨base, -, -, hpub⟩
    exact hpub
  · rintro since e w ⟨base, -, hmissed⟩
    exact hmissed.2.2

/-- A backup that does not exist leaves an instance that looked under the lock with
its claim. -/
theorem keyBackupExists_spec (c : ProviderConfig) (site : Site) :
    Ensures lib cfg i (fun w => site = .recheck → Held i w) (keyBackupExists c site)
      (fun found w => if found then ∃ j keyBackup, w.phase = some (.published j keyBackup)
        else HasClaim site i w)
      (fun _ _ => True) := by
  refine keyBackupExists_of c (.ex fun j => .ex fun keyBackup => stable_published j keyBackup)
    (fun e => .all fun message => (stable_hasClaim site).imp) ?_
    (fun message w h => h message rfl)
    (E := fun e w => ∀ message, e = .keyBackupNotFound message → HasClaim site i w)
  exact (observed_spec c.bucketProperties site).conseq (fun _ _ h => h)
    (fun keyBackup w _ ⟨j, h⟩ => ⟨j, keyBackup, h⟩) (fun _ _ _ h => h)

theorem generateMissingKeyBackup_spec (c : ProviderConfig) :
    Runs (providers lib cfg) (backupProtocol lib) i (generateMissingKeyBackup lib c) := by
  have hgenerate : Ensures lib cfg i (HasClaim .recheck i) (generateAndStoreKeyBackup lib c)
      (fun _ w => ∃ j keyBackup, w.phase = some (.published j keyBackup)) (fun _ _ => True) :=
    (generateAndStoreKeyBackup_spec c).conseq (fun _ _ h => h rfl) (fun _ _ _ h => h)
      (fun _ _ _ h => h)
  refine generateMissingKeyBackup_of c ?_ (acquireLock_spec c.instanceId) ?_ hgenerate
    releaseLock_spec
  · exact (keyBackupExists_spec c .check).conseq (fun _ _ _ h => by cases h)
      (fun _ _ _ _ => trivial) (fun _ _ _ h => h)
  · exact (keyBackupExists_spec c .recheck).conseq (fun _ _ h _ => h) (fun _ _ _ h => h)
      (fun _ _ _ h => h)

theorem installCertificate_spec (j : ι) {keyBackup : KeyBackup}
    {bundle : MeasurementBoundCertificate} (hdecode : decode lib keyBackup = some bundle) :
    Ensures lib cfg i (fun w => w.phase = some (.published j keyBackup))
      (perform (.setCurrentCertificate bundle)) (fun _ _ => True) (fun _ _ => True) := by
  apply Spec.perform (stable_published j keyBackup) (fun _ => .const True)
  intro w choice r w' hw hpub hexec
  obtain rfl : w.install i bundle = w' := (Prod.mk.inj (Option.some.inj hexec)).2
  exact ⟨⟨hw.install i (noted_of_published hpub) hdecode,
    fun k _ => World.Rely.install i k bundle⟩, trivial⟩

theorem loadExistingKeyBackup_spec (c : ProviderConfig) :
    Ensures lib cfg i (fun _ => True) (loadExistingKeyBackup lib c) (fun _ _ => True)
      (fun _ _ => True) := by
  have hload : Ensures lib cfg i (fun _ => True)
      (observed .load (getKeyBackup c.bucketProperties))
      (fun keyBackup w => ∃ j, w.phase = some (.published j keyBackup)) (fun _ _ => True) :=
    (observed_spec c.bucketProperties .load).conseq (fun _ _ _ h => by cases h)
      (fun _ _ _ h => h) (fun _ _ _ _ => trivial)
  refine hload.bind fun keyBackup => ?_
  rintro w hw ⟨j, hpub⟩
  have hdecode : Keeps (providers lib cfg) (backupProtocol lib) i
      (fun w => w.phase = some (.published j keyBackup))
      (toMeasurementBoundCertificate lib keyBackup)
      (fun bundle => decode lib keyBackup = some bundle ∧ True) := by
    refine keeps_toMeasurementBoundCertificate (stable_published j keyBackup) keyBackup
      (fun _ _ => True) (answers_unchanged fun _ _ r _ h => ?_)
      (fun certificate privateKey => ?_)
    · obtain ⟨hsame, hvalue⟩ := answer_cases h
      exact ⟨hsame, hvalue⟩
    · exact keeps_isKeyMatchingCertificate (stable_published j keyBackup) (fun _ => True)
        (answers_unchanged fun _ _ _ _ h => ⟨(answer_cases h).1, fun _ _ => trivial⟩)
        (fun _ _ => answers_unchanged fun _ _ _ _ h => ⟨(answer_cases h).1, fun _ => trivial⟩)
  refine Spec.bindFact hdecode.forget (fun bundle hbundle => ?_) w hw hpub
  exact installCertificate_spec j hbundle.1

theorem reloadCertificate_spec (c : ProviderConfig) :
    Runs (providers lib cfg) (backupProtocol lib) i (reloadCertificate lib c) := by
  have hP : (backupProtocol lib).Stable i (fun _ => True) := .const True
  refine reloadCertificate_of c (generateMissingKeyBackup_spec c) (loadExistingKeyBackup_spec c)
    (recordEvent_spec hP) (fun millis => ?_)
  have hport : Answers (providers lib cfg) (backupProtocol lib) i (fun _ => True) (.sleep millis)
      (fun _ => True) := answers_unchanged fun _ _ _ _ h => ⟨(answer_cases h).1, trivial⟩
  exact (keeps_perform hP hport).conseq (fun _ _ h => h) (fun _ _ _ _ => trivial)
    (fun _ _ _ _ => trivial)

end KmsMeasurementBoundCertificateProvider

theorem World.inv_pristine : (World.pristine : World ι).Inv lib := by
  refine ⟨⟨.unclaimed, rfl, fun _ _ => rfl, fun h => h.elim, ?_, Nat.zero_le 1⟩, ⟨?_, ?_⟩, ?_⟩
  · intro eff heff
    cases heff
  · intro before i site since outcome after h
    simp [World.pristine] at h
  · intro i bundle h
    cases h
  · intro i bundle h
    cases h

/-- Every run of the providers keeps the invariant of the buckets. -/
theorem providers_inv (lib : Primitives) (cfg : ι → ProviderConfig)
    (schedule : List (Action ι Choice ℕ)) :
    ((providers lib cfg).run World.pristine schedule).shared.Inv lib := by
  apply Machine.run_safe (R := backupProtocol lib) World.pristine World.inv_pristine
  · intro i
    exact KmsMeasurementBoundCertificateProvider.invocation_of (cfg i)
      (KmsMeasurementBoundCertificateProvider.reloadCertificate_spec (cfg i))
  · intro n w w' hw hdeliver
    exact World.Inv.deliver hw n w' hdeliver

end PublicEndorsement.Mbs
