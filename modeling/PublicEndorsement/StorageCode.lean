import PublicEndorsement.BackupProtocol

/-!
# The storage adapter's code over any machine

Triples that follow the control flow of `S3KeyBackupStorage`: what its functions
ensure, given what the single S3 requests ensure.
-/

namespace PublicEndorsement.Mbs

open Interaction Machine

variable {ι σ χ η : Type} {M : Machine ι Call Reply σ χ η} {R : Protocol ι σ} {i : ι}
variable {α : Type} {P : σ → Prop}

/-- Code about whose outcome nothing needs to be known. -/
abbrev Runs (M : Machine ι Call Reply σ χ η) (R : Protocol ι σ) (i : ι) (x : Code α) : Prop :=
  M.Spec R i (fun _ => True) x (fun _ _ => True) (fun _ _ => True)

def Got (Q : Option Bytes → σ → Prop) (Lost : σ → Prop) : Except SdkException Bytes → σ → Prop
  | .ok bytes => Q (some bytes)
  | .error .noSuchKey => Q none
  | .error _ => Lost

/-- The outcome of a write that either ensures `Q` or tells nothing. -/
def Done (Q : σ → Prop) : Except SdkException Unit → σ → Prop
  | .ok _ => Q
  | .error _ => fun _ => True

theorem stable_got {Q : Option Bytes → σ → Prop} {Lost : σ → Prop} (hQ : ∀ v, R.Stable i (Q v))
    (hLost : R.Stable i Lost) (r : Except SdkException Bytes) : R.Stable i (Got Q Lost r) := by
  cases r with
  | ok bytes => exact hQ (some bytes)
  | error e =>
    cases e with
    | noSuchKey => exact hQ none
    | _ => exact hLost

theorem stable_done {Q : σ → Prop} (hQ : R.Stable i Q) (r : Except SdkException Unit) :
    R.Stable i (Done Q r) := by
  cases r with
  | ok u => exact hQ
  | error e => exact .const True

/-- Record a failure and throw it. -/
theorem recordAndThrow_spec {Q : α → σ → Prop} {E : Failure → σ → Prop} (hP : R.Stable i P)
    (event : MbsEvent) (e : Failure)
    (hevent : M.Spec R i P (recordEvent event) (fun _ => P) E)
    (h : ∀ s, R.inv s → P s → E e s) :
    M.Spec R i P (do recordEvent event; throw e) Q E :=
  hevent.bind fun _ => Spec.throw hP h

namespace S3KeyBackupStorage

/-- A lost read is reported as such; otherwise the value is what the object held. -/
theorem tryGetS3Object_of (props : KeyBackupBucketProperties) (key : ObjectKey)
    {Q : Option Bytes → σ → Prop} {Lost : σ → Prop} {E : Failure → σ → Prop}
    (hQ : ∀ v, R.Stable i (Q v)) (hLost : R.Stable i Lost)
    (hget : M.Spec R i P (perform (.getObject key)) (Got Q Lost) E)
    (hevent : ∀ event, M.Spec R i Lost (recordEvent event) (fun _ => Lost) E)
    (hE : ∀ message s, Lost s → E (.keyBackupAccessFailed message) s) :
    M.Spec R i P (tryGetS3Object props key) Q E := by
  refine hget.bind fun r => ?_
  cases r with
  | ok bytes => exact Spec.pure (hQ _) (fun _ _ hq => hq)
  | error e =>
    cases e with
    | noSuchKey => exact Spec.pure (hQ _) (fun _ _ hq => hq)
    | _ => exact recordAndThrow_spec hLost _ _ (hevent _) (fun s _ => hE _ s)

theorem putS3Object_of (props : KeyBackupBucketProperties) {key : ObjectKey} {content : Bytes}
    {Q : σ → Prop} (hQ : R.Stable i Q)
    (hput : M.Spec R i P (perform (.putObject key content false)) (Done Q) (fun _ _ => True))
    (hevent : ∀ event, Runs M R i (recordEvent event)) :
    M.Spec R i P (putS3Object props key content) (fun _ => Q) (fun _ _ => True) := by
  refine hput.bind fun r => ?_
  cases r with
  | ok u => exact Spec.pure hQ (fun _ _ h => h)
  | error e => exact recordAndThrow_spec (.const True) _ _ (hevent _) (fun _ _ _ => trivial)

theorem acquireLock_of (instanceId : Bytes) {Q : σ → Prop} (hQ : R.Stable i Q)
    (hput : M.Spec R i P (perform (.putObject .lock instanceId true)) (Done Q) (fun _ _ => True))
    (hevent : ∀ event, Runs M R i (recordEvent event)) :
    M.Spec R i P (acquireLock instanceId) (fun _ => Q) (fun _ _ => True) := by
  refine hput.bind fun r => ?_
  cases r with
  | ok u => exact Spec.pure hQ (fun _ _ h => h)
  | error e =>
    by_cases hlocked : isAlreadyLocked e
    · simp only [hlocked, if_true]
      exact Spec.throw (.const True) (fun _ _ _ => trivial)
    · simp only [hlocked]
      exact recordAndThrow_spec (.const True) _ _ (hevent _) (fun _ _ _ => trivial)

theorem releaseLock_of
    (hdelete : M.Spec R i P (perform (.deleteObject .lock)) (fun _ _ => True) (fun _ _ => True))
    (hevent : ∀ event, Runs M R i (recordEvent event)) :
    M.Spec R i P releaseLock (fun _ _ => True) (fun _ _ => True) := by
  refine hdelete.bind fun r => ?_
  cases r with
  | ok u => exact Spec.pure (.const True) (fun _ _ h => h)
  | error e => exact recordAndThrow_spec (.const True) _ _ (hevent _) (fun _ _ _ => trivial)

/-- The four writes of `putKeyBackup`, one after the other. -/
theorem putKeyBackup_of (props : KeyBackupBucketProperties) (keyBackup : KeyBackup)
    {Written : ℕ → σ → Prop}
    (hput : ∀ key content n, keyBackup.parts[n]? = some (key, content) →
      M.Spec R i (Written n) (putS3Object props key content) (fun _ => Written (n + 1))
        (fun _ _ => True)) :
    M.Spec R i (Written 0) (putKeyBackup props keyBackup) (fun _ => Written 4)
      (fun _ _ => True) := by
  refine (hput _ _ 0 rfl).bind fun _ => ?_
  refine (hput _ _ 1 rfl).bind fun _ => ?_
  refine (hput _ _ 2 rfl).bind fun _ => ?_
  exact hput _ _ 3 rfl

end S3KeyBackupStorage
end PublicEndorsement.Mbs
