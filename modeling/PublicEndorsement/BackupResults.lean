import PublicEndorsement.ProviderSpec

/-!
# What every run of the providers guarantees

A schedule fixes whose step comes next, which calls fail and whether they took
effect, which instances crash, and when late requests arrive. The results below
hold after every schedule that begins with storage without artifacts and lock.
-/

namespace PublicEndorsement.Mbs

open Interaction OrderedPublication

variable {ι : Type}

def Event.startedBackup : Event ι → Option (ι × KeyBackup)
  | .noted i (.putKeyBackup keyBackup) => some (i, keyBackup)
  | _ => none

def Event.writtenTo (key : ObjectKey) : Event ι → Option Bytes
  | .wrote k content => if k = key then some content else none
  | _ => none

def World.putKeyBackupCalls (w : World ι) : List (ι × KeyBackup) :=
  w.history.filterMap Event.startedBackup

/-- The contents written to an object, oldest first. -/
def World.writesTo (w : World ι) (key : ObjectKey) : List Bytes :=
  w.history.filterMap (Event.writtenTo key)

theorem putKeyBackupCalls_eq (w : World ι) :
    w.putKeyBackupCalls = (w.history.filterMap Event.step?).filterMap Step.started? := by
  rw [List.filterMap_filterMap]
  apply List.filterMap_congr
  intro e _
  cases e with
  | noted i n => cases n <;> rfl
  | wrote key content => cases key <;> rfl
  | deleted key => cases key <;> rfl
  | _ => rfl

/-- The writes to one artifact, read off the log of written parts. -/
theorem writesTo_eq (w : World ι) {key : ObjectKey} (hkey : key ≠ .lock) :
    w.writesTo key = ((w.history.filterMap Event.step?).filterMap Step.written?).filterMap
      (fun part => if part.1 = key then some part.2 else none) := by
  rw [List.filterMap_filterMap, List.filterMap_filterMap]
  apply List.filterMap_congr
  intro e _
  cases e with
  | noted i n => cases n <;> rfl
  | wrote k content =>
    cases k with
    | lock => simp [Event.writtenTo, Event.step?, hkey.symm]
    | _ => rfl
  | deleted k => cases k <;> rfl
  | _ => rfl

/-- A list of parts with different names holds each name at most once. -/
theorem filterMap_name_length_le {κ γ : Type} [DecidableEq κ] {parts : List (κ × γ)}
    (hnodup : (parts.map Prod.fst).Nodup) (key : κ) :
    (parts.filterMap (fun part => if part.1 = key then some part.2 else none)).length ≤ 1 := by
  have hcount := List.nodup_iff_count_le_one.mp hnodup key
  suffices h : (parts.filterMap (fun part => if part.1 = key then some part.2 else none)).length =
      (parts.map Prod.fst).count key by omega
  clear hnodup hcount
  induction parts with
  | nil => rfl
  | cons part parts ih =>
    by_cases hk : part.1 = key
    · simp [hk, ih]
    · simp [hk, ih, List.count_cons_of_ne hk]

variable [DecidableEq ι] (lib : Primitives) (cfg : ι → ProviderConfig)
variable (schedule : List (Action ι Choice ℕ))

def worldAfter : World ι := ((providers lib cfg).run World.pristine schedule).shared

/-- At most one `putKeyBackup` is ever started and every artifact is written at most
once. -/
theorem keyBackup_generated_at_most_once :
    (worldAfter lib cfg schedule).putKeyBackupCalls.length ≤ 1 ∧
      ∀ key, key ≠ .lock → ((worldAfter lib cfg schedule).writesTo key).length ≤ 1 := by
  obtain ⟨p, hp⟩ := (providers_inv lib cfg schedule).tracks
  constructor
  · rw [putKeyBackupCalls_eq]
    exact started_length_le _ hp.phase_eq
  · intro key hkey
    rw [writesTo_eq _ hkey]
    exact filterMap_name_length_le (written_nodup parts_keys_nodup _ hp.phase_eq) key

/-- A call of `putKeyBackup` found anywhere in the history is the only one. -/
theorem putKeyBackupCalls_eq_singleton {w : World ι} (hw : w.Inv lib) {j : ι}
    {keyBackup : KeyBackup} (h : .noted j (.putKeyBackup keyBackup) ∈ w.history) :
    w.putKeyBackupCalls = [(j, keyBackup)] := by
  obtain ⟨p, hp⟩ := hw.tracks
  rw [← mem_started_iff] at h
  have hlen := started_length_le _ hp.phase_eq
  rw [putKeyBackupCalls_eq]
  match hlog : (w.history.filterMap Event.step?).filterMap Step.started? with
  | [] => simp [hlog] at h
  | [call] => rw [hlog] at h; rw [List.mem_singleton.mp h]
  | _ :: _ :: _ => simp [hlog] at hlen

/-- All instances serve what was decoded from the one backup, and a `getKeyBackup`
returns that backup or says truthfully why not. -/
theorem providers_agree :
    (∀ i bundle, .installed i bundle ∈ (worldAfter lib cfg schedule).history → ∃ j keyBackup,
      (worldAfter lib cfg schedule).putKeyBackupCalls = [(j, keyBackup)] ∧
        KmsMeasurementBoundCertificateProvider.decode lib keyBackup = some bundle) ∧
    (∀ i j a b, (worldAfter lib cfg schedule).currentCertificate i = some a →
      (worldAfter lib cfg schedule).currentCertificate j = some b → a = b) ∧
    (∀ before i site since outcome after, (worldAfter lib cfg schedule).history =
        before ++ .noted i (.getKeyBackup site since outcome) :: after →
      (∃ j keyBackup, outcome = .ok keyBackup ∧
        (worldAfter lib cfg schedule).putKeyBackupCalls = [(j, keyBackup)]) ∨
      (∃ message key, outcome = .error (.keyBackupAccessFailed message) ∧
        .readFailed i key ∈ before.drop since) ∨
      (∃ message, outcome = .error (.keyBackupPartiallyWritten message) ∧
        (∃ key content, key ≠ .lock ∧ .wrote key content ∈ before) ∧
        ∀ content, .wrote .cert content ∉ before.take since) ∨
      (∃ message, outcome = .error (.keyBackupNotFound message) ∧
        ∀ key content, key ≠ .lock → .wrote key content ∉ before.take since)) := by
  set w := worldAfter lib cfg schedule
  have hw : w.Inv lib := providers_inv lib cfg schedule
  have hinstalled : ∀ i bundle, .installed i bundle ∈ w.history → ∃ j keyBackup,
      w.putKeyBackupCalls = [(j, keyBackup)] ∧
        KmsMeasurementBoundCertificateProvider.decode lib keyBackup = some bundle := by
    intro i bundle hmem
    obtain ⟨j, keyBackup, hnote, hdecode⟩ := hw.truthful.installs i bundle hmem
    exact ⟨j, keyBackup, putKeyBackupCalls_eq_singleton lib hw hnote, hdecode⟩
  refine ⟨hinstalled, ?_, ?_⟩
  · intro i j a b ha hb
    obtain ⟨k, keyBackup, hcall, hdecode⟩ := hinstalled i a (hw.current i a ha)
    obtain ⟨k', keyBackup', hcall', hdecode'⟩ := hinstalled j b (hw.current j b hb)
    rw [hcall] at hcall'
    cases hcall'
    exact Option.some.inj (hdecode.symm.trans hdecode')
  · intro before i site since outcome after hsplit
    obtain ⟨-, hok⟩ := hw.truthful.gets before i site since outcome after hsplit
    cases outcome with
    | ok keyBackup =>
      obtain ⟨j, hnote⟩ := hok
      refine .inl ⟨j, keyBackup, rfl, putKeyBackupCalls_eq_singleton lib hw ?_⟩
      rw [hsplit]
      exact List.mem_append_left _ hnote
    | error e =>
      cases e with
      | keyBackupAccessFailed message =>
        obtain ⟨key, hkey⟩ := hok
        exact .inr (.inl ⟨message, key, rfl, hkey⟩)
      | keyBackupPartiallyWritten message =>
        exact .inr (.inr (.inl ⟨message, rfl, hok.2⟩))
      | keyBackupNotFound message => exact .inr (.inr (.inr ⟨message, rfl, hok⟩))
      | _ => exact hok.elim

/-- Without the lock the storage is pristine or complete, and a check under the lock
never finds anything in between. -/
theorem half_written_backup_locked :
    ((worldAfter lib cfg schedule).objects .lock = none →
      (∀ key, (worldAfter lib cfg schedule).objects key = none) ∨
      ∀ key, key ≠ .lock → (worldAfter lib cfg schedule).objects key ≠ none) ∧
    (∀ i since outcome,
      .noted i (.getKeyBackup .recheck since outcome) ∈ (worldAfter lib cfg schedule).history →
      ∀ message, outcome ≠ .error (.keyBackupPartiallyWritten message) ∧
        outcome ≠ .error (.keyBackupIncomplete message)) := by
  set w := worldAfter lib cfg schedule
  have hw : w.Inv lib := providers_inv lib cfg schedule
  obtain ⟨p, hp⟩ := hw.tracks
  constructor
  · intro hfree
    have hnot : ¬ Exclusive p := fun hex => hp.locked hex hfree
    cases p with
    | unclaimed =>
      left
      intro key
      by_cases hkey : key = .lock
      · rw [hkey, hfree]
      · rw [hp.stored_eq key hkey]
        rfl
    | claimed j => exact absurd trivial hnot
    | publishing j keyBackup n => exact absurd trivial hnot
    | published j keyBackup =>
      right
      intro key hkey
      rw [hp.stored_eq key hkey]
      cases key <;> first | exact absurd rfl hkey | exact Option.some_ne_none _
  · intro i since outcome hmem message
    obtain ⟨before, after, hsplit⟩ := List.append_of_mem hmem
    obtain ⟨-, hok⟩ := hw.truthful.gets before i .recheck since outcome after hsplit
    constructor
    · rintro rfl
      exact hok.1 rfl
    · rintro rfl
      exact hok

end PublicEndorsement.Mbs
