import PublicEndorsement.BackupTransitions

/-!
# Assertions about the shared buckets

What an instance may know while the others keep running: each assertion here
survives any number of their steps. The invariant turns such an assertion into
facts about what a read would return.
-/

namespace PublicEndorsement.Mbs

open Interaction OrderedPublication Machine

variable {ι : Type} [DecidableEq ι] {lib : Primitives} {cfg : ι → ProviderConfig} {i : ι}

/-- Instance `i` holds the claim, or there is nothing left to publish. -/
def Held (i : ι) (w : World ι) : Prop :=
  w.phase = some (.claimed i) ∨ ∃ j keyBackup, w.phase = some (.published j keyBackup)

def Writing (i : ι) (keyBackup : KeyBackup) (n : ℕ) (w : World ι) : Prop :=
  if n = 4 then w.phase = some (.published i keyBackup)
  else w.phase = some (.publishing i keyBackup n) ∧ w.Quiet

/-- A read of instance `i` failed after the history had reached `base`. -/
def LostRead (i : ι) (base : List (Event ι)) (w : World ι) : Prop :=
  base <+: w.history ∧ ∃ key, .readFailed i key ∈ w.history.drop base.length

/-- Under the lock an instance that saw no certificate still holds its claim. -/
def HasClaim (site : Site) (i : ι) (w : World ι) : Prop :=
  site = .recheck → w.phase = some (.claimed i)

def Missed (i : ι) (site : Site) (base : List (Event ι)) (e : Failure) (w : World ι) : Prop :=
  base <+: w.history ∧ OutcomeOk w.history i site base.length (.error e) ∧
    ∀ message, e = .keyBackupNotFound message → HasClaim site i w

section Stability

theorem stable_grows (base : List (Event ι)) :
    (backupProtocol lib).Stable i (fun w => base <+: w.history) :=
  fun _ _ _ _ hrely h => h.trans hrely.grows

theorem stable_published (j : ι) (keyBackup : KeyBackup) :
    (backupProtocol lib).Stable i (fun w => w.phase = some (.published j keyBackup)) :=
  fun _ _ _ hw' hrely h => published_of_grows hw'.tracks hrely.grows h

theorem stable_claimed : (backupProtocol lib).Stable i (fun w => w.phase = some (.claimed i)) :=
  fun _ _ _ _ hrely h => hrely.claimed h

theorem Held.rely {w w' : World ι} (h : Held i w) (hw' : ∃ p, w'.Tracks p)
    (hrely : World.Rely i w w') : Held i w' := by
  rcases h with hclaimed | ⟨j, keyBackup, hpub⟩
  · exact .inl (hrely.claimed hclaimed)
  · exact .inr ⟨j, keyBackup, published_of_grows hw' hrely.grows hpub⟩

theorem Writing.rely {w w' : World ι} {keyBackup : KeyBackup} {n : ℕ}
    (h : Writing i keyBackup n w) (hw' : ∃ p, w'.Tracks p) (hrely : World.Rely i w w') :
    Writing i keyBackup n w' := by
  unfold Writing at h ⊢
  split_ifs at h ⊢
  · exact published_of_grows hw' hrely.grows h
  · exact hrely.publishing keyBackup n h.1 h.2

theorem stable_held : (backupProtocol lib).Stable i (Held i) :=
  fun _ _ _ hw' hrely h => h.rely hw'.tracks hrely

theorem stable_writing (keyBackup : KeyBackup) (n : ℕ) :
    (backupProtocol lib).Stable i (Writing i keyBackup n) :=
  fun _ _ _ hw' hrely h => h.rely hw'.tracks hrely

theorem stable_lostRead (base : List (Event ι)) :
    (backupProtocol lib).Stable i (LostRead i base) := by
  rintro w w' - - hrely ⟨hbase, key, hmem⟩
  refine ⟨hbase.trans hrely.grows, key, ?_⟩
  obtain ⟨rest, hrest⟩ := hrely.grows
  rw [← hrest, List.drop_append_of_le_length hbase.length_le]
  exact List.mem_append_left _ hmem

theorem stable_hasClaim (site : Site) : (backupProtocol lib).Stable i (HasClaim site i) :=
  stable_claimed.imp

theorem stable_missed (site : Site) (base : List (Event ι)) (e : Failure) :
    (backupProtocol lib).Stable i (Missed i site base e) := by
  rintro w w' hw hw' hrely ⟨hbase, hok, hclaim⟩
  refine ⟨hbase.trans hrely.grows, hok.grows hbase.length_le hrely.grows, ?_⟩
  intro message he
  exact stable_hasClaim site w w' hw hw' hrely (hclaim message he)

end Stability

section Reads

/-- Only the last artifact is absent until everything is written. -/
theorem cert_stored {w : World ι} (hw : ∃ p, w.Tracks p) {content : Bytes}
    (h : w.objects .cert = some content) :
    ∃ j keyBackup, w.phase = some (.published j keyBackup) ∧ keyBackup.certBytes = content := by
  obtain ⟨p, hp⟩ := hw
  rw [hp.stored_eq .cert (by decide)] at h
  cases p with
  | unclaimed => cases h
  | claimed j => cases h
  | publishing j keyBackup n =>
    have hn : n < 4 := publishing_lt (fun _ => by simp [KeyBackup.parts]) _ hp.phase_eq
    have hnone : (keyBackup.parts.take n).lookup .cert = none := by
      interval_cases n <;> rfl
    rw [stored, Phase.written, hnone] at h
    cases h
  | published j keyBackup =>
    refine ⟨j, keyBackup, hp.phase_eq, ?_⟩
    exact Option.some.inj h

/-- An artifact holds something exactly when it has been written. -/
theorem exists_wrote_iff {w : World ι} (hw : w.Inv lib) {key : ObjectKey} (hkey : key ≠ .lock) :
    (∃ content, .wrote key content ∈ w.history) ↔ w.objects key ≠ none := by
  obtain ⟨p, hp⟩ := hw.tracks
  rw [hp.stored_eq key hkey, stored, ← (phase_logs _ hp.phase_eq).1, Ne, List.lookup_eq_none_iff]
  simp only [← mem_written_iff w.history hkey]
  constructor
  · rintro ⟨content, hmem⟩ hall
    exact absurd (hall _ hmem) (by simp)
  · intro hsome
    push Not at hsome
    obtain ⟨⟨k, content⟩, hmem, hk⟩ := hsome
    obtain rfl : key = k := by simpa using hk
    exact ⟨content, hmem⟩

/-- While the first artifact is absent no artifact has ever been written. -/
theorem nothing_written {w : World ι} (hw : w.Inv lib)
    (h : w.objects .aesEncryptedPrivateKey = none) {key : ObjectKey} {content : Bytes}
    (hkey : key ≠ .lock) : .wrote key content ∉ w.history := by
  intro hmem
  apply (exists_wrote_iff hw hkey).mp ⟨content, hmem⟩
  obtain ⟨p, hp⟩ := hw.tracks
  rw [hp.stored_eq _ (by decide)] at h
  rw [hp.stored_eq key hkey]
  cases p with
  | unclaimed => rfl
  | claimed j => rfl
  | publishing j keyBackup n =>
    cases n with
    | zero => rfl
    | succ n => cases h
  | published j keyBackup => cases h

/-- A complete backup is what every read returns. -/
theorem objects_of_published {w : World ι} (hw : ∃ p, w.Tracks p) {j : ι} {keyBackup : KeyBackup}
    (h : w.phase = some (.published j keyBackup)) {key : ObjectKey} (hkey : key ≠ .lock) :
    w.objects key = keyBackup.parts.lookup key := by
  obtain ⟨p, hp⟩ := hw
  have hpub : p = .published j keyBackup := Option.some.inj (hp.phase_eq.symm.trans h)
  rw [hp.stored_eq key hkey, hpub]
  rfl

theorem objects_of_claimed {w : World ι} (hw : ∃ p, w.Tracks p) {j : ι}
    (h : w.phase = some (.claimed j)) {key : ObjectKey} (hkey : key ≠ .lock) :
    w.objects key = none := by
  obtain ⟨p, hp⟩ := hw
  have hclaimed : p = .claimed j := Option.some.inj (hp.phase_eq.symm.trans h)
  rw [hp.stored_eq key hkey, hclaimed]
  rfl

/-- The backup that is complete was handed to `putKeyBackup`. -/
theorem noted_of_published {w : World ι} {j : ι} {keyBackup : KeyBackup}
    (h : w.phase = some (.published j keyBackup)) :
    .noted j (.putKeyBackup keyBackup) ∈ w.history := by
  rw [← mem_started_iff, (phase_logs _ h).2]
  exact List.mem_singleton.mpr rfl

end Reads

end PublicEndorsement.Mbs
