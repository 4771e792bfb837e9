import PublicEndorsement.KeyRotation
import PublicEndorsement.BackupWrites

/-!
# The protocol of the buckets under rotation

Each generation by itself is an ordered publication. Across generations the
invariant adds that no certificate fits the private key of a later generation. An
instance relies on its lock, and on an undisturbed fourth read, only in the sense
that no rotation happens meanwhile.
-/

namespace PublicEndorsement.Mbs

open Interaction OrderedPublication Machine

variable {ι : Type}

/-- The events that say which backups exist and what was installed. -/
def Event.remarkable : Event ι → Bool
  | .noted _ (.putKeyBackup _) => true
  | .installed _ _ => true
  | _ => false

def World.Unremarkable (w w' : World ι) : Prop :=
  ∀ e : Event ι, e.remarkable = true → (e ∈ w'.history ↔ e ∈ w.history)

theorem unremarkable_refl (w : World ι) : World.Unremarkable w w := fun _ _ => Iff.rfl

theorem unremarkable_record (w : World ι) {e : Event ι} (he : e.remarkable = false) :
    World.Unremarkable w (w.record e) := by
  intro e' he'
  have hne : e' ≠ e := by
    rintro rfl
    rw [he] at he'
    cases he'
  simp [World.record, hne]

theorem unremarkable_carryOut (w : World ι) (eff : Effect) :
    World.Unremarkable w (w.carryOut eff) := by
  unfold World.carryOut
  split_ifs
  · cases eff with
    | put key content ifNoneMatch => exact unremarkable_record w rfl
    | delete key => exact unremarkable_record w rfl
  · exact unremarkable_refl w

theorem unremarkable_attempt {w w' : World ι} {eff : Effect} (h : World.Attempt eff w w') :
    World.Unremarkable w w' := by
  rcases h with rfl | rfl | rfl
  · exact unremarkable_refl w'
  · exact unremarkable_carryOut w eff
  · exact fun _ _ => Iff.rfl

theorem grows_attempt {w w' : World ι} {eff : Effect} (h : World.Attempt eff w w') :
    w.history <+: w'.history := by
  rcases h with rfl | rfl | rfl
  · exact List.prefix_rfl
  · exact w.carryOut_grows eff
  · exact List.prefix_rfl

namespace RotatingWorld

def Put (s : RotatingWorld ι) (g : ℕ) (j : ι) (keyBackup : KeyBackup) : Prop :=
  ∃ history, s.generations[g]? = some history ∧ .noted j (.putKeyBackup keyBackup) ∈ history

variable {s s' : RotatingWorld ι} {g : ℕ} {i j : ι} {keyBackup : KeyBackup}

theorem put_iff : s.Put g j keyBackup ↔
    (∃ history, s.past[g]? = some history ∧ .noted j (.putKeyBackup keyBackup) ∈ history) ∨
      g = s.past.length ∧ .noted j (.putKeyBackup keyBackup) ∈ s.world.history := by
  unfold Put generations
  rcases Nat.lt_trichotomy g s.past.length with hlt | rfl | hgt
  · simp [List.getElem?_append_left hlt, hlt.ne]
  · simp
  · have hnone : (s.past ++ [s.world.history])[g]? = none := by
      rw [List.getElem?_eq_none_iff, List.length_append]
      exact hgt
    simp [hnone, List.getElem?_eq_none_iff.mpr hgt.le, hgt.ne']

theorem Put.le (h : s.Put g j keyBackup) : g ≤ s.past.length := by
  rcases put_iff.mp h with ⟨history, hget, -⟩ | ⟨rfl, -⟩
  · exact (List.getElem?_eq_some_iff.mp hget).1.le
  · exact le_rfl

theorem mem_events_iff {e : Event ι} :
    e ∈ s.events ↔ (∃ history ∈ s.past, e ∈ history) ∨ e ∈ s.world.history := by
  simp [events, generations]

theorem mem_events_iff_put :
    .noted j (.putKeyBackup keyBackup) ∈ s.events ↔ ∃ g, s.Put g j keyBackup := by
  unfold events Put
  rw [List.mem_flatten]
  constructor
  · rintro ⟨history, hmem, hnoted⟩
    obtain ⟨g, hg⟩ := List.mem_iff_getElem?.mp hmem
    exact ⟨g, history, hg, hnoted⟩
  · rintro ⟨g, history, hg, hnoted⟩
    exact ⟨history, List.mem_of_getElem? hg, hnoted⟩

theorem Put.grows (h : s.Put g j keyBackup) (hpast : s'.past = s.past)
    (hgrows : s.world.history <+: s'.world.history) : s'.Put g j keyBackup := by
  rw [put_iff] at h ⊢
  rw [hpast]
  exact h.imp_right (And.imp_right fun hmem => hgrows.subset hmem)

theorem put_congr (hpast : s'.past = s.past) (h : World.Unremarkable s.world s'.world) :
    s'.Put g j keyBackup ↔ s.Put g j keyBackup := by
  rw [put_iff, put_iff, hpast, h _ rfl]

/-- A rotation starts a generation without a backup. -/
theorem put_rotate : s.rotate.Put g j keyBackup ↔ s.Put g j keyBackup := by
  rw [put_iff, Put]
  simp [rotate]

theorem mem_events_rotate {e : Event ι} : e ∈ s.rotate.events ↔ e ∈ s.events := by
  rw [mem_events_iff, events, List.mem_flatten]
  simp [rotate]

variable [DecidableEq ι]

structure Inv (lib : Primitives) (crypto : Cryptography) (s : RotatingWorld ι) : Prop where
  tracks : ∃ p, s.world.Tracks p
  closed : ∀ history ∈ s.past, ∃ p, phaseOf history = some p
  apart : ∀ g g' j j' keyBackup keyBackup', g < g' → s.Put g j keyBackup →
    s.Put g' j' keyBackup' → ∀ key privateKeyBytes,
      lib.aeadDecrypt key keyBackup'.aeadEncryptedPrivateKey = some privateKeyBytes →
      ¬ Fits lib crypto keyBackup.certBytes privateKeyBytes
  installs : ∀ i bundle, .installed i bundle ∈ s.events → ∃ g j keyBackup,
    s.Put g j keyBackup ∧
      KmsMeasurementBoundCertificateProvider.decode lib keyBackup = some bundle

/-- What others may change without disturbing what instance `i` knows between its
calls; its own harmless calls do no more. -/
structure Drift (i : ι) (s s' : RotatingWorld ι) : Prop where
  past : s.past <+: s'.past
  puts : ∀ g j keyBackup, s.Put g j keyBackup → s'.Put g j keyBackup
  holds : s'.holdsLock i = s.holdsLock i
  locked : s.holdsLock i = true → s'.past = s.past
  world : s'.past = s.past → World.Rely i s.world s'.world

structure Rely (i : ι) (s s' : RotatingWorld ι) : Prop extends Drift i s s' where
  loading : s'.loading i = s.loading i
  lastRead : s'.lastRead i = s.lastRead i
  reading : s.midLoad i = true → s'.past = s.past

theorem Rely.midLoad {i : ι} {s s' : RotatingWorld ι} (h : Rely i s s') :
    s'.midLoad i = s.midLoad i := by
  simp only [RotatingWorld.midLoad, h.loading, h.lastRead]

theorem Drift.refl (i : ι) (s : RotatingWorld ι) : Drift i s s :=
  ⟨List.prefix_rfl, fun _ _ _ h => h, rfl, fun _ => rfl, fun _ => World.Rely.refl i s.world⟩

theorem Drift.trans {i : ι} {s s' s'' : RotatingWorld ι} (h : Drift i s s')
    (h' : Drift i s' s'') : Drift i s s'' := by
  refine ⟨h.past.trans h'.past, fun g j kb hput => h'.puts g j kb (h.puts g j kb hput),
    h'.holds.trans h.holds, fun hlock => ?_, fun hsame => ?_⟩
  · exact (h'.locked (h.holds.trans hlock)).trans (h.locked hlock)
  · -- without a rotation from `s` to `s''` there is none on the way
    have hmid : s'.past = s.past :=
      (h.past.eq_of_length_le (hsame ▸ h'.past.length_le)).symm
    exact (h.world hmid).trans (h'.world (hsame.trans hmid.symm))

end RotatingWorld

open RotatingWorld

variable [DecidableEq ι] {lib : Primitives} {crypto : Cryptography} {s s' : RotatingWorld ι} {i : ι}

def rotationProtocol (lib : Primitives) (crypto : Cryptography) : Protocol ι (RotatingWorld ι) where
  inv := RotatingWorld.Inv lib crypto
  rely := RotatingWorld.Rely
  rely_refl := fun i s => ⟨Drift.refl i s, rfl, rfl, fun _ => rfl⟩
  rely_trans := fun _ _ _ _ h h' =>
    ⟨h.toDrift.trans h'.toDrift, h'.loading.trans h.loading, h'.lastRead.trans h.lastRead,
      fun hread => (h'.reading (h.midLoad.trans hread)).trans (h.reading hread)⟩

/-- One generation has at most one backup. -/
theorem RotatingWorld.Inv.put_unique (hs : s.Inv lib crypto) {g : ℕ} {j j' : ι}
    {keyBackup keyBackup' : KeyBackup} (h : s.Put g j keyBackup) (h' : s.Put g j' keyBackup') :
    keyBackup = keyBackup' := by
  obtain ⟨history, hget, hmem⟩ := h
  obtain ⟨_, hget', hmem'⟩ := h'
  cases hget.symm.trans hget'
  obtain ⟨p, hp⟩ : ∃ p, phaseOf history = some p := by
    rcases List.mem_append.mp (List.mem_of_getElem? hget) with hold | hnew
    · exact hs.closed history hold
    · obtain ⟨p, hp⟩ := hs.tracks
      rw [List.mem_singleton.mp hnew]
      exact ⟨p, hp.phase_eq⟩
  rw [← mem_started_iff, (phase_logs _ hp).2] at hmem hmem'
  cases p with
  | unclaimed => cases hmem
  | claimed k => cases hmem
  | publishing k b n =>
    cases List.mem_singleton.mp hmem
    exact (congrArg Prod.snd (List.mem_singleton.mp hmem')).symm
  | published k b =>
    cases List.mem_singleton.mp hmem
    exact (congrArg Prod.snd (List.mem_singleton.mp hmem')).symm

/-- A change without a remarkable event keeps what is said about backups. -/
theorem RotatingWorld.Inv.unremarkable (hs : s.Inv lib crypto) (hpast : s'.past = s.past)
    (htracks : ∃ p, s'.world.Tracks p) (h : World.Unremarkable s.world s'.world) :
    s'.Inv lib crypto := by
  refine ⟨htracks, hpast ▸ hs.closed, ?_, ?_⟩
  · simp only [put_congr hpast h]
    exact hs.apart
  · intro k bundle hmem
    simp only [put_congr hpast h]
    apply hs.installs k bundle
    rw [mem_events_iff] at hmem ⊢
    rwa [hpast, h _ rfl] at hmem

/-- A rotation between generations, at a moment when nothing is left that belongs to
the old one. -/
theorem RotatingWorld.Inv.rotate (hs : s.Inv lib crypto)
    (hflight : ∀ eff ∈ s.world.inFlight, eff.createsLock = true) : s.rotate.Inv lib crypto := by
  obtain ⟨p, hp⟩ := hs.tracks
  refine ⟨⟨.unclaimed, rfl, fun _ _ => rfl, fun h => h.elim, ?_, ?_⟩, ?_, ?_, ?_⟩
  · intro eff heff
    have hcreates := hflight eff heff
    cases eff with
    | put key content ifNoneMatch =>
      cases key <;> cases ifNoneMatch <;> first | rfl | cases hcreates
    | delete key => cases hcreates
  · have hnone : s.world.inFlight.filter Effect.writesArtifact = [] := by
      rw [List.filter_eq_nil_iff]
      intro eff heff
      have hcreates := hflight eff heff
      cases eff with
      | put key content ifNoneMatch =>
        cases key <;> simp_all [Effect.createsLock, Effect.writesArtifact]
      | delete key => cases hcreates
    simp [RotatingWorld.rotate, hnone]
  · intro history hmem
    rcases List.mem_append.mp hmem with hold | hnew
    · exact hs.closed history hold
    · rw [List.mem_singleton.mp hnew]
      exact ⟨p, hp.phase_eq⟩
  · simp only [put_rotate]
    exact hs.apart
  · simp only [put_rotate, mem_events_rotate]
    exact hs.installs

theorem rely_rotate (hlock : s.holdsLock i = false) (hread : s.midLoad i = false) :
    RotatingWorld.Rely i s s.rotate := by
  refine ⟨⟨List.prefix_append _ _, fun _ _ _ h => put_rotate.mpr h, hlock.symm, ?_, ?_⟩, rfl, rfl,
    ?_⟩
  · intro h
    rw [hlock] at h
    cases h
  · intro h
    simp [RotatingWorld.rotate, generations] at h
  · exact fun h => absurd h (Bool.eq_false_iff.mp hread)

/-- The outside world, when it rotates the keys at settled moments only. -/
theorem outside_respects {cfg : ι → ProviderConfig}
    {c : Config ι Call Reply (RotatingWorld ι)} {e : Outside} (hok : RotatesWhenSettled c (.env e))
    (hs : c.shared.Inv lib crypto) (henv : (rotating lib cfg).env e c.shared = some s') :
    s'.Inv lib crypto ∧
      ∀ j p, c.control j = .running p → RotatingWorld.Rely j c.shared s' := by
  cases e with
  | deliver n =>
    obtain ⟨w, hdel, rfl⟩ := Option.map_eq_some_iff.mp henv
    obtain ⟨eff, hget, rfl⟩ := Option.map_eq_some_iff.mp hdel
    obtain ⟨p, hp⟩ := hs.tracks
    obtain ⟨htracks, hrely⟩ := hp.deliver hget
    refine ⟨hs.unremarkable rfl htracks (unremarkable_carryOut _ eff), fun j _ _ => ?_⟩
    exact ⟨⟨List.prefix_rfl, fun _ _ _ hput => hput.grows rfl (hrely j).grows, rfl, fun _ => rfl,
      fun _ => hrely j⟩, rfl, rfl, fun _ => rfl⟩
  | rotate =>
    cases henv
    obtain ⟨hflight, hrunning⟩ := hok
    refine ⟨hs.rotate hflight, fun j p hj => ?_⟩
    have hj' := hrunning j
    rw [hj] at hj'
    exact rely_rotate hj'.1 hj'.2

section Calls

variable {o : Call} {r : Reply o} {w : World ι}

/-- A call of `i` that keeps the invariant and respects the others. -/
theorem guarantee_afterCall (hinv : (s.afterCall i o r w).Inv lib crypto)
    (hgrows : s.world.history <+: w.history) (hrespects : World.Respects i s.world w) :
    (rotationProtocol lib crypto).Guarantee i s (s.afterCall i o r w) := by
  refine ⟨hinv, fun j hj => ⟨⟨List.prefix_rfl, fun _ _ _ hput => hput.grows rfl hgrows, ?_,
    fun _ => rfl, fun _ => hrespects.2 j hj⟩, ?_, ?_, fun _ => rfl⟩⟩
  · simp [RotatingWorld.afterCall, hj]
  · simp [RotatingWorld.afterCall, hj]
  · simp [RotatingWorld.afterCall, hj]

/-- What `i` knows survives its own calls that touch neither lock nor phase. -/
theorem drift_afterCall (hholds : holdsAfter (s.holdsLock i) o r = s.holdsLock i)
    (hrely : World.Rely i s.world w) : Drift i s (s.afterCall i o r w) := by
  refine ⟨List.prefix_rfl, fun _ _ _ hput => hput.grows rfl hrely.grows, ?_, fun _ => rfl,
    fun _ => hrely⟩
  simp [RotatingWorld.afterCall, hholds]

end Calls
end PublicEndorsement.Mbs
