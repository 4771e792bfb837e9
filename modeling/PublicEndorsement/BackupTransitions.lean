import PublicEndorsement.BackupProtocol

/-!
# Changes of the shared state that respect the protocol

One lemma for each way an operation or a late request can change the world: it
keeps the invariant and stays within what the other instances rely on.
-/

namespace PublicEndorsement.Mbs

open Interaction OrderedPublication

variable {ι : Type}

theorem World.record_grows (w : World ι) (e : Event ι) : w.history <+: (w.record e).history :=
  List.prefix_append _ _

theorem World.carryOut_grows (w : World ι) (eff : Effect) :
    w.history <+: (w.carryOut eff).history := by
  unfold World.carryOut
  split_ifs
  · cases eff <;> exact List.prefix_append _ _
  · exact List.prefix_rfl

@[simp] theorem World.carryOut_inFlight (w : World ι) (eff : Effect) :
    (w.carryOut eff).inFlight = w.inFlight := by
  unfold World.carryOut
  split_ifs
  · cases eff <;> rfl
  · rfl

@[simp] theorem World.carryOut_currentCertificate (w : World ι) (eff : Effect) :
    (w.carryOut eff).currentCertificate = w.currentCertificate := by
  unfold World.carryOut
  split_ifs
  · cases eff <;> rfl
  · rfl

/-- A port answers with a failure or with what the choice says, and changes nothing. -/
theorem answer_cases {α : Type} {w w' : World ι} {value : Choice → Option α} {choice : Choice}
    {r : Except Failure α} (h : w.answer value choice = some (r, w')) :
    w' = w ∧ ∀ a, r = .ok a → value choice = some a := by
  by_cases hfail : ∃ e, choice = .failure e
  · obtain ⟨e, rfl⟩ := hfail
    obtain ⟨rfl, rfl⟩ := Prod.mk.inj (Option.some.inj h)
    exact ⟨rfl, fun a ha => by cases ha⟩
  · have hmap : (value choice).map (fun a => ((.ok a : Except Failure α), w)) = some (r, w') := by
      cases choice <;> first | exact h | exact absurd ⟨_, rfl⟩ hfail
    obtain ⟨a, ha, hpair⟩ := Option.map_eq_some_iff.mp hmap
    obtain ⟨rfl, rfl⟩ := Prod.mk.inj hpair
    refine ⟨rfl, fun b hb => ?_⟩
    cases hb
    exact ha

variable [DecidableEq ι] {lib : Primitives} {w : World ι} {p : Phase ι KeyBackup}

/-- A change that keeps phase and artifact writes in flight disturbs nobody. -/
theorem Rely.of_same_phase {w' : World ι} (j : ι) (hgrows : w.history <+: w'.history)
    (hphase : w'.phase = w.phase) (hquiet : w.Quiet → w'.Quiet) : World.Rely j w w' := by
  refine ⟨hgrows, fun h => hphase.trans h, ?_⟩
  intro keyBackup n h hq
  exact ⟨hphase.trans h, hquiet hq⟩

/-- A change in a phase that does not belong to `j` does not disturb `j`. -/
theorem Rely.of_other {w' : World ι} (j : ι) (hgrows : w.history <+: w'.history)
    (hclaimed : w.phase ≠ some (.claimed j))
    (hpublishing : ∀ keyBackup n, w.phase ≠ some (.publishing j keyBackup n)) :
    World.Rely j w w' :=
  ⟨hgrows, fun h => absurd h hclaimed, fun keyBackup n h => absurd h (hpublishing keyBackup n)⟩

namespace World

theorem Inv.record (hw : w.Inv lib) (e : Event ι) (htracks : ∃ p, (w.record e).Tracks p)
    (hget : ∀ i site since outcome, e = .noted i (.getKeyBackup site since outcome) →
      since ≤ w.history.length ∧ OutcomeOk w.history i site since outcome)
    (hinstall : ∀ i bundle, e ≠ .installed i bundle) : (w.record e).Inv lib := by
  refine ⟨htracks, hw.truthful.append e hget (fun i bundle h => absurd h (hinstall i bundle)), ?_⟩
  intro i bundle h
  exact List.mem_append_left _ (hw.current i bundle h)

theorem Tracks.record_silent (h : w.Tracks p) (e : Event ι) (he : e.step? = none) :
    (w.record e).Tracks p :=
  ⟨(phaseOf_append_silent w.history e he).trans h.phase_eq, h.stored_eq, h.locked, h.admissible,
    h.single⟩

theorem Rely.record_silent (j : ι) (e : Event ι) (he : e.step? = none) :
    World.Rely j w (w.record e) :=
  Rely.of_same_phase j (w.record_grows e) (phaseOf_append_silent w.history e he) id

theorem Tracks.postpone (h : w.Tracks p) (eff : Effect) (heff : Admissible p eff)
    (hsingle : eff.writesArtifact = true → w.Quiet) : (w.postpone eff).Tracks p := by
  refine ⟨h.phase_eq, h.stored_eq, h.locked, ?_, ?_⟩
  · intro e he
    rcases List.mem_append.mp he with hm | hm
    · exact h.admissible e hm
    · rw [List.mem_singleton.mp hm]
      exact heff
  · cases ha : eff.writesArtifact with
    | false => simpa [World.postpone, List.filter_append, ha] using h.single
    | true =>
      have hnone : w.inFlight.filter Effect.writesArtifact = [] := by
        rw [List.filter_eq_nil_iff]
        intro e he
        simp [hsingle ha e he]
      simp [World.postpone, List.filter_append, hnone, ha]

theorem Inv.postpone (hw : w.Inv lib) {eff : Effect} (htracks : ∃ p, (w.postpone eff).Tracks p) :
    (w.postpone eff).Inv lib := ⟨htracks, hw.truthful, hw.current⟩

theorem Rely.postpone_lock (j : ι) (content : Bytes) :
    World.Rely j w (w.postpone (.put .lock content true)) := by
  refine Rely.of_same_phase j List.prefix_rfl rfl ?_
  intro hq e he
  rcases List.mem_append.mp he with hm | hm
  · exact hq e hm
  · rw [List.mem_singleton.mp hm]
    rfl

/-- Beginning to publish, by the one instance that holds the claim. -/
theorem Tracks.start {i : ι} (h : w.Tracks (.claimed i)) (keyBackup : KeyBackup) :
    (w.record (.noted i (.putKeyBackup keyBackup))).Tracks (.publishing i keyBackup 0) := by
  refine ⟨?_, h.stored_eq, h.locked, ?_, h.single⟩
  · have hphase : phaseOf w.history = some (.claimed i) := h.phase_eq
    simp [World.phase, World.record, phaseOf_append, hphase, Event.step?, Phase.next]
  · intro eff heff
    obtain ⟨content, rfl⟩ := (h.admissible eff heff).lock_of_not_started rfl
    rfl

/-- Nothing but lock requests is in flight before publication starts. -/
theorem Tracks.quiet_of_claimed {i : ι} (h : w.Tracks (.claimed i)) : w.Quiet := by
  intro eff heff
  obtain ⟨content, rfl⟩ := (h.admissible eff heff).lock_of_not_started rfl
  rfl

/-- The lock object appears: the phase does not notice. -/
theorem Tracks.putLock (h : w.Tracks p) (content : Bytes) :
    (w.carryOut (.put .lock content true)).Tracks p := by
  unfold World.carryOut
  split_ifs with hadm
  · refine ⟨?_, ?_, ?_, h.admissible, h.single⟩
    · exact (phaseOf_append_silent w.history _ rfl).trans h.phase_eq
    · intro key hkey
      simpa [Function.update_of_ne hkey] using h.stored_eq key hkey
    · simp
  · exact h

theorem Inv.carryOut (hw : w.Inv lib) (eff : Effect) (htracks : ∃ p, (w.carryOut eff).Tracks p) :
    (w.carryOut eff).Inv lib := by
  refine ⟨htracks, ?_, ?_⟩
  · unfold World.carryOut
    split_ifs
    · cases eff with
      | put key content ifNoneMatch =>
        exact hw.truthful.append _ (fun _ _ _ _ h => by cases h) (fun _ _ h => by cases h)
      | delete key =>
        exact hw.truthful.append _ (fun _ _ _ _ h => by cases h) (fun _ _ h => by cases h)
    · exact hw.truthful
  · intro i bundle h
    rw [carryOut_currentCertificate] at h
    exact (w.carryOut_grows eff).subset (hw.current i bundle h)

theorem Rely.putLock (j : ι) (h : w.Tracks p) (content : Bytes) :
    World.Rely j w (w.carryOut (.put .lock content true)) := by
  refine Rely.of_same_phase j (w.carryOut_grows _)
    ((h.putLock content).phase_eq.trans h.phase_eq.symm) ?_
  intro hq e he
  rw [carryOut_inFlight] at he
  exact hq e he

/-- An instance whose conditional PUT created the lock holds the claim, unless the
backup was already complete. -/
theorem Tracks.acquire (h : w.Tracks p) (i : ι) (hfree : w.objects .lock = none)
    (content : Bytes) :
    ∃ q, ((w.carryOut (.put .lock content true)).record (.created i .lock)).Tracks q ∧
      (p = .unclaimed ∧ q = .claimed i ∨ ∃ j keyBackup, p = .published j keyBackup ∧ q = p) := by
  have hlock := h.putLock content
  have hsome : (w.carryOut (.put .lock content true)).objects .lock ≠ none := by
    simp [World.carryOut, World.admits, hfree]
  have hphase : phaseOf (w.carryOut (.put .lock content true)).history = some p := hlock.phase_eq
  cases p with
  | unclaimed =>
    refine ⟨.claimed i, ⟨?_, hlock.stored_eq, fun _ => hsome, ?_, hlock.single⟩, .inl ⟨rfl, rfl⟩⟩
    · simp [World.phase, World.record, phaseOf_append, hphase, Event.step?, Phase.next]
    · intro eff heff
      obtain ⟨content', rfl⟩ := (hlock.admissible eff heff).lock_of_not_started rfl
      rfl
  | claimed j => exact absurd hfree (h.locked trivial)
  | publishing j kb n => exact absurd hfree (h.locked trivial)
  | published j kb =>
    refine ⟨.published j kb, ⟨?_, hlock.stored_eq, fun _ => hsome, hlock.admissible, hlock.single⟩,
      .inr ⟨j, kb, rfl, rfl⟩⟩
    simp [World.phase, World.record, phaseOf_append, hphase, Event.step?, Phase.next]

def advanced (i : ι) (keyBackup : KeyBackup) (n : ℕ) : Phase ι KeyBackup :=
  if n + 1 = 4 then .published i keyBackup else .publishing i keyBackup (n + 1)

theorem next_write {i : ι} {keyBackup : KeyBackup} {n : ℕ} {key : ObjectKey} {content : Bytes}
    (hpart : keyBackup.parts[n]? = some (key, content)) :
    (Phase.publishing i keyBackup n).next KeyBackup.parts (.write key content) =
      some (advanced i keyBackup n) := by
  have hlen : keyBackup.parts.length = 4 := rfl
  simp only [Phase.next, hpart, if_true, hlen, advanced]
  split_ifs <;> rfl

/-- The next artifact is written. -/
theorem Tracks.write {i : ι} {keyBackup : KeyBackup} {n : ℕ} {key : ObjectKey} {content : Bytes}
    (h : w.Tracks (.publishing i keyBackup n)) (hquiet : w.Quiet)
    (hpart : keyBackup.parts[n]? = some (key, content)) :
    (w.carryOut (.put key content false)).Tracks (advanced i keyBackup n) := by
  have hphase : phaseOf w.history = some (.publishing i keyBackup n) := h.phase_eq
  have hkey := parts_key_ne_lock hpart
  have hstep : (Event.wrote key content : Event ι).step? = some (.write key content) := by
    cases key <;> first | rfl | exact absurd rfl hkey
  have hnext := next_write (i := i) hpart
  have hcarry : w.carryOut (.put key content false) =
      { w with
        objects := Function.update w.objects key (some content)
        history := w.history ++ [.wrote key content] } := by simp [World.carryOut, World.admits]
  rw [hcarry]
  refine ⟨?_, ?_, ?_, ?_, h.single⟩
  · simp [World.phase, phaseOf_append, hphase, hstep, hnext]
  · intro k hk
    have hwritten := (next_logs hnext).1
    have hold := h.stored_eq k hk
    rw [stored, hwritten]
    by_cases hkk : k = key
    · subst k
      have hnone := lookup_take_eq_none (parts_keys_nodup keyBackup) hpart
      simp [List.lookup_append, Phase.written, hnone, Step.written?]
    · have hbeq : (k == key) = false := beq_false_of_ne hkk
      rw [stored] at hold
      simp [List.lookup_append, hkk, hold, Step.written?, List.lookup_cons, hbeq]
  · intro _
    simpa [Function.update_of_ne hkey.symm] using h.locked trivial
  · intro eff heff
    have hold := h.admissible eff heff
    have hq := hquiet eff heff
    cases eff with
    | put k c b => cases k <;> first | exact hold | cases hq
    | delete k => exact absurd hold.2 (by simp)

theorem Tracks.unlock {i : ι} {keyBackup : KeyBackup} (h : w.Tracks (.published i keyBackup)) :
    (w.carryOut (.delete .lock)).Tracks (.published i keyBackup) := by
  have hphase : phaseOf w.history = some (.published i keyBackup) := h.phase_eq
  refine ⟨?_, ?_, fun hex => hex.elim, h.admissible, h.single⟩
  · simp [World.phase, World.carryOut, World.admits, phaseOf_append, hphase, Event.step?,
      Phase.next]
  · intro key hkey
    simpa [World.carryOut, World.admits, Function.update_of_ne hkey] using h.stored_eq key hkey

/-- In the published phase nobody relies on anything but the history. -/
theorem Rely.of_published {i : ι} {keyBackup : KeyBackup} {w' : World ι} (j : ι)
    (h : w.phase = some (.published i keyBackup)) (hgrows : w.history <+: w'.history) :
    World.Rely j w w' :=
  Rely.of_other j hgrows (by rw [h]; simp) (by rw [h]; simp)

theorem Inv.install (hw : w.Inv lib) (i : ι) {j : ι} {keyBackup : KeyBackup}
    {bundle : MeasurementBoundCertificate}
    (hnote : .noted j (.putKeyBackup keyBackup) ∈ w.history)
    (hdecode : KmsMeasurementBoundCertificateProvider.decode lib keyBackup = some bundle) :
    (w.install i bundle).Inv lib := by
  obtain ⟨p, h⟩ := hw.tracks
  refine ⟨⟨p, (phaseOf_append_silent w.history _ rfl).trans h.phase_eq, h.stored_eq, h.locked,
    h.admissible, h.single⟩, ?_, ?_⟩
  · apply hw.truthful.append _ (fun _ _ _ _ h => by cases h)
    intro k b hb
    cases hb
    exact ⟨j, keyBackup, hnote, hdecode⟩
  · intro k b hb
    by_cases hk : k = i
    · subst k
      have hbundle : bundle = b := by simpa [World.install] using hb
      simp [World.install, hbundle]
    · exact List.mem_append_left _ (hw.current k b (by simpa [World.install, hk] using hb))

theorem Rely.install (i j : ι) (bundle : MeasurementBoundCertificate) :
    World.Rely j w (w.install i bundle) :=
  Rely.of_same_phase j (List.prefix_append _ _) (phaseOf_append_silent w.history _ rfl) id

theorem Tracks.dropInFlight (h : w.Tracks p) (n : ℕ) :
    { w with inFlight := w.inFlight.eraseIdx n }.Tracks p := by
  have hsub : (w.inFlight.eraseIdx n).Sublist w.inFlight := List.eraseIdx_sublist _ _
  refine ⟨h.phase_eq, h.stored_eq, h.locked, ?_, (hsub.filter _).length_le.trans h.single⟩
  intro eff heff
  exact h.admissible eff (hsub.subset heff)

/-- At most one artifact write is in flight, so none is left behind it. -/
theorem Tracks.quiet_dropInFlight (h : w.Tracks p) {n : ℕ} {eff : Effect}
    (hget : w.inFlight[n]? = some eff) (heff : eff.writesArtifact = true) :
    { w with inFlight := w.inFlight.eraseIdx n }.Quiet := by
  obtain ⟨hn, hat⟩ := List.getElem?_eq_some_iff.mp hget
  have hperm := (List.getElem_cons_eraseIdx_perm hn).filter Effect.writesArtifact
  rw [hat, List.filter_cons_of_pos heff] at hperm
  have hlen := hperm.length_eq
  rw [List.length_cons] at hlen
  have hnil : (w.inFlight.eraseIdx n).filter Effect.writesArtifact = [] := by
    apply List.eq_nil_of_length_eq_zero
    have := h.single
    omega
  intro e he
  simpa using List.filter_eq_nil_iff.mp hnil e he

/-- A request S3 carries out late is one the phase still allows. -/
theorem Tracks.deliver (h : w.Tracks p) {n : ℕ} {eff : Effect} (hget : w.inFlight[n]? = some eff) :
    (∃ q, ({ w with inFlight := w.inFlight.eraseIdx n }.carryOut eff).Tracks q) ∧
      ∀ j, World.Rely j w ({ w with inFlight := w.inFlight.eraseIdx n }.carryOut eff) := by
  have h₁ := h.dropInFlight n
  have hmem : eff ∈ w.inFlight := List.mem_of_getElem? hget
  have hadm := h.admissible eff hmem
  have hgrows := carryOut_grows { w with inFlight := w.inFlight.eraseIdx n } eff
  cases heff : eff.writesArtifact with
  | true =>
    cases eff with
    | delete key => cases heff
    | put key content ifNoneMatch =>
      have hkey : key ≠ .lock := by
        rintro rfl
        cases heff
      obtain ⟨rfl, i, keyBackup, m, rfl, hpart⟩ : ifNoneMatch = false ∧
          ∃ i keyBackup m, p = .publishing i keyBackup m ∧
            keyBackup.parts[m]? = some (key, content) := by
        cases key <;> first | exact hadm | exact absurd rfl hkey
      refine ⟨⟨_, h₁.write (h.quiet_dropInFlight hget heff) hpart⟩, ?_⟩
      intro j
      refine ⟨hgrows, fun hc => absurd (h.phase_eq.symm.trans hc) (by simp), ?_⟩
      intro kb k _ hq
      exact absurd (hq _ hmem) (by simp [heff])
  | false =>
    cases eff with
    | delete key =>
      obtain ⟨rfl, i, keyBackup, rfl⟩ := hadm
      exact ⟨⟨_, h₁.unlock⟩, fun j => Rely.of_published j h.phase_eq hgrows⟩
    | put key content ifNoneMatch =>
      obtain ⟨rfl, rfl⟩ : key = .lock ∧ ifNoneMatch = true := by
        cases key <;> first | exact ⟨rfl, hadm⟩ | cases heff
      refine ⟨⟨_, h₁.putLock content⟩, fun j => ?_⟩
      refine Rely.of_same_phase j hgrows ((h₁.putLock content).phase_eq.trans h.phase_eq.symm) ?_
      intro hq e he
      rw [carryOut_inFlight] at he
      exact hq e ((List.eraseIdx_sublist _ _).subset he)

theorem Inv.deliver (hw : w.Inv lib) (n : ℕ) (w' : World ι) (hdel : World.deliver n w = some w') :
    w'.Inv lib ∧ ∀ j, World.Rely j w w' := by
  obtain ⟨p, h⟩ := hw.tracks
  obtain ⟨eff, hget, rfl⟩ := Option.map_eq_some_iff.mp hdel
  obtain ⟨htracks, hrely⟩ := h.deliver hget
  have hw₁ : { w with inFlight := w.inFlight.eraseIdx n }.Inv lib :=
    ⟨⟨p, h.dropInFlight n⟩, hw.truthful, hw.current⟩
  exact ⟨hw₁.carryOut eff htracks, hrely⟩

end World
end PublicEndorsement.Mbs
