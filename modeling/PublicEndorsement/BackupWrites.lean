import PublicEndorsement.BackupReads

/-!
# Taking the lock and writing a key backup while others run

Triples for the writes of the storage adapter. A write that is reported as failed
may still have been carried out, or be carried out later; the assertions of the
instance do not depend on which.
-/

namespace PublicEndorsement.Mbs

open Interaction OrderedPublication Machine

variable {ι : Type} {lib : Primitives} {cfg : ι → ProviderConfig} {i : ι}

/-- Everything a write request can do: succeed, or fail with no effect, with its
effect, or with its effect still to come. -/
theorem request_cases {w w' : World ι} {eff : Effect} {choice : Choice}
    {r : Except SdkException Unit} (h : w.request eff choice = some (r, w')) :
    (r = .ok () ∧ w.admits eff = true ∧ w' = w.carryOut eff) ∨
      (∃ e, r = .error e) ∧ (w' = w ∨ w' = w.carryOut eff ∨ w' = w.postpone eff) := by
  cases choice with
  | ok =>
    simp only [World.request] at h
    split_ifs at h with hadm
    · obtain ⟨rfl, rfl⟩ := Prod.mk.inj (Option.some.inj h)
      exact .inl ⟨rfl, hadm, rfl⟩
    · obtain ⟨rfl, rfl⟩ := Prod.mk.inj (Option.some.inj h)
      exact .inr ⟨⟨_, rfl⟩, .inl rfl⟩
  | s3Failure e tookEffect =>
    cases tookEffect with
    | true =>
      obtain ⟨rfl, rfl⟩ := Prod.mk.inj (Option.some.inj h)
      exact .inr ⟨⟨_, rfl⟩, .inr (.inl rfl)⟩
    | false =>
      obtain ⟨rfl, rfl⟩ := Prod.mk.inj (Option.some.inj h)
      exact .inr ⟨⟨_, rfl⟩, .inr (.inr rfl)⟩
  | _ => cases h

/-- The same for a PUT, which also leaves a mark when it created the object. -/
theorem putObject_cases {w w' : World ι} {key : ObjectKey} {content : Bytes} {ifNoneMatch : Bool}
    {choice : Choice} {r : Except SdkException Unit}
    (h : w.putObject i key content ifNoneMatch choice = some (r, w')) :
    let eff := Effect.put key content ifNoneMatch
    (r = .ok () ∧ w.admits eff = true ∧
        w' = if ifNoneMatch then (w.carryOut eff).record (.created i key) else w.carryOut eff) ∨
      (∃ e, r = .error e) ∧ (w' = w ∨ w' = w.carryOut eff ∨ w' = w.postpone eff) := by
  unfold World.putObject at h
  cases hreq : w.request (.put key content ifNoneMatch) choice with
  | none =>
    rw [hreq] at h
    cases h
  | some result =>
    obtain ⟨r₁, w₁⟩ := result
    rw [hreq] at h
    rcases request_cases hreq with ⟨rfl, hadm, rfl⟩ | ⟨⟨e, rfl⟩, hw₁⟩
    · obtain ⟨rfl, rfl⟩ := Prod.mk.inj (Option.some.inj h)
      exact .inl ⟨rfl, hadm, rfl⟩
    · obtain ⟨rfl, rfl⟩ := Prod.mk.inj (Option.some.inj h)
      exact .inr ⟨⟨e, rfl⟩, hw₁⟩

variable [DecidableEq ι]

/-- The shared state still follows the protocol, and nobody but `i` lost what it
relies on. -/
def World.Respects (i : ι) (w w' : World ι) : Prop :=
  (∃ p, w'.Tracks p) ∧ ∀ j, j ≠ i → World.Rely j w w'

/-- A write request leaves the world as it was, changes it, or is still to come. -/
def World.Attempt (eff : Effect) (w w' : World ι) : Prop :=
  w' = w ∨ w' = w.carryOut eff ∨ w' = w.postpone eff

theorem respects_of_attempt {w w' : World ι} {eff : Effect} (h : World.Attempt eff w w')
    {p q : Phase ι KeyBackup} (hp : w.Tracks p) (hcarry : (w.carryOut eff).Tracks q)
    (hadm : Admissible p eff) (hsingle : eff.writesArtifact = true → w.Quiet)
    (hrely : ∀ w' : World ι, w.history <+: w'.history → w' = w.carryOut eff ∨ w' = w.postpone eff →
      ∀ j, j ≠ i → World.Rely j w w') : World.Respects i w w' := by
  rcases h with rfl | rfl | rfl
  · exact ⟨⟨p, hp⟩, fun j _ => World.Rely.refl j _⟩
  · exact ⟨⟨q, hcarry⟩, hrely _ (w.carryOut_grows eff) (.inl rfl)⟩
  · exact ⟨⟨p, hp.postpone eff hadm hsingle⟩, hrely _ List.prefix_rfl (.inr rfl)⟩

/-- What respects the protocol keeps the invariant too: requests add nothing to the
history that the invariant would have to vouch for. -/
theorem guarantee_of_attempt {w w' : World ι} (hw : w.Inv lib) {eff : Effect}
    (h : World.Attempt eff w w') (hrespects : World.Respects i w w') :
    (backupProtocol lib).Guarantee i w w' := by
  refine ⟨?_, hrespects.2⟩
  rcases h with rfl | rfl | rfl
  · exact hw
  · exact hw.carryOut eff hrespects.1
  · exact hw.postpone hrespects.1

theorem putLock_respects {w w' : World ι} (hw : ∃ p, w.Tracks p) {content : Bytes}
    (h : World.Attempt (.put .lock content true) w w') : World.Respects i w w' := by
  obtain ⟨p, hp⟩ := hw
  refine respects_of_attempt h hp (hp.putLock content) rfl (fun h => by cases h) ?_
  rintro w' - (rfl | rfl) j -
  · exact World.Rely.putLock j hp content
  · exact World.Rely.postpone_lock j content

theorem createLock_respects {w : World ι} (hw : ∃ p, w.Tracks p) (content : Bytes)
    (hfree : w.objects .lock = none) :
    let w' := (w.carryOut (.put .lock content true)).record (.created i .lock)
    World.Respects i w w' ∧ Held i w' := by
  obtain ⟨p, hp⟩ := hw
  obtain ⟨q, hq, hcases⟩ := hp.acquire i hfree content
  have hgrows := (w.carryOut_grows (.put .lock content true)).trans
    (World.record_grows _ (.created i .lock))
  rcases hcases with ⟨rfl, rfl⟩ | ⟨j, keyBackup, rfl, rfl⟩
  · refine ⟨⟨⟨_, hq⟩, fun k _ => Rely.of_other k hgrows ?_ ?_⟩, .inl hq.phase_eq⟩
    · rw [hp.phase_eq]
      simp
    · rw [hp.phase_eq]
      simp
  · exact ⟨⟨⟨_, hq⟩, fun k _ => World.Rely.of_published k hp.phase_eq hgrows⟩,
      .inr ⟨j, keyBackup, hq.phase_eq⟩⟩

theorem acquireLock_spec (instanceId : Bytes) :
    Ensures lib cfg i (fun _ => True) (S3KeyBackupStorage.acquireLock instanceId)
      (fun _ => Held i) (fun _ _ => True) := by
  refine S3KeyBackupStorage.acquireLock_of instanceId stable_held ?_
    (fun event => recordEvent_spec (.const True) event)
  apply Spec.perform (.const True) (stable_done stable_held)
  intro w choice r w' hw _ hexec
  rcases putObject_cases hexec with ⟨rfl, hadm, rfl⟩ | ⟨⟨e, rfl⟩, hw'⟩
  · have hfree : w.objects .lock = none := by simpa [World.admits] using hadm
    obtain ⟨hrespects, hheld⟩ := createLock_respects (i := i) hw.tracks instanceId hfree
    have hcarry := hw.carryOut (.put .lock instanceId true)
      (putLock_respects (i := i) hw.tracks (.inr (.inl rfl))).1
    exact ⟨⟨hcarry.record _ hrespects.1 (fun _ _ _ _ h => by cases h) (fun _ _ h => by cases h),
      hrespects.2⟩, hheld⟩
  · exact ⟨guarantee_of_attempt hw hw' (putLock_respects hw.tracks hw'), trivial⟩

theorem deleteLock_respects {w w' : World ι} (hw : ∃ p, w.Tracks p) {j : ι} {keyBackup : KeyBackup}
    (hpub : w.phase = some (.published j keyBackup)) (h : World.Attempt (.delete .lock) w w') :
    World.Respects i w w' := by
  obtain ⟨p, hp⟩ := hw
  obtain rfl : p = .published j keyBackup := Option.some.inj (hp.phase_eq.symm.trans hpub)
  exact respects_of_attempt h hp hp.unlock ⟨rfl, j, keyBackup, rfl⟩ (fun h => by cases h)
    (fun _ hgrows _ k _ => World.Rely.of_published k hpub hgrows)

omit [DecidableEq ι] in
theorem attempt_of_deleteObject {w w' : World ι} {choice : Choice} {r : Except SdkException Unit}
    {eff : Effect} (h : w.request eff choice = some (r, w')) : World.Attempt eff w w' := by
  rcases request_cases h with ⟨-, -, hw'⟩ | ⟨-, hw'⟩
  · exact .inr (.inl hw')
  · exact hw'

/-- The lock is given up only when the backup is complete. -/
theorem releaseLock_spec :
    Ensures lib cfg i (fun w => ∃ j keyBackup, w.phase = some (.published j keyBackup))
      S3KeyBackupStorage.releaseLock (fun _ _ => True) (fun _ _ => True) := by
  refine S3KeyBackupStorage.releaseLock_of ?_ (fun event => recordEvent_spec (.const True) event)
  apply Spec.perform (.ex fun j => .ex fun keyBackup => stable_published j keyBackup)
    (fun _ => .const True)
  rintro w choice r w' hw ⟨j, keyBackup, hpub⟩ hexec
  have hw' := attempt_of_deleteObject hexec
  exact ⟨guarantee_of_attempt hw hw' (deleteLock_respects hw.tracks hpub hw'), trivial⟩

/-- The holder of the claim starts to publish. -/
theorem start_respects {w : World ι} (hw : ∃ p, w.Tracks p)
    (hclaimed : w.phase = some (.claimed i)) (keyBackup : KeyBackup) :
    let w' := w.record (.noted i (.putKeyBackup keyBackup))
    World.Respects i w w' ∧ Writing i keyBackup 0 w' := by
  obtain ⟨p, hp⟩ := hw
  obtain rfl : p = .claimed i := Option.some.inj (hp.phase_eq.symm.trans hclaimed)
  have hstart := hp.start keyBackup
  refine ⟨⟨⟨_, hstart⟩, fun j hj => ?_⟩, hstart.phase_eq, hp.quiet_of_claimed⟩
  apply Rely.of_other j (w.record_grows _)
  · rw [hclaimed]
    simpa using hj.symm
  · rw [hclaimed]
    simp

theorem Writing.lt {keyBackup : KeyBackup} {n : ℕ} {w : World ι} {part : ObjectKey × Bytes}
    (hpart : keyBackup.parts[n]? = some part) (h : Writing i keyBackup n w) :
    w.phase = some (.publishing i keyBackup n) ∧ w.Quiet := by
  have hn : n < 4 := (List.getElem?_eq_some_iff.mp hpart).1
  rwa [Writing, if_neg (by omega)] at h

/-- The `n`-th write, made by the instance that is publishing. -/
theorem putArtifact_respects {w : World ι} (hw : ∃ p, w.Tracks p) {keyBackup : KeyBackup} {n : ℕ}
    {key : ObjectKey} {content : Bytes} (hpart : keyBackup.parts[n]? = some (key, content))
    (h : Writing i keyBackup n w) :
    (∀ w', World.Attempt (.put key content false) w w' → World.Respects i w w') ∧
      Writing i keyBackup (n + 1) (w.carryOut (.put key content false)) := by
  obtain ⟨p, hp⟩ := hw
  obtain ⟨hphase, hquiet⟩ := h.lt hpart
  obtain rfl : p = .publishing i keyBackup n := Option.some.inj (hp.phase_eq.symm.trans hphase)
  have hwritten := hp.write hquiet hpart
  have hadm : Admissible (.publishing i keyBackup n) (.put key content false) := by
    have hkey := parts_key_ne_lock hpart
    cases key <;> first | exact ⟨rfl, i, keyBackup, n, rfl, hpart⟩ | exact absurd rfl hkey
  constructor
  · intro w' hw'
    refine respects_of_attempt hw' hp hwritten hadm (fun _ => hquiet) (fun w' hgrows _ j hj => ?_)
    apply Rely.of_other j hgrows
    · rw [hphase]
      simp
    · intro kb m he
      rw [hphase] at he
      cases he
      exact hj rfl
  · have hnext := hwritten.phase_eq
    unfold World.advanced at hnext
    unfold Writing
    split_ifs at hnext ⊢
    · exact hnext
    · refine ⟨hnext, ?_⟩
      intro eff heff
      rw [World.carryOut_inFlight] at heff
      exact hquiet eff heff

theorem putS3Object_spec (props : KeyBackupBucketProperties) {keyBackup : KeyBackup} {n : ℕ}
    {key : ObjectKey} {content : Bytes} (hpart : keyBackup.parts[n]? = some (key, content)) :
    Ensures lib cfg i (Writing i keyBackup n) (S3KeyBackupStorage.putS3Object props key content)
      (fun _ => Writing i keyBackup (n + 1)) (fun _ _ => True) := by
  refine S3KeyBackupStorage.putS3Object_of props (stable_writing keyBackup _) ?_
    (fun event => recordEvent_spec (.const True) event)
  apply Spec.perform (stable_writing keyBackup n) (stable_done (stable_writing keyBackup _))
  intro w choice r w' hw hwriting hexec
  obtain ⟨hrespects, hnext⟩ := putArtifact_respects hw.tracks hpart hwriting
  rcases putObject_cases hexec with ⟨rfl, -, rfl⟩ | ⟨⟨e, rfl⟩, hw'⟩
  · have hdone : World.Attempt (.put key content false) w _ := .inr (.inl rfl)
    exact ⟨guarantee_of_attempt hw hdone (hrespects _ hdone), hnext⟩
  · exact ⟨guarantee_of_attempt hw hw' (hrespects w' hw'), trivial⟩

/-- A `putKeyBackup` that returns has completed the backup it was given. -/
theorem putKeyBackup_spec (props : KeyBackupBucketProperties) (keyBackup : KeyBackup) :
    Ensures lib cfg i (Writing i keyBackup 0) (S3KeyBackupStorage.putKeyBackup props keyBackup)
      (fun _ => Writing i keyBackup 4) (fun _ _ => True) :=
  S3KeyBackupStorage.putKeyBackup_of props keyBackup (fun _ _ _ => putS3Object_spec props)

end PublicEndorsement.Mbs
