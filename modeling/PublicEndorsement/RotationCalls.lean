import PublicEndorsement.RotationProtocol
import PublicEndorsement.ProviderCode

/-!
# Single calls under rotation

What an instance still knows after a call of its own, and triples for the calls
that do not write: the ports, the marks left in the history, and the reads.
-/

namespace PublicEndorsement.Mbs

open Interaction OrderedPublication Machine RotatingWorld

variable {ι : Type}

/-- The call changed nothing, or left a mark that neither the publication protocol
nor the list of backups sees. -/
def World.Passes (w w' : World ι) : Prop :=
  w' = w ∨ ∃ e : Event ι, e.step? = none ∧ e.remarkable = false ∧ w' = w.record e

theorem unremarkable_passes {w w' : World ι} (h : w.Passes w') : World.Unremarkable w w' := by
  rcases h with rfl | ⟨e, -, he, rfl⟩
  · exact unremarkable_refl w'
  · exact unremarkable_record w he

variable [DecidableEq ι] {i : ι}

theorem rely_passes {w w' : World ι} (h : w.Passes w') (j : ι) : World.Rely j w w' := by
  rcases h with rfl | ⟨e, he, -, rfl⟩
  · exact World.Rely.refl j w'
  · exact World.Rely.record_silent j e he

theorem tracks_passes {w w' : World ι} (h : w.Passes w') (hw : ∃ p, w.Tracks p) :
    ∃ p, w'.Tracks p := by
  rcases h with rfl | ⟨e, he, -, rfl⟩
  · exact hw
  · obtain ⟨p, hp⟩ := hw
    exact ⟨p, hp.record_silent e he⟩

namespace Rotation

noncomputable abbrev genuine (lib : Primitives) (crypto : Cryptography) (cfg : ι → ProviderConfig) :
    Machine ι Call Reply (RotatingWorld ι) Choice Outside :=
  (rotating lib cfg).restrict (fun _ => Genuine lib crypto)

variable {lib : Primitives} {crypto : Cryptography} {cfg : ι → ProviderConfig}
variable {α : Type} {s s' : RotatingWorld ι} {P : RotatingWorld ι → Prop}

abbrev Ensures (lib : Primitives) (crypto : Cryptography) (cfg : ι → ProviderConfig) (i : ι)
    (P : RotatingWorld ι → Prop) (x : Code α) (Q : α → RotatingWorld ι → Prop)
    (E : Failure → RotatingWorld ι → Prop) : Prop :=
  (genuine lib crypto cfg).Spec (rotationProtocol lib crypto) i P x Q E

/-- Knowledge that survives the others, rotations included, and the instance's own
calls as long as they pass. -/
def Lasting (lib : Primitives) (crypto : Cryptography) (i : ι) (P : RotatingWorld ι → Prop) :
    Prop :=
  ∀ s s' : RotatingWorld ι, s.Inv lib crypto → s'.Inv lib crypto → Drift i s s' → P s → P s'

theorem Lasting.stable (h : Lasting lib crypto i P) : (rotationProtocol lib crypto).Stable i P :=
  fun s s' hs hs' hrely => h s s' hs hs' hrely.toDrift

theorem lasting_true : Lasting lib crypto i (fun _ => True) := fun _ _ _ _ _ _ => trivial

theorem exec_genuine {o : Call} {choice : Choice} {r : Reply o}
    (h : (genuine lib crypto cfg).exec i o choice s = some (r, s')) :
    Genuine lib crypto o choice s ∧
      ∃ w, s.world.exec lib i o choice = some (r, w) ∧ s' = s.afterCall i o r w := by
  obtain ⟨hgenuine, hexec⟩ := exec_restrict h
  obtain ⟨⟨r', w⟩, hanswer, heq⟩ := Option.map_eq_some_iff.mp hexec
  obtain ⟨rfl, rfl⟩ := Prod.mk.inj heq
  exact ⟨hgenuine, w, hanswer, rfl⟩

theorem guarantee_passes (hs : s.Inv lib crypto) {o : Call} (r : Reply o) {w : World ι}
    (h : s.world.Passes w) :
    (rotationProtocol lib crypto).Guarantee i s (s.afterCall i o r w) := by
  have htracks := tracks_passes h hs.tracks
  exact guarantee_afterCall (hs.unremarkable rfl htracks (unremarkable_passes h))
    (rely_passes h i).grows ⟨htracks, fun j _ => rely_passes h j⟩

/-- A passing call keeps lasting knowledge. -/
theorem Lasting.passes (hP : Lasting lib crypto i P) (hs : s.Inv lib crypto) {o : Call}
    {r : Reply o} {w : World ι} (hholds : holdsAfter (s.holdsLock i) o r = s.holdsLock i)
    (h : s.world.Passes w) (hp : P s) :
    (rotationProtocol lib crypto).Guarantee i s (s.afterCall i o r w) ∧
      P (s.afterCall i o r w) := by
  have hguar := guarantee_passes (i := i) hs r h
  exact ⟨hguar, hP s _ hs hguar.1 (drift_afterCall hholds (rely_passes h i)) hp⟩

/-- The ports other than S3. -/
theorem answers_port {o : Call} {F : Reply o → Prop} (hP : Lasting lib crypto i P)
    (hholds : ∀ held r, holdsAfter held o r = held)
    (h : ∀ (s : RotatingWorld ι) choice r w, Genuine lib crypto o choice s →
      s.world.exec lib i o choice = some (r, w) → w = s.world ∧ F r) :
    Answers (genuine lib crypto cfg) (rotationProtocol lib crypto) i P o F := by
  intro s choice r s' hs hp hexec
  obtain ⟨hgenuine, w, hanswer, rfl⟩ := exec_genuine hexec
  obtain ⟨hw, hr⟩ := h s choice r w hgenuine hanswer
  obtain ⟨hguar, hp'⟩ := hP.passes hs (hholds _ r) (.inl hw) hp
  exact ⟨hguar, hp', hr⟩

/-- Calls that only leave a mark in the history. -/
theorem mark_spec {E : Failure → RotatingWorld ι → Prop} {o : Call}
    (hP : Lasting lib crypto i P) (hholds : ∀ held r, holdsAfter held o r = held)
    (h : ∀ (w : World ι) choice r w', w.exec lib i o choice = some (r, w') → w.Passes w') :
    Ensures lib crypto cfg i P (perform o) (fun _ => P) E := by
  apply Spec.perform hP.stable (fun _ => hP.stable)
  intro s choice r s' hs hp hexec
  obtain ⟨-, w, hanswer, rfl⟩ := exec_genuine hexec
  exact hP.passes hs (hholds _ r) (h _ _ _ _ hanswer) hp

theorem recordEvent_spec {E : Failure → RotatingWorld ι → Prop} (hP : Lasting lib crypto i P)
    (event : MbsEvent) : Ensures lib crypto cfg i P (recordEvent event) (fun _ => P) E := by
  refine mark_spec hP (fun _ _ => rfl) fun w choice r w' h => ?_
  exact .inr ⟨.recorded i event, rfl, rfl, (Prod.mk.inj (Option.some.inj h)).2.symm⟩

theorem sleep_spec (millis : ℕ) :
    Runs (genuine lib crypto cfg) (rotationProtocol lib crypto) i (perform (.sleep millis)) :=
  mark_spec lasting_true (fun _ _ => rfl) fun _ _ _ _ h => .inl (answer_cases h).1

/-- The beginning of a read. The load is told from the checks before it. -/
theorem mark_site_spec {E : Failure → RotatingWorld ι → Prop} (hP : Lasting lib crypto i P)
    (site : Site) : Ensures lib crypto cfg i P (perform (.mark site))
      (fun _ s => P s ∧ s.loading i = decide (site = .load)) E := by
  apply Spec.perform hP.stable fun _ s s' hs hs' hrely h =>
    ⟨hP.stable s s' hs hs' hrely h.1, hrely.loading.trans h.2⟩
  intro s choice r s' hs hp hexec
  obtain ⟨-, w, hanswer, rfl⟩ := exec_genuine hexec
  obtain ⟨hguar, hp'⟩ := hP.passes hs (o := .mark site) (r := r) rfl
    (.inl (Prod.mk.inj (Option.some.inj hanswer)).2.symm) hp
  exact ⟨hguar, hp', by simp [RotatingWorld.afterCall, loadsAfter]⟩

/-- A recorded `getKeyBackup` ensures what the read itself ensures. -/
theorem observed_spec {Q : KeyBackup → RotatingWorld ι → Prop}
    {E : Failure → RotatingWorld ι → Prop} (site : Site) {x : Code KeyBackup}
    (hP : Lasting lib crypto i P) (hQ : ∀ keyBackup, Lasting lib crypto i (Q keyBackup))
    (hE : ∀ e, Lasting lib crypto i (E e))
    (hx : Ensures lib crypto cfg i (fun s => P s ∧ s.loading i = decide (site = .load)) x Q E) :
    Ensures lib crypto cfg i P (observed site x) Q E := by
  have hafter : ∀ r, Lasting lib crypto i (onOutcome Q E r) := by
    intro r
    cases r with
    | ok keyBackup => exact hQ keyBackup
    | error e => exact hE e
  refine KmsMeasurementBoundCertificateProvider.observed_of site x _
    (fun _ r => onOutcome Q E r) (mark_site_spec hP site) (fun _ => hx) (fun since r => ?_)
    (fun _ r => (hafter r).stable) (fun _ _ _ h => h) (fun _ _ _ h => h)
  refine mark_spec (hafter r) (fun _ _ => rfl) fun w choice u w' h => ?_
  exact .inr ⟨.noted i (.getKeyBackup site since r), rfl, rfl,
    (Prod.mk.inj (Option.some.inj h)).2.symm⟩

/-- One GET, which moves the mark of the last read. -/
theorem getObject_spec {Q : Option Bytes → RotatingWorld ι → Prop}
    {E : Failure → RotatingWorld ι → Prop} (key : ObjectKey)
    (hP : (rotationProtocol lib crypto).Stable i P)
    (hQ : ∀ v, (rotationProtocol lib crypto).Stable i (Q v))
    (h : ∀ s r, s.Inv lib crypto → P s →
      Q (s.world.objects key) (s.afterCall i (.getObject key) r s.world)) :
    Ensures lib crypto cfg i P (perform (.getObject key)) (Got Q (fun _ => True)) E := by
  apply Spec.perform hP (stable_got hQ (.const True))
  intro s choice r s' hs hp hexec
  obtain ⟨-, w, hanswer, rfl⟩ := exec_genuine hexec
  change s.world.getObject i key choice = some (r, w) at hanswer
  cases choice with
  | ok =>
    obtain ⟨hr, rfl⟩ := Prod.mk.inj (Option.some.inj hanswer)
    refine ⟨guarantee_passes hs r (.inl rfl), ?_⟩
    have hval := h s r hs hp
    cases hobj : s.world.objects key with
    | none =>
      rw [hobj] at hr hval
      cases hr
      exact hval
    | some bytes =>
      rw [hobj] at hr hval
      cases hr
      exact hval
  | s3Failure e tookEffect =>
    cases e <;>
      simp only [World.getObject, Option.some.injEq, Prod.mk.injEq, reduceCtorEq] at hanswer
    all_goals
      obtain ⟨rfl, rfl⟩ := hanswer
      exact ⟨guarantee_passes hs _ (.inr ⟨_, rfl, rfl, rfl⟩), trivial⟩
  | _ => cases hanswer

theorem tryGetS3Object_spec {Q : Option Bytes → RotatingWorld ι → Prop}
    {E : Failure → RotatingWorld ι → Prop} (props : KeyBackupBucketProperties) (key : ObjectKey)
    (hP : (rotationProtocol lib crypto).Stable i P)
    (hQ : ∀ v, (rotationProtocol lib crypto).Stable i (Q v))
    (h : ∀ s r, s.Inv lib crypto → P s →
      Q (s.world.objects key) (s.afterCall i (.getObject key) r s.world))
    (hE : ∀ message s, E (.keyBackupAccessFailed message) s) :
    Ensures lib crypto cfg i P (S3KeyBackupStorage.tryGetS3Object props key) Q E :=
  S3KeyBackupStorage.tryGetS3Object_of props key hQ (.const True) (getObject_spec key hP hQ h)
    (fun event => recordEvent_spec lasting_true event) (fun message s _ => hE message s)

end Rotation
end PublicEndorsement.Mbs
