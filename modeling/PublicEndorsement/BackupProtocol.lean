import PublicEndorsement.SharedBuckets
import PublicEndorsement.OrderedPublication
import PublicEndorsement.FallibleTriple

/-!
# The backup buckets as an ordered publication

Each event of the shared history is either a step of the publication protocol or
invisible to it. The invariant of the shared state says that the history is an
allowed run of that protocol, that the objects hold what its phase says, and that
requests still in flight are ones the phase allows.
-/

namespace PublicEndorsement.Mbs

open Interaction OrderedPublication

/-- The artifacts of a backup in the order `putKeyBackup` writes them. -/
def KeyBackup.parts (keyBackup : KeyBackup) : List (ObjectKey × Bytes) :=
  [(.aesEncryptedPrivateKey, keyBackup.aeadEncryptedPrivateKey),
    (.kmsEncryptedDataKey, keyBackup.kmsEncryptedDataKey),
    (.attestationDoc, keyBackup.attestationDocBytes),
    (.cert, keyBackup.certBytes)]

variable {ι : Type}

def Event.step? : Event ι → Option (Step ι KeyBackup ObjectKey Bytes)
  | .created i _ => some (.claim i)
  | .wrote .lock _ => none
  | .wrote key content => some (.write key content)
  | .deleted .lock => some .release
  | .deleted key => some (.remove key)
  | .noted i (.putKeyBackup keyBackup) => some (.start i keyBackup)
  | .noted _ (.getKeyBackup _ _ _) => none
  | .readFailed _ _ => none
  | .installed _ _ => none
  | .recorded _ _ => none

def stored (p : Phase ι KeyBackup) (key : ObjectKey) : Option Bytes :=
  (p.written KeyBackup.parts).lookup key

def Exclusive : Phase ι KeyBackup → Prop
  | .unclaimed => False
  | .claimed _ => True
  | .publishing _ _ _ => True
  | .published _ _ => False

def Effect.writesArtifact : Effect → Bool
  | .put .lock _ _ => false
  | .put _ _ _ => true
  | .delete _ => false

/-- The requests that may take effect in a phase without leaving the protocol. -/
def Admissible (p : Phase ι KeyBackup) : Effect → Prop
  | .put .lock _ ifNoneMatch => ifNoneMatch = true
  | .put key content ifNoneMatch => ifNoneMatch = false ∧
    ∃ i keyBackup n, p = .publishing i keyBackup n ∧ keyBackup.parts[n]? = some (key, content)
  | .delete key => key = .lock ∧ ∃ i keyBackup, p = .published i keyBackup

theorem parts_keys (keyBackup : KeyBackup) : keyBackup.parts.map Prod.fst =
    [.aesEncryptedPrivateKey, .kmsEncryptedDataKey, .attestationDoc, .cert] := rfl

theorem parts_keys_nodup (keyBackup : KeyBackup) : (keyBackup.parts.map Prod.fst).Nodup := by
  rw [parts_keys]
  decide

theorem parts_key_ne_lock {keyBackup : KeyBackup} {n : ℕ} {key : ObjectKey} {content : Bytes}
    (h : keyBackup.parts[n]? = some (key, content)) : key ≠ .lock := by
  have hmem : key ∈ keyBackup.parts.map Prod.fst :=
    List.mem_map_of_mem (f := Prod.fst) (List.mem_of_getElem? h)
  rw [parts_keys] at hmem
  rintro rfl
  exact absurd hmem (by decide)

/-- Before publication starts only requests for the lock are admissible. -/
theorem Admissible.lock_of_not_started {p : Phase ι KeyBackup} {eff : Effect}
    (h : Admissible p eff) (hp : p.started = []) : ∃ content, eff = .put .lock content true := by
  cases eff with
  | put key content ifNoneMatch =>
    cases key with
    | lock => exact ⟨content, congrArg (Effect.put .lock content) h⟩
    | _ =>
      obtain ⟨_, i, kb, n, rfl, _⟩ := h
      cases hp
  | delete key =>
    obtain ⟨_, i, kb, rfl⟩ := h
    cases hp

def World.Quiet (w : World ι) : Prop := ∀ eff ∈ w.inFlight, eff.writesArtifact = false

/-- What a `getKeyBackup` of instance `i` may answer that began when the history had
length `since` and ends with the given history. -/
def OutcomeOk (history : List (Event ι)) (i : ι) (site : Site) (since : ℕ) :
    Except Failure KeyBackup → Prop
  | .ok keyBackup => ∃ j, .noted j (.putKeyBackup keyBackup) ∈ history
  | .error (.keyBackupNotFound _) =>
    ∀ key content, key ≠ .lock → .wrote key content ∉ history.take since
  | .error (.keyBackupAccessFailed _) => ∃ key, .readFailed i key ∈ history.drop since
  | .error (.keyBackupPartiallyWritten _) => site ≠ .recheck ∧
    (∃ key content, key ≠ .lock ∧ .wrote key content ∈ history) ∧
    ∀ content, .wrote .cert content ∉ history.take since
  | .error _ => False

structure Truthful (lib : Primitives) (history : List (Event ι)) : Prop where
  gets : ∀ before i site since outcome after,
    history = before ++ .noted i (.getKeyBackup site since outcome) :: after →
    since ≤ before.length ∧ OutcomeOk before i site since outcome
  installs : ∀ i bundle, .installed i bundle ∈ history →
    ∃ j keyBackup, .noted j (.putKeyBackup keyBackup) ∈ history ∧
      KmsMeasurementBoundCertificateProvider.decode lib keyBackup = some bundle

theorem OutcomeOk.grows {history history' : List (Event ι)} {i : ι} {site : Site} {since : ℕ}
    {outcome : Except Failure KeyBackup} (h : OutcomeOk history i site since outcome)
    (hsince : since ≤ history.length) (hgrows : history <+: history') :
    OutcomeOk history' i site since outcome := by
  obtain ⟨rest, rfl⟩ := hgrows
  cases outcome with
  | ok keyBackup =>
    obtain ⟨j, hj⟩ := h
    exact ⟨j, List.mem_append_left _ hj⟩
  | error e =>
    cases e with
    | keyBackupNotFound message =>
      intro key content hkey
      rw [List.take_append_of_le_length hsince]
      exact h key content hkey
    | keyBackupAccessFailed message =>
      obtain ⟨key, hk⟩ := h
      refine ⟨key, ?_⟩
      rw [List.drop_append_of_le_length hsince]
      exact List.mem_append_left _ hk
    | keyBackupPartiallyWritten message =>
      obtain ⟨hsite, ⟨key, content, hkey, hwrote⟩, hcert⟩ := h
      refine ⟨hsite, ⟨key, content, hkey, List.mem_append_left _ hwrote⟩, ?_⟩
      rw [List.take_append_of_le_length hsince]
      exact hcert
    | _ => exact h

/-- The history stays truthful when the new event is neither a read nor an install
or is a truthful one. -/
theorem Truthful.append {lib : Primitives} {history : List (Event ι)} (h : Truthful lib history)
    (e : Event ι)
    (hget : ∀ i site since outcome, e = .noted i (.getKeyBackup site since outcome) →
      since ≤ history.length ∧ OutcomeOk history i site since outcome)
    (hinstall : ∀ i bundle, e = .installed i bundle →
      ∃ j keyBackup, .noted j (.putKeyBackup keyBackup) ∈ history ∧
        KmsMeasurementBoundCertificateProvider.decode lib keyBackup = some bundle) :
    Truthful lib (history ++ [e]) := by
  constructor
  · intro before i site since outcome after heq
    -- the read is either the new last event or one of the old ones
    rcases List.eq_nil_or_concat after with rfl | ⟨after, last, rfl⟩
    · obtain ⟨rfl, he⟩ := List.append_inj' heq rfl
      exact hget i site since outcome (List.singleton_injective he)
    · rw [List.concat_eq_append, ← List.cons_append, ← List.append_assoc] at heq
      obtain ⟨hold, -⟩ := List.append_inj' heq rfl
      exact h.gets before i site since outcome after hold
  · intro i bundle hmem
    obtain ⟨j, keyBackup, hj, hdec⟩ :
        ∃ j keyBackup, .noted j (.putKeyBackup keyBackup) ∈ history ∧
          KmsMeasurementBoundCertificateProvider.decode lib keyBackup = some bundle := by
      rcases List.mem_append.mp hmem with hm | hm
      · exact h.installs i bundle hm
      · exact hinstall i bundle (List.mem_singleton.mp hm).symm
    exact ⟨j, keyBackup, List.mem_append_left _ hj, hdec⟩

/-- The protocol's log of written parts lists the artifact writes of the history. -/
theorem mem_written_iff (history : List (Event ι)) {key : ObjectKey} {content : Bytes}
    (hkey : key ≠ .lock) :
    (key, content) ∈ (history.filterMap Event.step?).filterMap Step.written? ↔
      .wrote key content ∈ history := by
  rw [List.filterMap_filterMap, List.mem_filterMap]
  constructor
  · rintro ⟨e, he, hstep⟩
    cases e with
    | wrote k c => cases k <;> simp_all [Event.step?, Step.written?]
    | deleted k => cases k <;> simp [Event.step?, Step.written?] at hstep
    | noted k n => cases n <;> simp [Event.step?, Step.written?] at hstep
    | _ => simp [Event.step?, Step.written?] at hstep
  · intro hmem
    refine ⟨_, hmem, ?_⟩
    cases key <;> first | rfl | exact absurd rfl hkey

/-- The protocol's log of started publications lists the calls of `putKeyBackup`. -/
theorem mem_started_iff (history : List (Event ι)) {i : ι} {keyBackup : KeyBackup} :
    (i, keyBackup) ∈ (history.filterMap Event.step?).filterMap Step.started? ↔
      .noted i (.putKeyBackup keyBackup) ∈ history := by
  rw [List.filterMap_filterMap, List.mem_filterMap]
  constructor
  · rintro ⟨e, he, hstep⟩
    cases e with
    | wrote k c => cases k <;> simp [Event.step?, Step.started?] at hstep
    | deleted k => cases k <;> simp [Event.step?, Step.started?] at hstep
    | noted k n => cases n <;> simp_all [Event.step?, Step.started?]
    | _ => simp [Event.step?, Step.started?] at hstep
  · intro hmem
    exact ⟨_, hmem, rfl⟩

variable [DecidableEq ι]

/-- The phase a history has reached, if every step in it was allowed. -/
def phaseOf (history : List (Event ι)) : Option (Phase ι KeyBackup) :=
  OrderedPublication.phase KeyBackup.parts (history.filterMap Event.step?)

abbrev World.phase (w : World ι) : Option (Phase ι KeyBackup) := phaseOf w.history

/-- The shared state follows the protocol and is in phase `p`. -/
structure World.Tracks (w : World ι) (p : Phase ι KeyBackup) : Prop where
  phase_eq : w.phase = some p
  stored_eq : ∀ key, key ≠ .lock → w.objects key = stored p key
  locked : Exclusive p → w.objects .lock ≠ none
  admissible : ∀ eff ∈ w.inFlight, Admissible p eff
  single : (w.inFlight.filter Effect.writesArtifact).length ≤ 1

structure World.Inv (lib : Primitives) (w : World ι) : Prop where
  tracks : ∃ p, w.Tracks p
  truthful : Truthful lib w.history
  current : ∀ i bundle, w.currentCertificate i = some bundle → .installed i bundle ∈ w.history

/-- What an instance expects of the others: history only grows, its claim is its
own, and so is its publication while none of its writes is in flight. -/
structure World.Rely (i : ι) (w w' : World ι) : Prop where
  grows : w.history <+: w'.history
  claimed : w.phase = some (.claimed i) → w'.phase = some (.claimed i)
  publishing : ∀ keyBackup n, w.phase = some (.publishing i keyBackup n) → w.Quiet →
    w'.phase = some (.publishing i keyBackup n) ∧ w'.Quiet

theorem World.Rely.refl (i : ι) (w : World ι) : World.Rely i w w :=
  ⟨List.prefix_rfl, id, fun _ _ h hq => ⟨h, hq⟩⟩

theorem World.Rely.trans {i : ι} {w w' w'' : World ι} (h : World.Rely i w w')
    (h' : World.Rely i w' w'') : World.Rely i w w'' := by
  refine ⟨h.grows.trans h'.grows, fun hc => h'.claimed (h.claimed hc), ?_⟩
  intro keyBackup n hp hq
  obtain ⟨hp', hq'⟩ := h.publishing keyBackup n hp hq
  exact h'.publishing keyBackup n hp' hq'

def backupProtocol (lib : Primitives) : Protocol ι (World ι) where
  inv := World.Inv lib
  rely := World.Rely
  rely_refl := World.Rely.refl
  rely_trans := fun _ _ _ _ h h' => h.trans h'

theorem phaseOf_append (history : List (Event ι)) (e : Event ι) :
    phaseOf (history ++ [e]) = (phaseOf history).bind (fun p =>
      match e.step? with
      | some s => p.next KeyBackup.parts s
      | none => some p) := by
  unfold phaseOf
  rw [List.filterMap_append]
  cases hs : e.step? with
  | none => simp [hs]
  | some s => simp [hs, phase_snoc]

theorem phaseOf_append_silent (history : List (Event ι)) (e : Event ι) (he : e.step? = none) :
    phaseOf (history ++ [e]) = phaseOf history := by
  rw [phaseOf_append, he]
  simp

/-- A finished publication stays finished. -/
theorem published_of_grows {w w' : World ι} (hw' : ∃ p, w'.Tracks p)
    (hgrows : w.history <+: w'.history) {i : ι} {keyBackup : KeyBackup}
    (h : w.phase = some (.published i keyBackup)) : w'.phase = some (.published i keyBackup) := by
  obtain ⟨p, hp⟩ := hw'
  have hpre := hgrows.filterMap Event.step?
  rw [hp.phase_eq, published_of_prefix hpre h hp.phase_eq]

end PublicEndorsement.Mbs
