import PublicEndorsement.GuardedSystem
import PublicEndorsement.Utf16Text

/-!
# The counters of endorsements

`SystemMetrics` counts the endorsements of each publisher under a label. The number of labels is
limited: a publisher is approved before it is counted, and only so many are. All calls of the
server share these counters; each of its methods is cut here into the steps that are atomic, and
the steps of different calls may come in any order.
-/

namespace PublicEndorsement.Pes

inductive MetricsCall where
  | approvePublisher (publisherId : Option Utf16)
  | incrementEndorsementCounter (publisherId : Option Utf16)
  deriving DecidableEq

/-- How far a call has come in the method it is in: not entered, after the look at the approved
publishers, or after the counter was registered. -/
inductive MetricsPlace where
  | outside
  | checked
  | registered
  deriving DecidableEq

/-- The methods that a call still has to run, and where it is in the first one. -/
structure MetricsThread where
  calls : List MetricsCall
  place : MetricsPlace := .outside

/-- A counter that is not registered is `none`; `warnings` are the publishers of which it was
logged that they are rejected. -/
structure SystemMetrics (ι : Type) where
  approvedPublishers : List Utf16 := []
  endorsementCounters : Utf16 → Option ℕ := fun _ => none
  warnings : List Utf16 := []
  thread : ι → MetricsThread

namespace SystemMetrics

def maxApprovedPublishers : ℕ := 10

variable {ι : Type} [DecidableEq ι]

def goTo (c : ι) (calls : List MetricsCall) (place : MetricsPlace) (m : SystemMetrics ι) :
    SystemMetrics ι :=
  { m with thread := Function.update m.thread c ⟨calls, place⟩ }

/-- The `synchronized` block of `approvePublisher`. -/
def approve (publisherId : Utf16) (m : SystemMetrics ι) : SystemMetrics ι :=
  if m.approvedPublishers.length < maxApprovedPublishers then
    { m with approvedPublishers := m.approvedPublishers.insert publisherId }
  else { m with warnings := m.warnings ++ [publisherId] }

def register (publisherId : Utf16) (m : SystemMetrics ι) : SystemMetrics ι :=
  { m with
    endorsementCounters := Function.update m.endorsementCounters publisherId
      (some ((m.endorsementCounters publisherId).getD 0)) }

def increment (publisherId : Utf16) (m : SystemMetrics ι) : SystemMetrics ι :=
  { m with
    endorsementCounters := Function.update m.endorsementCounters publisherId
      ((m.endorsementCounters publisherId).map (· + 1)) }

section Counters

variable {m : SystemMetrics ι} {p q : Utf16}

omit [DecidableEq ι]

theorem register_self : (m.register p).endorsementCounters p =
    some ((m.endorsementCounters p).getD 0) := Function.update_self ..

theorem register_of_ne (h : q ≠ p) :
    (m.register p).endorsementCounters q = m.endorsementCounters q :=
  Function.update_of_ne h ..

theorem increment_self : (m.increment p).endorsementCounters p =
    (m.endorsementCounters p).map (· + 1) := Function.update_self ..

theorem increment_of_ne (h : q ≠ p) :
    (m.increment p).endorsementCounters q = m.endorsementCounters q :=
  Function.update_of_ne h ..

end Counters

def approvePublisher (c : ι) (publisherId : Option Utf16) (rest : List MetricsCall)
    (m : SystemMetrics ι) : SystemMetrics ι :=
  match publisherId, (m.thread c).place with
  | none, _ => m.goTo c rest .outside
  | some p, .outside =>
    if p ∈ m.approvedPublishers then m.goTo c rest .outside
    else m.goTo c (.approvePublisher (some p) :: rest) .checked
  | some p, _ => (m.approve p).goTo c rest .outside

def incrementEndorsementCounter (c : ι) (publisherId : Option Utf16) (rest : List MetricsCall)
    (m : SystemMetrics ι) : SystemMetrics ι :=
  match publisherId, (m.thread c).place with
  | none, _ => m.goTo c rest .outside
  | some p, .outside =>
    if p ∈ m.approvedPublishers then
      m.goTo c (.incrementEndorsementCounter (some p) :: rest) .checked
    else m.goTo c rest .outside
  | some p, .checked =>
    (m.register p).goTo c (.incrementEndorsementCounter (some p) :: rest) .registered
  | some p, .registered => (m.increment p).goTo c rest .outside

def step (m : SystemMetrics ι) (c : ι) : Option (SystemMetrics ι) :=
  match (m.thread c).calls with
  | [] => none
  | .approvePublisher publisherId :: rest => some (m.approvePublisher c publisherId rest)
  | .incrementEndorsementCounter publisherId :: rest =>
    some (m.incrementEndorsementCounter c publisherId rest)

def system : GuardedSystem (SystemMetrics ι) ι where
  enabled m c := !(m.thread c).calls.isEmpty
  step := step

def create (program : ι → List MetricsCall) : SystemMetrics ι where
  thread c := { calls := program c }

/-! ## Approving and counting -/

/-- A call approves a publisher, and may count an endorsement of the same publisher then. -/
def Counts (publisherId : Utf16) (calls : List MetricsCall) : Prop :=
  calls = [.approvePublisher (some publisherId)] ∨
    calls = [.approvePublisher (some publisherId), .incrementEndorsementCounter (some publisherId)]

variable [Fintype ι] {program : ι → List MetricsCall} {m : SystemMetrics ι} {c : ι}
  {p : Utf16}

def counted (program : ι → List MetricsCall) (m : SystemMetrics ι) (p : Utf16) : Finset ι :=
  {c | .incrementEndorsementCounter (some p) ∈ program c ∧ (m.thread c).calls = []}

structure OnTrack (program : List MetricsCall) (approved : List Utf16)
    (counters : Utf16 → Option ℕ) (t : MetricsThread) : Prop where
  follows : t.calls <:+ program
  settled : ∀ p, Counts p program → t.calls ≠ program →
    p ∈ approved ∨ approved.length = maxApprovedPublishers
  counting : ∀ p, t.calls = [.incrementEndorsementCounter (some p)] → t.place ≠ .outside →
    p ∈ approved
  registered : ∀ p, t.calls = [.incrementEndorsementCounter (some p)] →
    t.place = .registered → counters p ≠ none

/-- The counters are exact for every approved publisher, and there are no others. -/
structure Sound (program : ι → List MetricsCall) (m : SystemMetrics ι) : Prop where
  limited : m.approvedPublishers.length ≤ maxApprovedPublishers
  sourced : ∀ p ∈ m.approvedPublishers, ∃ c, Counts p (program c)
  labels : ∀ p, m.endorsementCounters p ≠ none → p ∈ m.approvedPublishers
  threads : ∀ c, OnTrack (program c) m.approvedPublishers m.endorsementCounters (m.thread c)
  exact : ∀ p ∈ m.approvedPublishers,
    (m.endorsementCounters p).getD 0 = (m.counted program p).card

section Threads

omit [DecidableEq ι] [Fintype ι]

variable {calls : List MetricsCall} {approved approved' : List Utf16}
  {counters counters' : Utf16 → Option ℕ} {t : MetricsThread}

theorem OnTrack.mono (h : OnTrack calls approved counters t)
    (happroved : ∀ p ∈ approved, p ∈ approved')
    (hfull : approved.length = maxApprovedPublishers → approved'.length = maxApprovedPublishers)
    (hcounters : ∀ p, counters p ≠ none → counters' p ≠ none) :
    OnTrack calls approved' counters' t where
  follows := h.follows
  settled p hcounts hne := (h.settled p hcounts hne).imp (happroved p) hfull
  counting p hcalls hplace := happroved p (h.counting p hcalls hplace)
  registered p hcalls hplace := hcounters p (h.registered p hcalls hplace)

theorem Counts.unique {q : Utf16} (h : Counts p calls) (h' : Counts q calls) : p = q := by
  rcases h with rfl | rfl <;> rcases h' with h' | h' <;> simp_all

theorem counts_of_mem (hshape : calls = [] ∨ ∃ p, Counts p calls)
    (hmem : .incrementEndorsementCounter (some p) ∈ calls) : Counts p calls := by
  rcases hshape with hnil | ⟨q, hone | htwo⟩
  · rw [hnil] at hmem
    cases hmem
  · rw [hone] at hmem
    simp at hmem
  · rw [htwo] at hmem
    obtain rfl : p = q := by simpa using hmem
    exact .inr htwo

/-- A call is outside of the methods, after it has approved its publisher. -/
theorem OnTrack.outside {rest : List MetricsCall} (hsuffix : rest <:+ calls)
    (hcounts : Counts p calls)
    (hsettled : p ∈ approved ∨ approved.length = maxApprovedPublishers) :
    OnTrack calls approved counters ⟨rest, .outside⟩ where
  follows := hsuffix
  settled _ hcounts' _ := hcounts'.unique hcounts ▸ hsettled
  counting _ _ hplace := absurd rfl hplace
  registered := by rintro _ - ⟨⟩

/-- Where a call stands that takes its next step: it is about to approve its publisher, or to count
an endorsement. -/
theorem OnTrack.cases (h : OnTrack calls approved counters t)
    (hshape : calls = [] ∨ ∃ p, Counts p calls) (hne : t.calls ≠ []) :
    ∃ p, Counts p calls ∧
      ((∃ rest, calls = .approvePublisher (some p) :: rest ∧
          t.calls = .approvePublisher (some p) :: rest) ∨
        calls = [.approvePublisher (some p), .incrementEndorsementCounter (some p)] ∧
          t.calls = [.incrementEndorsementCounter (some p)]) := by
  have hsuffix := h.follows
  rcases hshape with rfl | ⟨p, rfl | rfl⟩
  · exact absurd (List.suffix_nil.mp hsuffix) hne
  · rw [List.suffix_cons_iff, List.suffix_nil] at hsuffix
    exact ⟨p, .inl rfl, .inl ⟨[], rfl, hsuffix.resolve_right hne⟩⟩
  · rw [List.suffix_cons_iff, List.suffix_cons_iff, List.suffix_nil] at hsuffix
    refine ⟨p, .inr rfl, ?_⟩
    rcases hsuffix with hall | hlast | hnil
    · exact .inl ⟨_, rfl, hall⟩
    · exact .inr ⟨rfl, hlast⟩
    · exact absurd hnil hne

end Threads

theorem counted_eq_of_not_over {m' : SystemMetrics ι} {t : MetricsThread}
    (hthread : m'.thread = Function.update m.thread c t) (hbefore : (m.thread c).calls ≠ [])
    (hafter : .incrementEndorsementCounter (some p) ∈ program c → t.calls ≠ []) :
    m'.counted program p = m.counted program p := by
  ext c'
  simp only [counted, Finset.mem_filter, Finset.mem_univ, true_and, hthread]
  by_cases hc : c' = c
  · subst hc
    rw [Function.update_self]
    exact and_congr_right fun hmem => iff_of_false (hafter hmem) hbefore
  · rw [Function.update_of_ne hc]

theorem counted_eq_insert {m' : SystemMetrics ι} {t : MetricsThread}
    (hthread : m'.thread = Function.update m.thread c t) (hbefore : (m.thread c).calls ≠ [])
    (hafter : t.calls = []) (hmem : .incrementEndorsementCounter (some p) ∈ program c) :
    m'.counted program p = insert c (m.counted program p) ∧ c ∉ m.counted program p := by
  constructor
  · ext c'
    simp only [counted, Finset.mem_filter, Finset.mem_univ, true_and, hthread, Finset.mem_insert]
    by_cases hc : c' = c
    · subst hc
      simp [hmem, hafter]
    · simp [hc]
  · simp [counted, hbefore]

/-- A call moves on, and does not get past the counter of an approved publisher uncounted. -/
theorem Sound.goTo (h : m.Sound program) (hne : (m.thread c).calls ≠ [])
    {calls : List MetricsCall} {place : MetricsPlace}
    (htrack : OnTrack (program c) m.approvedPublishers m.endorsementCounters ⟨calls, place⟩)
    (hover : ∀ p ∈ m.approvedPublishers, .incrementEndorsementCounter (some p) ∈ program c →
      calls ≠ []) :
    (m.goTo c calls place).Sound program where
  limited := h.limited
  sourced := h.sourced
  labels := h.labels
  threads := by
    rw [SystemMetrics.goTo, Function.forall_update_iff m.thread
      (fun c t => OnTrack (program c) m.approvedPublishers m.endorsementCounters t)]
    exact ⟨htrack, fun c' _ => h.threads c'⟩
  exact p hid := by
    rw [counted_eq_of_not_over (m := m) rfl hne (hover p hid)]
    exact h.exact p hid

omit [DecidableEq ι] in
/-- Nobody has passed the counter of a publisher that can still be approved. -/
theorem Sound.counted_eq_empty (h : m.Sound program)
    (hshape : ∀ c, program c = [] ∨ ∃ p, Counts p (program c))
    (hnot : p ∉ m.approvedPublishers)
    (hroom : m.approvedPublishers.length < maxApprovedPublishers) :
    m.counted program p = ∅ := by
  rw [Finset.eq_empty_iff_forall_notMem]
  intro c hc
  obtain ⟨-, hmem, hover⟩ := Finset.mem_filter.mp hc
  have hcounts := counts_of_mem (hshape c) hmem
  have hne : (m.thread c).calls ≠ program c := by
    rw [hover]
    exact (List.ne_nil_of_mem hmem).symm
  rcases (h.threads c).settled p hcounts hne with hin | hfull
  · exact hnot hin
  · omega

omit [DecidableEq ι] in
theorem Sound.approve (h : m.Sound program)
    (hshape : ∀ c, program c = [] ∨ ∃ p, Counts p (program c)) (hid : Counts p (program c)) :
    (m.approve p).Sound program ∧ (p ∈ (m.approve p).approvedPublishers ∨
      (m.approve p).approvedPublishers.length = maxApprovedPublishers) := by
  by_cases hroom : m.approvedPublishers.length < maxApprovedPublishers
  · rw [SystemMetrics.approve, if_pos hroom]
    by_cases hin : p ∈ m.approvedPublishers
    · rw [List.insert_of_mem hin]
      exact ⟨h, .inl hin⟩
    rw [List.insert_of_not_mem hin]
    refine ⟨⟨hroom, ?_, fun q hid' => List.mem_cons_of_mem _ (h.labels q hid'), fun c' => ?_,
      ?_⟩, .inl List.mem_cons_self⟩
    · intro q hid'
      rcases List.mem_cons.mp hid' with rfl | hid'
      · exact ⟨c, hid⟩
      · exact h.sourced q hid'
    · exact (h.threads c').mono (fun _ => List.mem_cons_of_mem _) (fun hfull => by omega)
        (fun _ => id)
    · intro q hid'
      rcases List.mem_cons.mp hid' with rfl | hid'
      · have hnone : m.endorsementCounters q = none := by
          by_contra hsome
          exact hin (h.labels q hsome)
        have hempty := h.counted_eq_empty hshape hin hroom
        change (m.endorsementCounters q).getD 0 = (m.counted program q).card
        rw [hnone, hempty]
        rfl
      · exact h.exact q hid'
  · rw [SystemMetrics.approve, if_neg hroom]
    have hlimited := h.limited
    exact ⟨⟨h.limited, h.sourced, h.labels, h.threads, h.exact⟩,
      .inr (by change m.approvedPublishers.length = _; omega)⟩

omit [DecidableEq ι] in
theorem Sound.register (h : m.Sound program) (hid : p ∈ m.approvedPublishers) :
    (m.register p).Sound program where
  limited := h.limited
  sourced := h.sourced
  labels q hsome := by
    by_cases heq : q = p
    · exact heq ▸ hid
    · rw [register_of_ne heq] at hsome
      exact h.labels q hsome
  threads c := by
    refine (h.threads c).mono (fun _ => id) id fun q hsome => ?_
    by_cases heq : q = p
    · rw [heq, register_self]
      exact Option.some_ne_none _
    · rwa [register_of_ne heq]
  exact q hid' := by
    by_cases heq : q = p
    · rw [heq, register_self]
      exact h.exact p hid
    · rw [register_of_ne heq]
      exact h.exact q hid'

/-- The last step of a call that counts. -/
theorem Sound.increment (h : m.Sound program) (hid : p ∈ m.approvedPublishers)
    (hprogram : program c =
      [.approvePublisher (some p), .incrementEndorsementCounter (some p)])
    (hne : (m.thread c).calls ≠ []) (hsome : m.endorsementCounters p ≠ none) :
    ((m.increment p).goTo c [] .outside).Sound program where
  limited := h.limited
  sourced := h.sourced
  labels q hsome' := by
    by_cases heq : q = p
    · exact heq ▸ hid
    · change (m.increment p).endorsementCounters q ≠ none at hsome'
      rw [increment_of_ne heq] at hsome'
      exact h.labels q hsome'
  threads := by
    refine (Function.forall_update_iff m.thread (fun c t =>
      OnTrack (program c) m.approvedPublishers (m.increment p).endorsementCounters t)).mpr
      ⟨.outside List.nil_suffix (.inr hprogram) (.inl hid), fun c' _ => ?_⟩
    refine (h.threads c').mono (fun _ => id) id fun q hsome' => ?_
    by_cases heq : q = p
    · rw [heq, increment_self]
      simpa using hsome
    · rwa [increment_of_ne heq]
  exact q hid' := by
    change ((m.increment p).endorsementCounters q).getD 0 = _
    by_cases heq : q = p
    · subst heq
      have hmem : .incrementEndorsementCounter (some q) ∈ program c := by
        rw [hprogram]
        simp
      have hthread : ((m.increment q).goTo c [] .outside).thread =
        Function.update m.thread c ⟨[], .outside⟩ := rfl
      obtain ⟨hinsert, hnew⟩ := counted_eq_insert hthread hne rfl hmem
      obtain ⟨n, hn⟩ := Option.ne_none_iff_exists'.mp hsome
      have hexact := h.exact q hid
      rw [hn] at hexact
      rw [hinsert, Finset.card_insert_of_notMem hnew, ← hexact, increment_self, hn]
      rfl
    · rw [increment_of_ne heq, counted_eq_of_not_over (m := m) rfl hne]
      · exact h.exact q hid'
      · intro hmem
        rw [hprogram] at hmem
        exact absurd (by simpa using hmem) heq

/-- The publisher of a call is looked up, or approved. -/
theorem approvePublisher_sound (hshape : ∀ c, program c = [] ∨ ∃ p, Counts p (program c))
    (h : m.Sound program) (hcounts : Counts p (program c)) {rest : List MetricsCall}
    (hprogram : program c = .approvePublisher (some p) :: rest)
    (hcalls : (m.thread c).calls = .approvePublisher (some p) :: rest) :
    (m.approvePublisher c (some p) rest).Sound program := by
  have hne : (m.thread c).calls ≠ [] := by
    rw [hcalls]
    exact List.cons_ne_nil _ _
  have hrest : rest <:+ program c := hprogram ▸ List.suffix_cons _ rest
  have hlast : ∀ q, .incrementEndorsementCounter (some q) ∈ program c → rest ≠ [] := by
    rintro q hmem rfl
    rw [hprogram] at hmem
    simp at hmem
  obtain ⟨hsound, hsettled⟩ := h.approve hshape hcounts
  have happroved : ((m.approve p).goTo c rest .outside).Sound program := by
    refine hsound.goTo ?_ (.outside hrest hcounts hsettled) (fun q _ => hlast q)
    rw [SystemMetrics.approve]
    split_ifs <;> exact hne
  cases hplace : (m.thread c).place with
  | outside =>
    simp only [SystemMetrics.approvePublisher, hplace]
    split_ifs with hin
    · exact h.goTo hne (.outside hrest hcounts (.inl hin)) (fun q _ => hlast q)
    · refine h.goTo hne ⟨hprogram ▸ List.suffix_refl _, fun _ _ hdiffers => ?_, by rintro q ⟨⟩,
        by rintro q ⟨⟩⟩ (fun _ _ _ => List.cons_ne_nil _ _)
      exact absurd hprogram.symm hdiffers
  | checked =>
    simp only [SystemMetrics.approvePublisher, hplace]
    exact happroved
  | registered =>
    simp only [SystemMetrics.approvePublisher, hplace]
    exact happroved

theorem incrementEndorsementCounter_sound (h : m.Sound program)
    (hprogram : program c =
      [.approvePublisher (some p), .incrementEndorsementCounter (some p)])
    (hcalls : (m.thread c).calls = [.incrementEndorsementCounter (some p)]) :
    (m.incrementEndorsementCounter c (some p) []).Sound program := by
  have hne : (m.thread c).calls ≠ [] := by
    rw [hcalls]
    exact List.cons_ne_nil _ _
  have htrack := h.threads c
  have hsuffix : [.incrementEndorsementCounter (some p)] <:+ program c := hcalls ▸ htrack.follows
  have hsettled := htrack.settled p (.inr hprogram) (by rw [hcalls, hprogram]; simp)
  cases hplace : (m.thread c).place with
  | outside =>
    simp only [SystemMetrics.incrementEndorsementCounter, hplace]
    split_ifs with hin
    · refine h.goTo hne ⟨hsuffix, ?_, ?_, by rintro _ - ⟨⟩⟩ (fun _ _ _ => List.cons_ne_nil _ _)
      · intro q hcounts _
        exact .inl (hcounts.unique (.inr hprogram) ▸ hin)
      · rintro q hq -
        obtain rfl : p = q := by simpa using hq
        exact hin
    · refine h.goTo hne (.outside List.nil_suffix (.inr hprogram) hsettled) fun q hq hmem => ?_
      rw [hprogram] at hmem
      obtain rfl : q = p := by simpa using hmem
      exact absurd hq hin
  | checked =>
    have hin := htrack.counting p hcalls (by rw [hplace]; rintro ⟨⟩)
    simp only [SystemMetrics.incrementEndorsementCounter, hplace]
    refine (h.register hin).goTo hne ⟨hsuffix, ?_, ?_, ?_⟩ (fun _ _ _ => List.cons_ne_nil _ _)
    · intro q hcounts _
      exact .inl (hcounts.unique (.inr hprogram) ▸ hin)
    · rintro q hq -
      obtain rfl : p = q := by simpa using hq
      exact hin
    · rintro q hq -
      obtain rfl : p = q := by simpa using hq
      rw [register_self]
      exact Option.some_ne_none _
  | registered =>
    have hin := htrack.counting p hcalls (by rw [hplace]; rintro ⟨⟩)
    simp only [SystemMetrics.incrementEndorsementCounter, hplace]
    exact h.increment hin hprogram hne (htrack.registered p hcalls hplace)

/-- Every step of every call keeps the counters exact. -/
theorem step_sound (hshape : ∀ c, program c = [] ∨ ∃ p, Counts p (program c))
    {m' : SystemMetrics ι} (h : m.Sound program) (hstep : m.step c = some m') :
    m'.Sound program := by
  have hne : (m.thread c).calls ≠ [] := by
    intro hnil
    rw [step, hnil] at hstep
    cases hstep
  obtain ⟨p, hcounts, ⟨rest, hprogram, hcalls⟩ | ⟨hprogram, hcalls⟩⟩ :=
    (h.threads c).cases (hshape c) hne
  · rw [step, hcalls] at hstep
    obtain rfl := Option.some_injective _ hstep
    exact approvePublisher_sound hshape h hcounts hprogram hcalls
  · rw [step, hcalls] at hstep
    obtain rfl := Option.some_injective _ hstep
    exact incrementEndorsementCounter_sound h hprogram hcalls

theorem run_sound (hshape : ∀ c, program c = [] ∨ ∃ p, Counts p (program c))
    {schedule : List ι} (hrun : system.run (create program) schedule = some m) :
    m.Sound program := by
  refine system.invariant_of_run (fun _ _ _ h hstep => step_sound hshape h hstep) ?_ hrun
  refine ⟨Nat.zero_le _, by rintro p ⟨⟩, fun p hsome => absurd rfl hsome, fun c => ?_,
    by rintro p ⟨⟩⟩
  exact ⟨List.suffix_refl _, fun _ _ hne => absurd rfl hne, fun _ _ hplace => absurd rfl hplace,
    by rintro _ - ⟨⟩⟩

end SystemMetrics
end PublicEndorsement.Pes
