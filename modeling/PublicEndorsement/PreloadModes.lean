import PublicEndorsement.PreloadRuns

/-!
# Modes and watches of sockets

A hook may have to make a socket blocking for a while, or to put another socket in its
place. The application finds its modes as it left them, and what it watches still watched.
-/

namespace PublicEndorsement.Proxy.Preload

open DescriptorTable

variable {Event : Type} (answers : Answers) {fd : ℕ} {k k' k'' : Kernel Event}

/-! ## Sockets that share a file -/

def Everywhere (R : SocketFile → SocketFile → Prop) (k k' : Kernel Event) : Prop :=
  ∀ j s, k.socketAt j = some s → ∃ s', k'.socketAt j = some s' ∧ R s s'

section Everywhere

variable {R S : SocketFile → SocketFile → Prop}

theorem socketAt_of_lookup_eq {j : ℕ} (h : k'.table.lookup j = k.table.lookup j) :
    k'.socketAt j = k.socketAt j := by
  rw [Kernel.socketAt, h]
  rfl

theorem Everywhere.of_lookup (hrefl : ∀ s, R s s)
    (h : ∀ j, k'.table.lookup j = k.table.lookup j) : Everywhere R k k' :=
  fun j s hs => ⟨s, (socketAt_of_lookup_eq (h j)).trans hs, hrefl s⟩

theorem Everywhere.trans (htrans : ∀ s s' s'', R s s' → R s' s'' → R s s'')
    (h : Everywhere R k k') (h' : Everywhere R k' k'') : Everywhere R k k'' := by
  intro j s hs
  obtain ⟨s', hs', hR⟩ := h j s hs
  obtain ⟨s'', hs'', hR'⟩ := h' j s' hs'
  exact ⟨s'', hs'', htrans s s' s'' hR hR'⟩

/-- A descriptor that shares its file with `fd` sees what happens to it. -/
theorem Keeps.everywhere (hrefl : ∀ s, R s s) (h : Keeps S fd k k')
    (hR : ∀ s s', S s s' → R s s') : Everywhere R k k' := by
  intro j s hs
  by_cases hshared : k.table.fds j = k.table.fds fd
  · have hlookup : ∀ t : DescriptorTable File (Interest Event), t.fds j = t.fds fd →
        t.lookup j = t.lookup fd := fun t ht => by rw [lookup, ht, lookup]
    have hs' : k.socketAt fd = some s := by
      rw [← hs, Kernel.socketAt, Kernel.socketAt, hlookup _ hshared]
    obtain ⟨s', hat, hS⟩ := h.socketAt hs'
    refine ⟨s', ?_, hR s s' hS⟩
    rw [← hat, Kernel.socketAt, Kernel.socketAt, hlookup _ (by rw [h.fds, hshared])]
  · refine ⟨s, ?_, hrefl s⟩
    rw [← hs]
    refine socketAt_of_lookup_eq (lookup_congr (congrFun h.fds j) (fun i hi => ?_))
    exact h.files i (k.table.fds_lt j i hi) (fun hfd => hshared (hi.trans hfd.symm))

theorem lookup_of_replaces {j : ℕ} (h : Replaces S fd k k') (hj : j ≠ fd) :
    k'.table.lookup j = k.table.lookup j :=
  lookup_congr (h.others j hj) (fun i hi => h.files i (k.table.fds_lt j i hi))

theorem Replaces.everywhere (hrefl : ∀ s, R s s) (h : Replaces S fd k k')
    (hR : ∀ s s', S s s' → R s s') : Everywhere R k k' := by
  intro j s hs
  by_cases hj : j = fd
  · subst hj
    obtain ⟨s', hs', hS⟩ := Replaces.socketAt h hs
    exact ⟨s', hs', hR s s' hS⟩
  · exact ⟨s, (socketAt_of_lookup_eq (lookup_of_replaces h hj)).trans hs, hrefl s⟩

end Everywhere

/-! ## Modes -/

abbrev KeepsModes (k k' : Kernel Event) : Prop :=
  Everywhere (fun s s' => s'.flags = s.flags) k k'

theorem KeepsModes.trans (h : KeepsModes k k') (h' : KeepsModes k' k'') : KeepsModes k k'' :=
  Everywhere.trans (fun _ _ _ hflags hflags' => hflags'.trans hflags) h h'

theorem Routed.keepsModes (h : Routed fd k k') : KeepsModes k k' := by
  rcases h with hkeeps | ⟨-, hreplaces⟩
  · exact hkeeps.everywhere (fun _ => rfl) (fun _ _ hstays => hstays.flags)
  · exact Replaces.everywhere (fun _ => rfl) hreplaces (fun _ _ hconverted => hconverted.flags)

theorem keepsModes_of_added {f : File} (h : Added fd f k.table k'.table) : KeepsModes k k' := by
  intro j s hs
  have hopen := isOpen_of_lookup (lookup_of_socketAt hs)
  exact ⟨s, (socketAt_of_lookup_eq (lookup_of_added h hopen)).trans hs, rfl⟩

variable {answers} in
theorem keepsModes_of_second (h : Second answers k k') : KeepsModes k k' := by
  rcases h with htable | ⟨new, s, -, hadded⟩
  · exact .of_lookup (fun _ => rfl) (fun _ => by rw [htable])
  · exact keepsModes_of_added hadded

/-- The calls with which an application itself changes what a descriptor stands for. -/
def Call.rearranges : Call Event → Bool
  | .close _ => true
  | .dup2 _ _ => true
  | .setfl _ _ => true
  | _ => false

def Call.asksVendor : Call Event → Bool
  | .bind _ _ => true
  | .listen _ _ => true
  | _ => false

variable {answers} in
theorem Effect.keepsModes {c : Call Event} {ret : ℤ} (h : Effect answers c ret k k')
    (hc : c.rearranges = false) (hret : c.asksVendor = true → ret = 0) : KeepsModes k k' := by
  cases h with
  | stays fd hkeeps hclose hgains =>
    exact hkeeps.everywhere (fun _ => rfl) (fun _ _ hstays => hstays.flags)
  | opened fd s hdup hgains hfd k₁ hadded hsecond =>
    exact (keepsModes_of_added hadded).trans (keepsModes_of_second hsecond)
  | closed fd hclose htable => rw [hclose] at hc; cases hc
  | duplicated old fd hdup hfd hold htable => rw [hdup] at hc; cases hc
  | modes fd arg hsetfl hkeeps => rw [hsetfl] at hc; cases hc
  | listening fd backlog hlisten hkeeps =>
    have hzero := hret (hlisten ▸ rfl)
    exact hkeeps.everywhere (fun _ => rfl) (fun _ _ hlistening => hlistening.flags hzero)
  | bound fd addr hbind hsocket hreplaces =>
    have hzero := hret (hbind ▸ rfl)
    exact Replaces.everywhere (fun _ => rfl) hreplaces (fun _ _ hbound => hbound.flags hzero)
  | converted fd addr hconnect hip hreplaces =>
    exact Replaces.everywhere (fun _ => rfl) hreplaces (fun _ _ hconverted => hconverted.flags)
  | watched epfd op fd event hepoll k₁ hrouted htable =>
    refine hrouted.keepsModes.trans (.of_lookup (fun _ => rfl) (fun j => ?_))
    rcases htable with htable | ⟨epoll, file, watches, -, -, htable⟩
    · rw [htable]
    · rw [htable]
      rfl

/-- Where the vendor was asked, it has answered. -/
def Answered (calls : List (Call Event)) (rets : List ℤ) : Prop :=
  ∀ p ∈ calls.zip rets, p.1.asksVendor = true → p.2 = 0

theorem run_keepsModes {calls : List (Call Event)} (hcalls : ∀ c ∈ calls, c.rearranges = false)
    {k : Kernel Event} (hrets : Answered calls (run answers k calls).1) :
    KeepsModes k (run answers k calls).2 := by
  induction calls generalizing k with
  | nil => exact .of_lookup (fun _ => rfl) (fun _ => rfl)
  | cons c calls ih =>
    rw [run_cons] at hrets ⊢
    obtain ⟨hc, hrest⟩ := List.forall_mem_cons.mp hcalls
    have hret : c.asksVendor = true → (perform answers c k).1 = 0 :=
      hrets (c, _) List.mem_cons_self
    have hstep := (perform_effect answers c k).keepsModes hc hret
    exact hstep.trans (ih hrest (fun p hp => hrets p (List.mem_cons_of_mem _ hp)))

theorem run_append (k : Kernel Event) (before after : List (Call Event)) :
    run answers k (before ++ after) =
      ((run answers k before).1 ++ (run answers (run answers k before).2 after).1,
        (run answers (run answers k before).2 after).2) := by
  induction before generalizing k with
  | nil => rfl
  | cons c before ih =>
    rw [List.cons_append, run_cons, ih, run_cons]
    rfl

theorem length_run (k : Kernel Event) (calls : List (Call Event)) :
    (run answers k calls).1.length = calls.length := by
  induction calls generalizing k with
  | nil => rfl
  | cons c calls ih =>
    rw [run_cons, List.length_cons, List.length_cons, ih]

theorem Answered.after (before : List (Call Event)) {after : List (Call Event)} {k : Kernel Event}
    (h : Answered (before ++ after) (run answers k (before ++ after)).1) :
    Answered after (run answers (run answers k before).2 after).1 := by
  rw [run_append, Answered, List.zip_append (length_run answers k before).symm] at h
  exact fun p hp => h p (List.mem_append_right _ hp)

/-- A connection that comes from the vendor. -/
theorem accepted_isNonblocking {flags : BitVec 32} {addrlen : Option ℕ} {new : ℕ}
    (hvendor : k.hasVendor fd = true)
    (hnew : (perform answers (.accept4 fd flags addrlen) k).1 = new) :
    ∃ s, (perform answers (.accept4 fd flags addrlen) k).2.socketAt new = some s ∧
      s.flags.isNonblocking = true := by
  have hret : (accept4 answers fd flags addrlen k).1.1 = new := hnew
  obtain ⟨-, ⟨hfailed, -⟩ | ⟨fd', s, k₁, hfd', hadded, hsecond, hnonblocking⟩⟩ :=
    accept4_effect answers fd flags addrlen k
  · omega
  · obtain rfl : fd' = new := by omega
    have hlookup := lookup_of_second answers hsecond (isOpen_of_lookup hadded.file)
    exact ⟨s, socketAt_of_lookup (hlookup.trans hadded.file), hnonblocking hvendor⟩

/-- As long as an application does not itself close, duplicate or set anything, its sockets
have the flags it gave them, through every connection, watch and accepted connection, and
through every `bind` and `listen` that returns 0. The connections that come from the vendor
are non-blocking, whatever flags `accept4` was given. -/
theorem modes_survive (k : Kernel Event) (calls : List (Call Event))
    (hcalls : ∀ c ∈ calls, c.rearranges = false)
    (hrets : Answered calls (run answers k calls).1) :
    (∀ fd s, k.socketAt fd = some s →
      ∃ s', (run answers k calls).2.socketAt fd = some s' ∧ s'.flags = s.flags) ∧
    ∀ before fd flags addrlen after (new : ℕ),
      calls = before ++ .accept4 fd flags addrlen :: after →
      (run answers k before).2.hasVendor fd = true →
      (perform answers (.accept4 fd flags addrlen) (run answers k before).2).1 = new →
      ∃ s', (run answers k calls).2.socketAt new = some s' ∧ s'.flags.isNonblocking = true := by
  refine ⟨run_keepsModes answers hcalls hrets, ?_⟩
  rintro before fd flags addrlen after new rfl hvendor hnew
  obtain ⟨s, hs, hnonblocking⟩ := accepted_isNonblocking answers hvendor hnew
  have hafter := run_keepsModes answers
    (fun c hc => hcalls c (List.mem_append_right _ (List.mem_cons_of_mem _ hc)))
    (Answered.after answers [.accept4 fd flags addrlen] (Answered.after answers before hrets))
  obtain ⟨s', hs', hflags⟩ := hafter new s hs
  refine ⟨s', ?_, hflags ▸ hnonblocking⟩
  rw [run_append]
  exact hs'

/-- A non-blocking socket is bound through the vendor, and is non-blocking still. -/
theorem demo_modes_survive :
    (run (demoAnswers .kBindResponse) demoProcess [.bind 3 demoAddr]).1 = [0] ∧
    ∃ s, (run (demoAnswers .kBindResponse) demoProcess [.bind 3 demoAddr]).2.socketAt 3 = some s ∧
      s.flags = .created true := by
  have hrets : (run (demoAnswers .kBindResponse) demoProcess [.bind 3 demoAddr]).1 = [0] := by
    decide +kernel
  refine ⟨hrets, ?_⟩
  refine (modes_survive (demoAnswers .kBindResponse) demoProcess [.bind 3 demoAddr] ?_ ?_).1 3
    ⟨.afInet, .sockStream, .created true, none⟩ rfl
  · simp [Call.rearranges]
  · rw [hrets]
    simp [Answered]

/-! ## Watches -/

/-- `fd` is watched by the given epoll instance, as the file it refers to now. -/
def Kernel.isWatched (k : Kernel Event) (fd epoll : ℕ) : Prop :=
  ∃ w ∈ k.table.watches, w.fd = fd ∧ k.table.fds fd = some w.file ∧ w.interest.epoll = epoll

def Call.discards (fd : ℕ) : Call Event → Bool
  | .close fd' => fd' = fd
  | .dup2 _ fd' => fd' = fd
  | _ => false

def Call.forgets (fd : ℕ) : Call Event → Bool
  | .close fd' => fd' = fd
  | .dup2 _ fd' => fd' = fd
  | .bind fd' _ => fd' = fd
  | .epollCtl _ op fd' _ => op = .epollCtlDel ∧ fd' = fd
  | _ => false

/-- A watched socket that no hook will replace. -/
structure Settled (fd epoll : ℕ) (k : Kernel Event) : Prop where
  isWatched : k.isWatched fd epoll
  socket : ∃ s, k.socketAt fd = some s ∧ s.isIp = false

theorem isIp_congr {s s' : SocketFile} (hdomain : s'.domain = s.domain) (htype : s'.type = s.type) :
    s'.isIp = s.isIp := by
  rw [SocketFile.isIp, SocketFile.isIp, hdomain, htype]

namespace Settled

variable {epoll : ℕ}

/-- A call that leaves `fd` with its file, and the file a socket of its kind. -/
theorem of_everywhere (h : Settled fd epoll k) (hfds : k'.table.fds fd = k.table.fds fd)
    (hwatches : k'.table.watches = k.table.watches)
    (hsockets : Everywhere (fun s s' => s'.isIp = s.isIp) k k') : Settled fd epoll k' := by
  obtain ⟨w, hw, hfd, hfile, hepoll⟩ := h.isWatched
  obtain ⟨s, hs, hip⟩ := h.socket
  obtain ⟨s', hs', hsame⟩ := hsockets fd s hs
  exact ⟨⟨w, hwatches ▸ hw, hfd, hfds.trans hfile, hepoll⟩, s', hs', hsame.trans hip⟩

theorem of_lookup (h : Settled fd epoll k) (hfds : k'.table.fds fd = k.table.fds fd)
    (hwatches : k'.table.watches = k.table.watches)
    (hlookup : k'.table.lookup fd = k.table.lookup fd) : Settled fd epoll k' := by
  obtain ⟨w, hw, hfd, hfile, hepoll⟩ := h.isWatched
  obtain ⟨s, hs, hip⟩ := h.socket
  exact ⟨⟨w, hwatches ▸ hw, hfd, hfds.trans hfile, hepoll⟩, s,
    (socketAt_of_lookup_eq hlookup).trans hs, hip⟩

theorem isOpen (h : Settled fd epoll k) : (k.table.fds fd).isSome = true := by
  obtain ⟨w, -, -, hfile, -⟩ := h.isWatched
  rw [hfile, Option.isSome_some]

theorem of_keeps (h : Settled fd epoll k) {fd' : ℕ} {R : SocketFile → SocketFile → Prop}
    (hkeeps : Keeps R fd' k k') (hR : ∀ s s', R s s' → s'.isIp = s.isIp) : Settled fd epoll k' :=
  h.of_everywhere (congrFun hkeeps.fds fd) hkeeps.watches (hkeeps.everywhere (fun _ => rfl) hR)

theorem of_replaces (h : Settled fd epoll k) {fd' : ℕ} {R : SocketFile → SocketFile → Prop}
    (hreplaces : Replaces R fd' k k') (hne : fd ≠ fd') : Settled fd epoll k' :=
  h.of_lookup (hreplaces.others fd hne) hreplaces.watches (lookup_of_replaces hreplaces hne)

theorem ne_of_isIp (h : Settled fd epoll k) {fd' : ℕ}
    (hip : (k.socketAt fd').any SocketFile.isIp = true) : fd ≠ fd' := by
  rintro rfl
  obtain ⟨s, hs, hnot⟩ := h.socket
  rw [hs, Option.any_some, hnot] at hip
  cases hip

theorem of_added (h : Settled fd epoll k) {fd' : ℕ} {f : File}
    (hadded : Added fd' f k.table k'.table) : Settled fd epoll k' := by
  refine h.of_lookup ?_ hadded.watches (lookup_of_added hadded h.isOpen)
  rw [hadded.fds, Function.update_of_ne (ne_of_isOpen h.isOpen hadded.unused)]

variable {answers} in
theorem of_second (h : Settled fd epoll k) (hsecond : Second answers k k') :
    Settled fd epoll k' := by
  rcases hsecond with htable | ⟨new, s, -, hadded⟩
  · exact h.of_lookup (by rw [htable]) (by rw [htable]) (by rw [htable])
  · exact h.of_added hadded

theorem of_routed (h : Settled fd epoll k) {fd' : ℕ} (hrouted : Routed fd' k k') :
    Settled fd epoll k' := by
  rcases hrouted with hkeeps | ⟨hip, hreplaces⟩
  · exact h.of_keeps hkeeps (fun s s' hstays => isIp_congr hstays.domain hstays.type)
  · exact h.of_replaces hreplaces (h.ne_of_isIp hip)

/-- What is watched is neither changed nor removed for another descriptor. -/
theorem of_ctlWatches (h : Settled fd epoll k) {epoll' file fd' : ℕ} {op : EpollOp} {event : Event}
    (hop : ¬ (op = .epollCtlDel ∧ fd' = fd)) {watches : List (Watch (Interest Event))}
    (hctl : ctlWatches epoll' file fd' op event k.table.watches = some watches)
    (htable : k'.table = k.table.setWatches watches) : Settled fd epoll k' := by
  obtain ⟨w, hw, hfd, hfile, hepoll⟩ := h.isWatched
  have hwatched : ∃ w' ∈ watches, w'.fd = fd ∧ w'.file = w.file ∧ w'.interest.epoll = epoll := by
    simp only [ctlWatches] at hctl
    split at hctl
    · cases hctl
      exact ⟨w, List.mem_append_left _ hw, hfd, rfl, hepoll⟩
    · cases hctl
      refine ⟨_, List.mem_map_of_mem hw, ?_⟩
      split_ifs with hit
      · rw [decide_eq_true_eq] at hit
        exact ⟨hfd, rfl, hit.2.2 ▸ hepoll⟩
      · exact ⟨hfd, rfl, hepoll⟩
    · cases hctl
      refine ⟨w, List.mem_filter.mpr ⟨hw, ?_⟩, hfd, rfl, hepoll⟩
      have hne : w.fd ≠ fd' := fun heq => hop ⟨rfl, heq.symm.trans hfd⟩
      simp [hne]
    · cases hctl
  obtain ⟨w', hw', hfd', hfile', hepoll'⟩ := hwatched
  obtain ⟨s, hs, hip⟩ := h.socket
  refine ⟨⟨w', ?_, hfd', ?_, hepoll'⟩, s, ?_, hip⟩
  · rw [htable]
    exact hw'
  · rw [htable, setWatches_fds, hfile, hfile']
  · rw [← hs]
    exact socketAt_of_lookup_eq (by rw [htable]; rfl)

variable {answers} in
theorem step {c : Call Event} {ret : ℤ} (h : Settled fd epoll k)
    (heffect : Effect answers c ret k k') (hc : c.forgets fd = false) : Settled fd epoll k' := by
  cases heffect with
  | stays fd' hkeeps hclose hgains =>
    exact h.of_keeps hkeeps (fun s s' hstays => isIp_congr hstays.domain hstays.type)
  | opened fd' s hdup hgains hret k₁ hadded hsecond => exact (h.of_added hadded).of_second hsecond
  | closed fd' hclose htable =>
    subst hclose
    have hne : fd ≠ fd' := by
      rintro rfl
      simp [Call.forgets] at hc
    refine h.of_lookup ?_ (by rw [htable]; rfl) (by rw [htable, lookup_close_of_ne hne])
    rw [htable, close_fds, Function.update_of_ne hne]
  | duplicated old fd' hdup hret hold htable =>
    subst hdup
    have hne : fd ≠ fd' := by
      rintro rfl
      simp [Call.forgets] at hc
    have hfds : k'.table.fds fd = k.table.fds fd := by
      rw [htable, dup2_fds, Function.update_of_ne hne]
    exact h.of_lookup hfds (by rw [htable]; rfl)
      (lookup_congr hfds (fun i _ => by rw [htable]; rfl))
  | modes fd' arg hsetfl hkeeps =>
    refine h.of_keeps hkeeps ?_
    rintro s s' rfl
    exact isIp_congr rfl rfl
  | listening fd' backlog hlisten hkeeps =>
    exact h.of_keeps hkeeps (fun s s' hlisten => isIp_congr hlisten.domain hlisten.type)
  | bound fd' addr hbind hsocket hreplaces =>
    subst hbind
    refine h.of_replaces hreplaces ?_
    rintro rfl
    simp [Call.forgets] at hc
  | converted fd' addr hconnect hip hreplaces => exact h.of_routed (.inr ⟨hip, hreplaces⟩)
  | watched epfd op fd' event hepoll k₁ hrouted htable =>
    subst hepoll
    have hrouted := h.of_routed hrouted
    rcases htable with htable | ⟨epoll', file, watches, -, hctl, htable⟩
    · exact hrouted.of_lookup (by rw [htable]) (by rw [htable]) (by rw [htable])
    · refine hrouted.of_ctlWatches ?_ hctl htable
      rintro ⟨rfl, rfl⟩
      simp [Call.forgets] at hc

theorem run {calls : List (Call Event)} (h : Settled fd epoll k)
    (hcalls : ∀ c ∈ calls, c.forgets fd = false) :
    Settled fd epoll (run answers k calls).2 := by
  induction calls generalizing k with
  | nil => exact h
  | cons c calls ih =>
    obtain ⟨hc, hrest⟩ := List.forall_mem_cons.mp hcalls
    exact ih (h.step (perform_effect answers c k) hc) hrest

end Settled

structure Refers (epfd epoll : ℕ) (k : Kernel Event) : Prop where
  fds : k.table.fds epfd = some epoll
  file : (k.table.files epoll).socket? = none

namespace Refers

variable {epfd epoll : ℕ}

theorem lt (h : Refers epfd epoll k) : epoll < k.table.next := k.table.fds_lt epfd epoll h.fds

theorem of_files (h : Refers epfd epoll k) (hfds : k'.table.fds epfd = k.table.fds epfd)
    (hfiles : ∀ i < k.table.next, k'.table.files i = k.table.files i) : Refers epfd epoll k' :=
  ⟨hfds.trans h.fds, by rw [hfiles epoll h.lt, h.file]⟩

theorem of_keeps (h : Refers epfd epoll k) {R : SocketFile → SocketFile → Prop}
    (hkeeps : Keeps R fd k k') : Refers epfd epoll k' := by
  refine ⟨by rw [hkeeps.fds, h.fds], ?_⟩
  by_cases hfd : k.table.fds fd = some epoll
  · have hfile : k.table.lookup fd = some (k.table.files epoll) := by rw [lookup, hfd]; rfl
    obtain ⟨f', hf', -, hother⟩ := hkeeps.file _ hfile
    have hfile' : k'.table.lookup fd = some (k'.table.files epoll) := by
      rw [lookup, hkeeps.fds, hfd]
      rfl
    rw [hfile'] at hf'
    rw [Option.some_injective _ hf']
    exact hother h.file
  · rw [hkeeps.files epoll h.lt hfd, h.file]

theorem ne_of_socket (h : Refers epfd epoll k) (hs : (k.socketAt fd).isSome = true) :
    epfd ≠ fd := by
  rintro rfl
  rw [Kernel.socketAt, lookup, h.fds, Option.map_some, Option.bind_some, h.file] at hs
  cases hs

theorem of_replaces (h : Refers epfd epoll k) {R : SocketFile → SocketFile → Prop}
    (hreplaces : Replaces R fd k k') (hs : (k.socketAt fd).isSome = true) :
    Refers epfd epoll k' :=
  h.of_files (hreplaces.others epfd (h.ne_of_socket hs)) hreplaces.files

theorem of_routed (h : Refers epfd epoll k) (hrouted : Routed fd k k') : Refers epfd epoll k' := by
  rcases hrouted with hkeeps | ⟨hip, hreplaces⟩
  · exact h.of_keeps hkeeps
  · obtain ⟨s, hs, -⟩ := (Option.any_eq_true _ _).mp hip
    exact h.of_replaces hreplaces (by rw [hs, Option.isSome_some])

theorem of_added (h : Refers epfd epoll k) {f : File} (hadded : Added fd f k.table k'.table) :
    Refers epfd epoll k' := by
  have hopen : (k.table.fds epfd).isSome = true := by rw [h.fds, Option.isSome_some]
  refine h.of_files ?_ hadded.files
  rw [hadded.fds, Function.update_of_ne (ne_of_isOpen hopen hadded.unused)]

variable {answers} in
theorem of_second (h : Refers epfd epoll k) (hsecond : Second answers k k') :
    Refers epfd epoll k' := by
  rcases hsecond with htable | ⟨new, s, -, hadded⟩
  · exact h.of_files (by rw [htable]) (fun _ _ => by rw [htable])
  · exact h.of_added hadded

variable {answers} in
theorem step {c : Call Event} {ret : ℤ} (h : Refers epfd epoll k)
    (heffect : Effect answers c ret k k') (hc : c.discards epfd = false) :
    Refers epfd epoll k' := by
  cases heffect with
  | stays fd hkeeps hclose hgains => exact h.of_keeps hkeeps
  | opened fd s hdup hgains hret k₁ hadded hsecond => exact (h.of_added hadded).of_second hsecond
  | closed fd hclose htable =>
    subst hclose
    have hne : epfd ≠ fd := by
      rintro rfl
      simp [Call.discards] at hc
    exact h.of_files (by rw [htable, close_fds, Function.update_of_ne hne])
      (fun _ _ => by rw [htable]; rfl)
  | duplicated old fd hdup hret hold htable =>
    subst hdup
    have hne : epfd ≠ fd := by
      rintro rfl
      simp [Call.discards] at hc
    exact h.of_files (by rw [htable, dup2_fds, Function.update_of_ne hne])
      (fun _ _ => by rw [htable]; rfl)
  | modes fd arg hsetfl hkeeps => exact h.of_keeps hkeeps
  | listening fd backlog hlisten hkeeps => exact h.of_keeps hkeeps
  | bound fd addr hbind hsocket hreplaces => exact h.of_replaces hreplaces hsocket
  | converted fd addr hconnect hip hreplaces => exact h.of_routed (.inr ⟨hip, hreplaces⟩)
  | watched epfd op fd event hepoll k₁ hrouted htable =>
    refine (h.of_routed hrouted).of_files ?_ (fun i _ => ?_)
    · rcases htable with htable | ⟨_, _, _, -, -, htable⟩ <;> rw [htable]
      rfl
    · rcases htable with htable | ⟨_, _, _, -, -, htable⟩ <;> rw [htable]
      rfl

theorem run {calls : List (Call Event)} (h : Refers epfd epoll k)
    (hcalls : ∀ c ∈ calls, c.discards epfd = false) :
    Refers epfd epoll (run answers k calls).2 := by
  induction calls generalizing k with
  | nil => exact h
  | cons c calls ih =>
    obtain ⟨hc, hrest⟩ := List.forall_mem_cons.mp hcalls
    exact ih (h.step (perform_effect answers c k) hc) hrest

end Refers

theorem ctlWatches_add {epoll file : ℕ} {event : Event}
    {watches new : List (Watch (Interest Event))}
    (h : ctlWatches epoll file fd .epollCtlAdd event watches = some new) :
    new = watches ++ [⟨fd, file, ⟨epoll, event⟩⟩] := by
  unfold ctlWatches at h
  cases hany : watches.any
      (fun w => decide (w.fd = fd ∧ w.file = file ∧ w.interest.epoll = epoll)) with
  | false =>
    simp only [hany] at h
    exact (Option.some_injective _ h).symm
  | true =>
    simp only [hany] at h
    cases h

theorem isWatched_of_add {epfd : ℕ} {event : Event}
    (hret : (libcEpollCtl answers epfd .epollCtlAdd fd event k).1 = 0) :
    ∃ epoll, Refers epfd epoll (libcEpollCtl answers epfd .epollCtlAdd fd event k).2 ∧
      (libcEpollCtl answers epfd .epollCtlAdd fd event k).2.isWatched fd epoll := by
  unfold libcEpollCtl at hret ⊢
  cases hepoll : k.table.fds epfd with
  | none => simp [hepoll] at hret
  | some epoll =>
    cases hfile : k.table.fds fd with
    | none => simp [hepoll, hfile] at hret
    | some file =>
      simp only [hepoll, hfile] at hret ⊢
      cases hctl : ctlWatches epoll file fd .epollCtlAdd event k.table.watches with
      | none => simp [hctl] at hret
      | some watches =>
        simp only [hctl] at hret ⊢
        split_ifs at hret ⊢ with hok
        · have hinstance := of_decide_eq_true (Bool.and_eq_true_iff.mp hok).1
          refine ⟨epoll, ⟨hepoll, congrArg File.socket? hinstance⟩,
            ⟨fd, file, ⟨epoll, event⟩⟩, ?_, rfl, hfile, rfl⟩
          rw [ctlWatches_add hctl]
          exact List.mem_append_right _ (List.mem_singleton_self _)
        · cases hret

def Kernel.WatchesOpened (k : Kernel Event) : Prop :=
  ∀ w ∈ k.table.watches, w.file < k.table.next

/-- A socket that was put in the place of another is not watched. -/
theorem not_isWatched_of_replaces {R : SocketFile → SocketFile → Prop} (h : Replaces R fd k k')
    (hopened : k.WatchesOpened) (epoll : ℕ) : ¬ k'.isWatched fd epoll := by
  rintro ⟨w, hw, -, hfile, -⟩
  obtain ⟨i, hi, hle⟩ := h.fresh
  rw [h.watches] at hw
  rw [hi] at hfile
  have hlt := hopened w hw
  rw [← Option.some_injective _ hfile] at hlt
  exact absurd hlt (not_lt.mpr hle)

/-- Once `EPOLL_CTL_ADD` has returned 0 and made the socket a VSOCK one, it stays watched
until the application removes, closes, duplicates over or binds it, or gives up the epoll
instance: neither `connect` nor any other hook takes the watch away. -/
theorem watch_survives (k k₁ : Kernel Event) (epfd fd : ℕ) (event : Event)
    (hadd : epollCtl answers epfd .epollCtlAdd fd event k = (0, k₁)) (s : SocketFile)
    (hs : k₁.socketAt fd = some s) (hip : s.isIp = false) :
    ∃ epoll, k₁.table.fds epfd = some epoll ∧
      ∀ calls, (∀ c ∈ calls, c.forgets fd = false) → (∀ c ∈ calls, c.discards epfd = false) →
        (run answers k₁ calls).2.table.fds epfd = some epoll ∧
          (run answers k₁ calls).2.isWatched fd epoll := by
  obtain ⟨k₀, -, -, hrun⟩ := epollCtl_cases answers epfd .epollCtlAdd fd event k
  rw [hrun] at hadd
  obtain ⟨epoll, hrefers, hwatched⟩ := isWatched_of_add answers (congrArg Prod.fst hadd)
  rw [hadd] at hrefers hwatched
  have hsettled : Settled fd epoll k₁ := ⟨hwatched, s, hs, hip⟩
  refine ⟨epoll, hrefers.fds, fun calls hforgets hdiscards => ?_⟩
  exact ⟨(hrefers.run answers hdiscards).fds, (hsettled.run answers hforgets).isWatched⟩

/-- A socket that is watched before it is connected. -/
theorem demo_watch_survives : ∃ k₁,
    epollCtl (demoAnswers .kBindResponse) 4 .epollCtlAdd 3 () demoProcess = (0, k₁) ∧
      (run (demoAnswers .kBindResponse) k₁ [.connect 3 demoAddr]).2.table.fds 4 = some 1 ∧
      (run (demoAnswers .kBindResponse) k₁ [.connect 3 demoAddr]).2.isWatched 3 1 := by
  refine ⟨(epollCtl (demoAnswers .kBindResponse) 4 .epollCtlAdd 3 () demoProcess).2,
    Prod.ext (by decide +kernel) rfl, ?_⟩
  obtain ⟨epoll, hepoll, hcalls⟩ := watch_survives (demoAnswers .kBindResponse) demoProcess
    (epollCtl (demoAnswers .kBindResponse) 4 .epollCtlAdd 3 () demoProcess).2 4 3 ()
    (Prod.ext (by decide +kernel) rfl) ⟨.afVsock, .sockStream, .created true, none⟩
    (by decide +kernel) (by decide)
  have hone : epoll = 1 := by
    have h : some epoll = some 1 := hepoll.symm.trans (by decide +kernel)
    exact Option.some_injective _ h
  subst hone
  exact hcalls [.connect 3 demoAddr] (by simp [Call.forgets]) (by simp [Call.discards])

/-- A watch is lost when `bind` hands the socket to the vendor. -/
theorem bind_unwatches {addr : SockAddr} {s : SocketFile} (hopened : k.WatchesOpened)
    (hs : k.socketAt fd = some s) (htcp : s.isTcp = true) {s' : SocketFile}
    (hs' : (bind answers fd addr k).2.socketAt fd = some s') (hunix : s'.domain = .afUnix)
    (epoll : ℕ) : ¬ (bind answers fd addr k).2.isWatched fd epoll := by
  have hne : s'.domain ≠ s.domain := by
    rw [hunix]
    simp only [SocketFile.isTcp, decide_eq_true_eq] at htcp
    grind
  rcases bind_cases answers fd addr k with h | ⟨s₀, port, hs₀, -, h⟩
  · rw [h] at hs'
    have hsame : k.socketAt fd = some s' := hs'
    rw [hs] at hsame
    exact absurd (congrArg SocketFile.domain (Option.some_injective _ hsame)).symm hne
  · rw [h] at hs' ⊢
    rcases (bindVendor_effect answers hs port).2 with ⟨-, hkeeps⟩ | hreplaces
    · obtain ⟨s'', hs'', hstays⟩ := hkeeps.socketAt hs
      rw [hs'] at hs''
      exact absurd ((congrArg SocketFile.domain (Option.some_injective _ hs'')).trans
        hstays.domain) hne
    · exact not_isWatched_of_replaces hreplaces hopened epoll

end PublicEndorsement.Proxy.Preload
