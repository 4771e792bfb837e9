import PublicEndorsement.PreloadEffects

/-!
# Applications under the preload library

What an application can rely on, whatever calls it makes and whatever they are answered:
its TCP connections go through the proxy, the open descriptors are the ones it was given,
its sockets keep their modes, and what it watches stays watched.
-/

namespace PublicEndorsement.Proxy.Preload

open DescriptorTable

variable {Event : Type} (answers : Answers) {fd : ℕ} {k k' : Kernel Event}

def run (k : Kernel Event) : List (Call Event) → List ℤ × Kernel Event
  | [] => ([], k)
  | c :: calls =>
    let (ret, k') := perform answers c k
    let (rets, k'') := run k' calls
    (ret :: rets, k'')

theorem run_cons (k : Kernel Event) (c : Call Event) (calls : List (Call Event)) :
    run answers k (c :: calls) =
      ((perform answers c k).1 :: (run answers (perform answers c k).2 calls).1,
        (run answers (perform answers c k).2 calls).2) := rfl

/-! ## What one call does -/

def Call.gains : Call Event → Bool
  | .socket _ _ _ => true
  | .dup2 _ _ => true
  | .accept4 _ _ _ => true
  | .accept _ _ => true
  | _ => false

inductive Effect (c : Call Event) (ret : ℤ) (k k' : Kernel Event) : Prop
  | stays (fd : ℕ) (hkeeps : Keeps Stays fd k k') (hc : ∀ fd, c ≠ .close fd)
    (hgains : c.gains = true → ret = -1)
  | opened (fd : ℕ) (s : SocketFile) (hc : ∀ old new, c ≠ .dup2 old new)
    (hgains : c.gains = true) (hret : ret = fd) (k₁ : Kernel Event)
    (hadded : Added fd (.socket s) k.table k₁.table) (hsecond : Second answers k₁ k')
  | closed (fd : ℕ) (hc : c = .close fd) (htable : k'.table = k.table.close fd)
  | duplicated (old fd : ℕ) (hc : c = .dup2 old fd) (hret : ret = fd)
    (hold : (k.table.fds old).isSome = true) (htable : k'.table = k.table.dup2 old fd)
  | modes (fd : ℕ) (arg : BitVec 32) (hc : c = .setfl fd arg)
    (hkeeps : Keeps (fun s s' => s' = s.setfl arg) fd k k')
  | listening (fd : ℕ) (backlog : ℤ) (hc : c = .listen fd backlog)
    (hkeeps : Keeps (Listening ret) fd k k')
  | bound (fd : ℕ) (addr : SockAddr) (hc : c = .bind fd addr)
    (hsocket : (k.socketAt fd).isSome = true) (hreplaces : Replaces (Bound ret) fd k k')
  | converted (fd : ℕ) (addr : SockAddr) (hc : c = .connect fd addr)
    (hip : (k.socketAt fd).any SocketFile.isIp = true) (hreplaces : Replaces Converted fd k k')
  | watched (epfd : ℕ) (op : EpollOp) (fd : ℕ) (event : Event) (hc : c = .epollCtl epfd op fd event)
    (k₁ : Kernel Event) (hrouted : Routed fd k k₁)
    (htable : k'.table = k₁.table ∨ ∃ epoll file watches, k₁.table.fds fd = some file ∧
      ctlWatches epoll file fd op event k₁.table.watches = some watches ∧
      k'.table = k₁.table.setWatches watches)

variable {answers} in
theorem Effect.same {c : Call Event} {ret : ℤ} (htable : k'.table = k.table)
    (hc : ∀ fd, c ≠ .close fd) (hgains : c.gains = true → ret = -1) : Effect answers c ret k k' :=
  .stays 0 ((Keeps.of_eq htable).weaken (fun s s' _ h => .of_eq s s' h)) hc hgains

variable {answers} in
theorem Effect.of_accepted {c : Call Event} {ret : ℤ} {P : SocketFile → Prop}
    (h : Accepted answers ret P k k') (hc : ∀ old new, c ≠ .dup2 old new)
    (hgains : c.gains = true) : Effect answers c ret k k' := by
  rcases h with ⟨hret, htable⟩ | ⟨fd, s, k₁, hret, hadded, hsecond, -⟩
  · exact .same htable (by rintro fd rfl; cases hgains) (fun _ => hret)
  · exact .opened fd s hc hgains hret k₁ hadded hsecond

theorem effect_socket (domain : Domain) (type : SockType) (nonblock : Bool) (k : Kernel Event) :
    Effect answers (.socket domain type nonblock)
      (perform answers (.socket domain type nonblock) k).1 k
      (perform answers (.socket domain type nonblock) k).2 := by
  simp only [perform]
  rw [bind_apply]
  rcases socket_cases answers domain type nonblock k with h | ⟨v, hv, h⟩
  · rw [h]
    exact .same rfl (by rintro _ ⟨⟩) (fun _ => rfl)
  · rw [h]
    exact .opened v _ (by rintro _ _ ⟨⟩) rfl rfl _ (.install hv _) (.inl rfl)

theorem effect_dup2 (old fd : ℕ) (k : Kernel Event) :
    Effect answers (.dup2 old fd) (perform answers (.dup2 old fd) k).1 k
      (perform answers (.dup2 old fd) k).2 := by
  simp only [perform, dup2]
  split_ifs with h
  · exact .duplicated old fd rfl rfl (Bool.and_eq_true_iff.mp h).1 rfl
  · exact .same rfl (by rintro _ ⟨⟩) (fun _ => rfl)

theorem effect_bind (fd : ℕ) (addr : SockAddr) (k : Kernel Event) :
    Effect answers (.bind fd addr) (perform answers (.bind fd addr) k).1 k
      (perform answers (.bind fd addr) k).2 := by
  simp only [perform]
  rcases bind_cases answers fd addr k with h | ⟨s, port, hs, -, h⟩
  · rw [h]
    exact .same rfl (by rintro _ ⟨⟩) (by rintro ⟨⟩)
  · rw [h]
    rcases (bindVendor_effect answers hs port).2 with ⟨-, hkeeps⟩ | hreplaces
    · exact .stays fd hkeeps (by rintro _ ⟨⟩) (by rintro ⟨⟩)
    · exact .bound fd addr rfl (by rw [hs]; rfl) hreplaces

theorem sockopt_connects (fd : ℕ) (level : Level) (k : Kernel Event) :
    (sockopt answers fd level k).2.connects = k.connects := by
  unfold sockopt
  rw [bind_apply]
  split_ifs <;> rfl

theorem ioctl_connects (fd : ℕ) (fionread : Bool) (k : Kernel Event) :
    (ioctl answers fd fionread k).2.connects = k.connects := by
  unfold ioctl
  rw [bind_apply, bind_apply]
  split_ifs <;> rfl

theorem sockopt_table (fd : ℕ) (level : Level) (k : Kernel Event) :
    (sockopt answers fd level k).2.table = k.table := by
  unfold sockopt
  rw [bind_apply]
  split_ifs <;> rfl

theorem ioctl_table (fd : ℕ) (fionread : Bool) (k : Kernel Event) :
    (ioctl answers fd fionread k).2.table = k.table := by
  unfold ioctl
  rw [bind_apply, bind_apply]
  split_ifs <;> rfl

theorem perform_effect (c : Call Event) (k : Kernel Event) :
    Effect answers c (perform answers c k).1 k (perform answers c k).2 := by
  cases c with
  | socket domain type nonblock => exact effect_socket answers domain type nonblock k
  | close fd => exact .closed fd rfl rfl
  | dup2 old fd => exact effect_dup2 answers old fd k
  | setfl fd arg => exact .modes fd arg rfl (keeps_setfl fd arg k)
  | connect fd addr =>
    rcases routed_connect answers fd addr k with hkeeps | ⟨hip, hreplaces⟩
    · exact .stays fd hkeeps (by rintro _ ⟨⟩) (by rintro ⟨⟩)
    · exact .converted fd addr rfl hip hreplaces
  | bind fd addr => exact effect_bind answers fd addr k
  | listen fd backlog =>
    rcases (listen_effect answers fd backlog k).2 with htable | hkeeps
    · exact .same htable (by rintro _ ⟨⟩) (by rintro ⟨⟩)
    · exact .listening fd backlog rfl hkeeps
  | accept4 fd flags addrlen =>
    exact .of_accepted (accept4_effect answers fd flags addrlen k).2 (by rintro _ _ ⟨⟩) rfl
  | accept fd addrlen =>
    exact .of_accepted (accept4_effect answers fd 0 addrlen k).2 (by rintro _ _ ⟨⟩) rfl
  | epollCtl epfd op fd event =>
    obtain ⟨k₁, hrouted, -, hrun⟩ := epollCtl_cases answers epfd op fd event k
    simp only [perform, hrun]
    exact .watched epfd op fd event rfl k₁ hrouted
      (libcEpollCtl_cases answers epfd op fd event k₁).2
  | sockopt fd level =>
    exact .same (sockopt_table answers fd level k) (by rintro _ ⟨⟩) (by rintro ⟨⟩)
  | ioctl fd fionread =>
    exact .same (ioctl_table answers fd fionread k) (by rintro _ ⟨⟩) (by rintro ⟨⟩)

/-! ## Connections go through the proxy -/

theorem noDirect_perform (c : Call Event) (k : Kernel Event) :
    NoDirect k (perform answers c k).2 := by
  cases c with
  | socket domain type nonblock =>
    simp only [perform]
    rw [bind_apply]
    rcases socket_cases answers domain type nonblock k with h | ⟨v, hv, h⟩ <;>
      exact .of_eq (by rw [h]; rfl)
  | close fd => exact .of_eq rfl
  | dup2 old fd =>
    rcases dup2_cases answers old fd k with h | h <;> exact .of_eq (by simp only [perform, h]; rfl)
  | setfl fd arg => exact .of_eq rfl
  | connect fd addr => exact noDirect_connect answers fd addr k
  | bind fd addr =>
    simp only [perform]
    rcases bind_cases answers fd addr k with h | ⟨s, port, hs, -, h⟩
    · rw [h]
      exact .of_eq rfl
    · rw [h]
      exact (bindVendor_effect answers hs port).1
  | listen fd backlog => exact .of_eq (listen_effect answers fd backlog k).1
  | accept4 fd flags addrlen => exact .of_eq (accept4_effect answers fd flags addrlen k).1
  | accept fd addrlen => exact .of_eq (accept4_effect answers fd 0 addrlen k).1
  | epollCtl epfd op fd event =>
    obtain ⟨k₁, -, hconnects, hrun⟩ := epollCtl_cases answers epfd op fd event k
    simp only [perform, hrun]
    exact .of_eq ((libcEpollCtl_cases answers epfd op fd event k₁).1.trans hconnects)
  | sockopt fd level => exact .of_eq (sockopt_connects answers fd level k)
  | ioctl fd fionread => exact .of_eq (ioctl_connects answers fd fionread k)

theorem run_noDirect (k : Kernel Event) (calls : List (Call Event)) :
    NoDirect k (run answers k calls).2 := by
  induction calls generalizing k with
  | nil => exact .of_eq rfl
  | cons c calls ih => exact (noDirect_perform answers c k).trans (ih _)

/-- Whatever calls an application makes, the kernel is never asked for a TCP connection to an
IP address; and where `connect` returns 0 for one, the descriptor has become a VSOCK socket
that is connected to the proxy, and the proxy has granted that very address in the one
handshake the call has made. -/
theorem connects_through_proxy (k : Kernel Event) (calls : List (Call Event)) :
    (∃ new, (run answers k calls).2.connects = k.connects ++ new ∧
      ∀ c ∈ new, c.isDirect = false) ∧
    ∀ before fd addr after s, calls = before ++ .connect fd addr :: after →
      (run answers k before).2.socketAt fd = some s → s.isTcp = true → addr.isInet = true →
      (perform answers (.connect fd addr) (run answers k before).2).1 = 0 →
      Granted answers addr fd (run answers k before).2
        (perform answers (.connect fd addr) (run answers k before).2).2 := by
  refine ⟨run_noDirect answers k calls, ?_⟩
  intro before fd addr after s _ hs htcp haddr hret
  exact granted_of_connect answers hs htcp haddr hret

/-! ## The open descriptors -/

/-- The descriptors an application holds, as far as it can tell from what its calls return. -/
def hold (held : Finset ℕ) : Call Event → ℤ → Finset ℕ
  | .close fd, _ => held.erase fd
  | .dup2 _ fd, ret => if 0 ≤ ret then insert fd held else held
  | c, ret => if c.gains = true ∧ 0 ≤ ret then insert ret.toNat held else held

def holds (held : Finset ℕ) : List (Call Event) → List ℤ → Finset ℕ
  | c :: calls, ret :: rets => holds (hold held c ret) calls rets
  | _, _ => held

/-- The descriptors in `held` are the open ones. -/
def Holds (held : Finset ℕ) (k : Kernel Event) : Prop :=
  ∀ fd, (k.table.fds fd).isSome = true ↔ fd ∈ held

/-- What is held is open, and what else is open came as the second descriptor of a message,
of which `accept4` does not tell the application. -/
structure Accounts (held : Finset ℕ) (k : Kernel Event) : Prop where
  isOpen : ∀ fd ∈ held, (k.table.fds fd).isSome = true
  isHeld : ∀ fd, (k.table.fds fd).isSome = true → fd ∈ held ∨ answers.passesSecond fd

section Accounts

variable {answers} {held : Finset ℕ}

theorem Holds.accounts (h : Holds held k) : Accounts answers held k :=
  ⟨fun fd => (h fd).mpr, fun fd hopen => .inl ((h fd).mp hopen)⟩

theorem Accounts.holds (h : Accounts answers held k) (hnone : ∀ fd, ¬ answers.passesSecond fd) :
    Holds held k :=
  fun fd => ⟨fun hopen => (h.isHeld fd hopen).resolve_right (hnone fd), h.isOpen fd⟩

theorem Accounts.of_fds (h : Accounts answers held k)
    (hfds : ∀ j, (k'.table.fds j).isSome = (k.table.fds j).isSome) : Accounts answers held k' :=
  ⟨fun fd hfd => (hfds fd).trans (h.isOpen fd hfd), fun fd hopen => h.isHeld fd (hfds fd ▸ hopen)⟩

/-- A descriptor that is now open, whatever it was before. -/
theorem Accounts.insert (h : Accounts answers held k) {file : ℕ}
    (hfds : k'.table.fds = Function.update k.table.fds fd (some file)) :
    Accounts answers (insert fd held) k' := by
  refine ⟨fun j hj => ?_, fun j hopen => ?_⟩
  · rw [hfds]
    by_cases hne : j = fd
    · rw [hne, Function.update_self, Option.isSome_some]
    · rw [Function.update_of_ne hne]
      exact h.isOpen j (Finset.mem_of_mem_insert_of_ne hj hne)
  · rw [Finset.mem_insert]
    by_cases hne : j = fd
    · exact .inl (.inl hne)
    · rw [hfds, Function.update_of_ne hne] at hopen
      exact (h.isHeld j hopen).imp_left .inr

theorem Accounts.erase (h : Accounts answers held k)
    (hfds : k'.table.fds = Function.update k.table.fds fd none) :
    Accounts answers (held.erase fd) k' := by
  refine ⟨fun j hj => ?_, fun j hopen => ?_⟩
  · obtain ⟨hne, hj⟩ := Finset.mem_erase.mp hj
    rw [hfds, Function.update_of_ne hne]
    exact h.isOpen j hj
  · have hne : j ≠ fd := by
      rintro rfl
      rw [hfds, Function.update_self] at hopen
      cases hopen
    rw [hfds, Function.update_of_ne hne] at hopen
    exact (h.isHeld j hopen).imp_left (fun hj => Finset.mem_erase.mpr ⟨hne, hj⟩)

theorem Accounts.second (h : Accounts answers held k) (hsecond : Second answers k k') :
    Accounts answers held k' := by
  rcases hsecond with htable | ⟨new, s, hpassed, hadded⟩
  · exact h.of_fds (fun j => by rw [htable])
  have hall := h.insert hadded.fds
  refine ⟨fun j hj => hall.isOpen j (Finset.mem_insert_of_mem hj), fun j hopen => ?_⟩
  rcases hall.isHeld j hopen with hj | hj
  · rcases Finset.mem_insert.mp hj with rfl | hj
    · exact .inr hpassed
    · exact .inl hj
  · exact .inr hj

end Accounts

theorem isOpen_of_replaces {R : SocketFile → SocketFile → Prop} (h : Replaces R fd k k')
    (hopen : (k.table.fds fd).isSome = true) (j : ℕ) :
    (k'.table.fds j).isSome = (k.table.fds j).isSome := by
  by_cases hj : j = fd
  · obtain ⟨i, hi, -⟩ := h.fresh
    rw [hj, hi, hopen, Option.isSome_some]
  · rw [h.others j hj]

theorem isOpen_of_routed (h : Routed fd k k') (j : ℕ) :
    (k'.table.fds j).isSome = (k.table.fds j).isSome := by
  rcases h with hkeeps | ⟨hip, hreplaces⟩
  · rw [hkeeps.fds]
  · obtain ⟨s, hs, -⟩ := (Option.any_eq_true _ _).mp hip
    exact isOpen_of_replaces hreplaces (isOpen_of_lookup (lookup_of_socketAt hs)) j

theorem hold_of_not_gains {held : Finset ℕ} {c : Call Event} {ret : ℤ}
    (hc : ∀ fd, c ≠ .close fd) (hgains : c.gains = true → ret = -1) : hold held c ret = held := by
  cases c with
  | close fd => exact absurd rfl (hc fd)
  | socket domain type nonblock => simp [hold, hgains rfl]
  | dup2 old fd => simp [hold, hgains rfl]
  | accept4 fd flags addrlen => simp [hold, hgains rfl]
  | accept fd addrlen => simp [hold, hgains rfl]
  | _ => simp [hold, Call.gains]

theorem hold_of_gains {held : Finset ℕ} {c : Call Event} (hgains : c.gains = true)
    (hc : ∀ old new, c ≠ .dup2 old new) (fd : ℕ) : hold held c fd = insert fd held := by
  cases c with
  | dup2 old new => exact absurd rfl (hc old new)
  | socket domain type nonblock => simp [hold, Call.gains]
  | accept4 fd flags addrlen => simp [hold, Call.gains]
  | accept fd addrlen => simp [hold, Call.gains]
  | _ => cases hgains

variable {answers} in
/-- The application is told of every descriptor that is opened for it. -/
theorem Effect.accounts {c : Call Event} {ret : ℤ} {held : Finset ℕ}
    (h : Effect answers c ret k k') (hheld : Accounts answers held k) :
    Accounts answers (hold held c ret) k' := by
  cases h with
  | stays fd hkeeps hc hgains =>
    rw [hold_of_not_gains hc hgains]
    exact hheld.of_fds (fun j => by rw [hkeeps.fds])
  | opened fd s hc hgains hret k₁ hadded hsecond =>
    rw [hret, hold_of_gains hgains hc]
    exact (hheld.insert hadded.fds).second hsecond
  | closed fd hc htable =>
    subst hc
    exact hheld.erase (by rw [htable, close_fds])
  | duplicated old fd hc hret hold htable =>
    subst hc hret
    rw [Preload.hold, if_pos (Int.natCast_nonneg fd)]
    obtain ⟨file, hfile⟩ := Option.isSome_iff_exists.mp hold
    exact hheld.insert (by rw [htable, dup2_fds, hfile])
  | modes fd arg hc hkeeps =>
    subst hc
    exact hheld.of_fds (fun j => by rw [hkeeps.fds])
  | listening fd backlog hc hkeeps =>
    subst hc
    exact hheld.of_fds (fun j => by rw [hkeeps.fds])
  | bound fd addr hc hsocket hreplaces =>
    subst hc
    obtain ⟨s, hs⟩ := Option.isSome_iff_exists.mp hsocket
    exact hheld.of_fds (isOpen_of_replaces hreplaces (isOpen_of_lookup (lookup_of_socketAt hs)))
  | converted fd addr hc hip hreplaces =>
    subst hc
    exact hheld.of_fds (isOpen_of_routed (.inr ⟨hip, hreplaces⟩))
  | watched epfd op fd event hc k₁ hrouted htable =>
    subst hc
    refine hheld.of_fds (fun j => ?_)
    rw [← isOpen_of_routed hrouted j]
    rcases htable with htable | ⟨epoll, file, watches, -, -, htable⟩
    · rw [htable]
    · rw [htable, setWatches_fds]

theorem run_accounts {held : Finset ℕ} {k : Kernel Event} (hheld : Accounts answers held k)
    (calls : List (Call Event)) :
    Accounts answers (holds held calls (run answers k calls).1) (run answers k calls).2 := by
  induction calls generalizing held k with
  | nil => exact hheld
  | cons c calls ih => exact ih ((perform_effect answers c k).accounts hheld)

/-- The sockets that the hooks open for themselves are closed again on every path, and none of
the application's descriptors is closed: what the results of the calls say is open, and only
the second descriptor of a message of the vendor can be open besides. Where each message
carries at most one, as the vendor sends them, nothing else is open. -/
theorem no_descriptor_leaks (held : Finset ℕ) (k : Kernel Event) (hheld : Holds held k)
    (calls : List (Call Event)) :
    Accounts answers (holds held calls (run answers k calls).1) (run answers k calls).2 ∧
      ((∀ fd, ¬ answers.passesSecond fd) →
        Holds (holds held calls (run answers k calls).1) (run answers k calls).2) := by
  have haccounts := run_accounts answers (Holds.accounts hheld) calls
  exact ⟨haccounts, haccounts.holds⟩

def demoFds (fd : ℕ) : Option ℕ := if fd = 3 then some 0 else if fd = 4 then some 1 else none

theorem demoFds_lt (fd i : ℕ) (h : demoFds fd = some i) : i < 2 := by
  unfold demoFds at h
  split_ifs at h
  · cases h
    exact Nat.zero_lt_two
  · cases h
    exact Nat.one_lt_two

def demoProcess : Kernel Unit where
  table :=
    { fds := demoFds
      files := fun i => if i = 0 then .socket ⟨.afInet, .sockStream, .created true, none⟩
        else .epoll
      next := 2
      watches := []
      fds_lt := demoFds_lt }
  clock := 0
  connects := []
  handshakes := []
  requests := []

def demoConnection : SocketFile :=
  ⟨.afVsock, .sockStream, .created false, some (.proxy (getProxyVsockAddr fun _ => none))⟩

def demoAnswers (response : MessageType) : Answers where
  getenv := fun _ => none
  socket := fun t => some (7 + t)
  dup2 := fun _ => true
  connect := fun _ => true
  send := fun _ data => data.length
  malloc := fun _ _ => true
  inbox := fun _ =>
    [.segment 0x05 [0x00, 0x05, 0x00, 0x00, 0x01, 0x00, 0x00, 0x00, 0x00, 0x00, 0x00]]
  vendorSend := fun _ => true
  vendorRecv := fun _ => some response
  recvmsg := fun _ => some (List.Vector.replicate 24 0x00, .rights 6 demoConnection none)
  accept := fun _ => none
  epollCtl := fun _ => true
  ioctl := fun _ => (0, false)
  libc := fun _ => 0
  flowinfo := 0x00 ::ᵥ 0x00 ::ᵥ 0x00 ::ᵥ 0x00 ::ᵥ .nil
  scopeId := 0x00 ::ᵥ 0x00 ::ᵥ 0x00 ::ᵥ 0x00 ::ᵥ .nil

def demoAddr : SockAddr :=
  .inet (0x0a ::ᵥ 0x00 ::ᵥ 0x00 ::ᵥ 0x07 ::ᵥ .nil) (0x01 ::ᵥ 0xbb ::ᵥ .nil)

theorem demo_holds : Holds {3, 4} demoProcess := by
  intro fd
  simp only [demoProcess, demoFds, Finset.mem_insert, Finset.mem_singleton]
  split_ifs <;> simp_all

theorem not_passesSecond_demoAnswers (response : MessageType) (fd : ℕ) :
    ¬ (demoAnswers response).passesSecond fd := by
  rintro ⟨t, resp, first, s₁, s₂, ⟨⟩⟩

def demoCalls : List (Call Unit) :=
  [.bind 3 demoAddr, .accept4 3 0 none, .socket .afInet .sockStream false, .connect 13 demoAddr,
    .close 3]

theorem demo_no_descriptor_leaks : Holds {3, 4} demoProcess ∧
    (run (demoAnswers .kBindResponse) demoProcess demoCalls).1 = [0, 6, 13, 0, 0] ∧
    Holds {4, 6, 13} (run (demoAnswers .kBindResponse) demoProcess demoCalls).2 := by
  have hrets : (run (demoAnswers .kBindResponse) demoProcess demoCalls).1 = [0, 6, 13, 0, 0] := by
    decide +kernel
  have hledger : holds {3, 4} demoCalls
      (run (demoAnswers .kBindResponse) demoProcess demoCalls).1 = {4, 6, 13} := by
    rw [hrets]
    decide +kernel
  refine ⟨demo_holds, hrets, ?_⟩
  rw [← hledger]
  exact (no_descriptor_leaks (demoAnswers .kBindResponse) {3, 4} demoProcess demo_holds
    demoCalls).2 (not_passesSecond_demoAnswers .kBindResponse)

/-- The vendor passes descriptor 5 along with the connection. -/
def demoSurplus : Answers :=
  { demoAnswers .kBindResponse with
    recvmsg := fun _ => some (List.Vector.replicate 24 0x00,
      .rights 6 demoConnection (some (5, demoConnection))) }

-- The application is not told of the descriptor, which stays open.
example : holds {3, 4} demoCalls (run demoSurplus demoProcess demoCalls).1 = {4, 6, 13} ∧
    ((run demoSurplus demoProcess demoCalls).2.table.fds 5).isSome = true := by
  decide +kernel

end PublicEndorsement.Proxy.Preload
