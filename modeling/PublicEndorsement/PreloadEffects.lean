import PublicEndorsement.PreloadHooks

/-!
# What a hook does to the process

A hook works on the socket behind the descriptor it is given: it changes the socket, or it
puts a new one in its place. The other descriptors are left alone, what is opened on the way
is closed again, and no TCP connection is asked for directly.
-/

namespace PublicEndorsement.Proxy.Preload

open DescriptorTable

variable {Event α β : Type} {fd : ℕ} {k k' k'' : Kernel Event}

theorem bind_apply (x : Sys Event α) (f : α → Sys Event β) (k : Kernel Event) :
    (x >>= f) k = f (x k).1 (x k).2 := rfl

theorem autoClose_apply (fd : ℕ) (block : Sys Event α) (k : Kernel Event) :
    autoClose fd block k = ((block k).1, (close fd (block k).2).2) := rfl

/-! ## Direct connections -/

/-- The sockets for which `connect` does not leave an IP address to libc. -/
def SocketFile.isTcp (s : SocketFile) : Bool :=
  decide (s.type = .sockStream ∧
    (s.domain = .afInet ∨ s.domain = .afInet6 ∨ s.domain = .afVsock))

def ConnectCall.isDirect (c : ConnectCall) : Bool :=
  c.socket.any SocketFile.isTcp &&
    match c.target with
    | .app addr => addr.isInet
    | _ => false

def NoDirect (k k' : Kernel Event) : Prop :=
  ∃ new, k'.connects = k.connects ++ new ∧ ∀ c ∈ new, c.isDirect = false

theorem NoDirect.of_eq (h : k'.connects = k.connects) : NoDirect k k' :=
  ⟨[], by simp [h], by simp⟩

theorem NoDirect.trans (h : NoDirect k k') (h' : NoDirect k' k'') : NoDirect k k'' := by
  obtain ⟨new, hnew, hall⟩ := h
  obtain ⟨new', hnew', hall'⟩ := h'
  refine ⟨new ++ new', by rw [hnew', hnew, List.append_assoc], ?_⟩
  exact fun c hc => (List.mem_append.mp hc).elim (hall c) (hall' c)

/-! ## The socket behind a descriptor -/

/-- A socket stays a socket, and is changed as `R` says; no other file becomes one. -/
def OnSocket (R : SocketFile → SocketFile → Prop) (f f' : File) : Prop :=
  (∀ s, f = .socket s → ∃ s', f' = .socket s' ∧ R s s') ∧ (f.socket? = none → f'.socket? = none)

theorem OnSocket.refl (f : File) : OnSocket Eq f f := ⟨fun s hs => ⟨s, hs, rfl⟩, id⟩

abbrev Keeps (R : SocketFile → SocketFile → Prop) (fd : ℕ) (k k' : Kernel Event) : Prop :=
  Kept (OnSocket R) fd k.table k'.table

abbrev Replaces (R : SocketFile → SocketFile → Prop) (fd : ℕ) (k k' : Kernel Event) : Prop :=
  Replaced (OnSocket R) fd k.table k'.table

theorem lookup_of_socketAt {s : SocketFile} (h : k.socketAt fd = some s) :
    k.table.lookup fd = some (.socket s) := by
  obtain ⟨f, hf, hs⟩ := Option.bind_eq_some_iff.mp h
  cases f with
  | socket s' => rw [hf, Option.some_injective _ hs]
  | epoll => cases hs
  | other => cases hs

theorem socketAt_of_lookup {s : SocketFile} (h : k.table.lookup fd = some (.socket s)) :
    k.socketAt fd = some s := by
  rw [Kernel.socketAt, h]
  rfl

theorem socketAt_modifySocket (k : Kernel Event) (fd : ℕ) (change : SocketFile → SocketFile) :
    (k.modifySocket fd change).socketAt fd = (k.socketAt fd).map change := by
  unfold Kernel.socketAt Kernel.modifySocket
  rw [lookup_modify]
  cases k.table.lookup fd with
  | none => rfl
  | some f => cases f <;> rfl

section Relations

variable {R S T : SocketFile → SocketFile → Prop}

theorem OnSocket.comp (hT : ∀ s s' s'', R s s' → S s' s'' → T s s'') (f f' f'' : File)
    (h : OnSocket R f f') (h' : OnSocket S f' f'') : OnSocket T f f'' := by
  refine ⟨fun s hs => ?_, fun hother => h'.2 (h.2 hother)⟩
  obtain ⟨s', hs', hR⟩ := h.1 s hs
  obtain ⟨s'', hs'', hS⟩ := h'.1 s' hs'
  exact ⟨s'', hs'', hT s s' s'' hR hS⟩

theorem OnSocket.weaken {f f' : File} (h : OnSocket R f f') (hf : k.table.lookup fd = some f)
    (hS : ∀ s s', k.socketAt fd = some s → R s s' → S s s') : OnSocket S f f' := by
  refine ⟨?_, h.2⟩
  rintro s rfl
  obtain ⟨s', hs', hR⟩ := h.1 s rfl
  exact ⟨s', hs', hS s s' (socketAt_of_lookup hf) hR⟩

theorem Keeps.comp (h : Keeps R fd k k') (h' : Keeps S fd k' k'')
    (hT : ∀ s s' s'', R s s' → S s' s'' → T s s'') : Keeps T fd k k'' :=
  Kept.trans h h' (OnSocket.comp hT)

theorem Keeps.weaken (h : Keeps R fd k k')
    (hS : ∀ s s', k.socketAt fd = some s → R s s' → S s s') : Keeps S fd k k' :=
  Kept.mono h (fun _ _ hf hR => hR.weaken hf hS)

theorem Replaces.weaken (h : Replaces R fd k k')
    (hS : ∀ s s', k.socketAt fd = some s → R s s' → S s s') : Replaces S fd k k' :=
  Replaced.mono h (fun _ _ hf hR => hR.weaken hf hS)

theorem Replaces.comp (h : Replaces R fd k k') (h' : Keeps S fd k' k'')
    (hT : ∀ s s' s'', R s s' → S s' s'' → T s s'') : Replaces T fd k k'' :=
  Replaced.trans h h' (OnSocket.comp hT)

/-- What is known of the socket now, and what it has become. -/
theorem Keeps.socketAt (h : Keeps R fd k k') {s : SocketFile} (hs : k.socketAt fd = some s) :
    ∃ s', k'.socketAt fd = some s' ∧ R s s' := by
  obtain ⟨f', hf', hfile⟩ := h.file _ (lookup_of_socketAt hs)
  obtain ⟨s', rfl, hR⟩ := hfile.1 s rfl
  exact ⟨s', socketAt_of_lookup hf', hR⟩

theorem Replaces.socketAt (h : Replaces R fd k k') {s : SocketFile}
    (hs : k.socketAt fd = some s) : ∃ s', k'.socketAt fd = some s' ∧ R s s' := by
  obtain ⟨f', hf', hfile⟩ := h.file _ (lookup_of_socketAt hs)
  obtain ⟨s', rfl, hR⟩ := hfile.1 s rfl
  exact ⟨s', socketAt_of_lookup hf', hR⟩

theorem Keeps.of_eq (h : k'.table = k.table) : Keeps Eq fd k k' := by
  rw [Keeps, h]
  exact (Kept.refl k.table fd).mono (fun f f' _ hff' => hff' ▸ .refl f)

theorem Keeps.modifySocket (k : Kernel Event) (fd : ℕ) (change : SocketFile → SocketFile) :
    Keeps (fun s s' => s' = change s) fd k (k.modifySocket fd change) := by
  refine (Kept.modify k.table fd (File.mapSocket change)).mono ?_
  rintro f f' - rfl
  cases f with
  | socket s =>
    refine ⟨?_, by rintro ⟨⟩⟩
    rintro s ⟨⟩
    exact ⟨change s, rfl, rfl⟩
  | epoll => exact ⟨by rintro s ⟨⟩, id⟩
  | other => exact ⟨by rintro s ⟨⟩, id⟩

end Relations

/-! ## The system calls -/

variable (answers : Answers)

theorem keeps_setfl (fd : ℕ) (arg : BitVec 32) (k : Kernel Event) :
    Keeps (fun s s' => s' = s.setfl arg) fd k (setfl fd arg k).2 :=
  Keeps.modifySocket k fd _

structure Stays (s s' : SocketFile) : Prop where
  domain : s'.domain = s.domain
  type : s'.type = s.type
  flags : s'.flags = s.flags

theorem Stays.of_eq (s s' : SocketFile) (h : s = s') : Stays s s' := h ▸ ⟨rfl, rfl, rfl⟩

theorem keeps_libcConnect (fd : ℕ) (target : Target) (k : Kernel Event) :
    Keeps Stays fd k (libcConnect answers fd target k).2 := by
  unfold libcConnect
  dsimp only
  split_ifs
  · refine Keeps.comp (Keeps.of_eq rfl) (Keeps.modifySocket _ fd _) ?_
    rintro s s' s'' rfl rfl
    exact ⟨rfl, rfl, rfl⟩
  · exact (Keeps.of_eq rfl).weaken (fun s s' _ h => .of_eq s s' h)

theorem libcConnect_clock (fd : ℕ) (target : Target) (k : Kernel Event) :
    (libcConnect answers fd target k).2.clock = k.clock + 1 := by
  unfold libcConnect
  dsimp only
  split_ifs <;> rfl

theorem libcConnect_handshakes (fd : ℕ) (target : Target) (k : Kernel Event) :
    (libcConnect answers fd target k).2.handshakes = k.handshakes := by
  unfold libcConnect
  dsimp only
  split_ifs <;> rfl

theorem noDirect_libcConnect {target : Target}
    (h : ConnectCall.isDirect ⟨k.socketAt fd, target⟩ = false) :
    NoDirect k (libcConnect answers fd target k).2 := by
  refine ⟨[⟨k.socketAt fd, target⟩], ?_, by simpa using h⟩
  unfold libcConnect
  dsimp only
  split_ifs <;> rfl

theorem socketAt_libcConnect {target : Target} (h : ¬ (libcConnect answers fd target k).1 < 0) :
    ∃ s, k.socketAt fd = some s ∧ s.reaches target = true ∧
      (libcConnect answers fd target k).2.socketAt fd = some (s.connected target) := by
  unfold libcConnect at h ⊢
  dsimp only at h ⊢
  split_ifs at h ⊢ with hok
  · obtain ⟨s, hs, hreaches⟩ := (Option.any_eq_true _ _).mp (Bool.and_eq_true_iff.mp hok).1
    refine ⟨s, hs, hreaches, ?_⟩
    rw [socketAt_modifySocket]
    exact congrArg _ hs
  · exact absurd (by decide : (-1 : ℤ) < 0) h

theorem vendorSend_table (request : VendorRequest) (k : Kernel Event) :
    (vendorSend answers request k).2.table = k.table := by
  unfold vendorSend
  split_ifs <;> rfl

theorem vendorSend_connects (request : VendorRequest) (k : Kernel Event) :
    (vendorSend answers request k).2.connects = k.connects := by
  unfold vendorSend
  split_ifs <;> rfl

theorem install_of_unused (hfd : k.table.fds fd = none) (f : File) :
    k.install fd f = some (k.withTable (k.table.install fd f)) := if_pos hfd

theorem install_of_used (hfd : k.table.fds fd ≠ none) (f : File) : k.install fd f = none :=
  if_neg hfd

theorem socket_cases (domain : Domain) (type : SockType) (nonblock : Bool) (k : Kernel Event) :
    socket answers domain type nonblock k = (none, k.tick) ∨
      ∃ v, k.table.fds v = none ∧ socket answers domain type nonblock k = (some v,
        k.withTable (k.table.install v (.socket ⟨domain, type, .created nonblock, none⟩))) := by
  unfold socket
  cases answers.socket k.clock with
  | none => exact .inl rfl
  | some v =>
    by_cases hv : k.table.fds v = none
    · exact .inr ⟨v, hv, by simp only [install_of_unused hv]⟩
    · exact .inl (by simp only [install_of_used hv])

theorem dup2_cases (old fd : ℕ) (k : Kernel Event) :
    dup2 answers old fd k = (-1, k.tick) ∨
      dup2 answers old fd k = ((fd : ℤ), k.withTable (k.table.dup2 old fd)) := by
  unfold dup2
  split_ifs
  · exact .inr rfl
  · exact .inl rfl

/-! ## A socket in the place of another -/

/-- Time may have passed, but nobody was asked for a connection. -/
structure Quiet (k k' : Kernel Event) : Prop where
  connects : k'.connects = k.connects
  handshakes : k'.handshakes = k.handshakes
  clock_le : k.clock ≤ k'.clock

def SocketFile.fresh (domain : Domain) : SocketFile := ⟨domain, .sockStream, .created false, none⟩

/-- Either there is no new socket, or the rest is done with it behind `fd`. -/
theorem replaceSocket_cases {s : SocketFile} (hs : k.socketAt fd = some s) (domain : Domain)
    (fail : α) (rest : BitVec 32 → Sys Event α) :
    (∃ k', replaceSocket answers domain fd fail rest k = (fail, k') ∧ Keeps Eq fd k k' ∧
        Quiet k k') ∨
      ∃ v k', k.table.fds v = none ∧ Quiet k k' ∧
        k'.table = (k.table.install v (.socket (.fresh domain))).dup2 v fd ∧
        replaceSocket answers domain fd fail rest k =
          ((rest s.flags.bits k').1, (close v (rest s.flags.bits k').2).2) := by
  unfold replaceSocket
  rw [bind_apply]
  rcases socket_cases answers domain .sockStream false k with hsocket | ⟨v, hv, hsocket⟩
  · rw [hsocket]
    exact .inl ⟨k.tick, rfl, Keeps.of_eq rfl, rfl, rfl, Nat.le_succ _⟩
  obtain ⟨k₁, hk₁⟩ : ∃ k₁, k₁ = k.withTable (k.table.install v (.socket (.fresh domain))) :=
    ⟨_, rfl⟩
  have hne := ne_of_isOpen (isOpen_of_lookup (lookup_of_socketAt hs)) hv
  have hgetfl : getfl fd k₁ = (s.flags.bits, k₁) := by
    have hat : k₁.socketAt fd = some s := by
      apply socketAt_of_lookup
      rw [hk₁, ← lookup_of_socketAt hs]
      exact lookup_install_of_ne hne _
    simp [getfl, hat]
  have hsocket' : socket answers domain .sockStream false k = (some v, k₁) := hk₁ ▸ hsocket
  have hquiet : ∀ k' : Kernel Event, k₁.clock ≤ k'.clock → k'.connects = k₁.connects →
      k'.handshakes = k₁.handshakes → Quiet k k' := by
    rw [hk₁]
    exact fun k' hclock hconnects hhandshakes =>
      ⟨hconnects, hhandshakes, (Nat.le_succ _).trans hclock⟩
  rw [hsocket']
  dsimp only
  rw [autoClose_apply, bind_apply, hgetfl, bind_apply]
  rcases dup2_cases answers v fd k₁ with hdup | hdup
  · refine .inl ⟨(close v k₁.tick).2, by rw [hdup]; rfl, ?_, hquiet _ (Nat.le_succ _) rfl rfl⟩
    rw [hk₁]
    exact (Kept.install_close hv _ fd).mono (fun f f' _ hff' => hff' ▸ .refl f)
  · have hpos : ¬ (fd : ℤ) < 0 := not_lt.mpr (Int.natCast_nonneg fd)
    refine .inr ⟨v, k₁.withTable (k₁.table.dup2 v fd), hv, hquiet _ (Nat.le_succ _) rfl rfl,
      by rw [hk₁]; rfl, ?_⟩
    rw [hdup]
    simp only [if_neg hpos]

/-- What is done with the new socket shows in the process once the rest is over. -/
theorem replaces_of_rest {s : SocketFile} (hs : k.socketAt fd = some s) {v : ℕ}
    (hv : k.table.fds v = none) {domain : Domain} {R : SocketFile → SocketFile → Prop}
    (htable : k'.table = (k.table.install v (.socket (.fresh domain))).dup2 v fd)
    (hrest : Keeps R fd k' k'') :
    Replaces (fun _ s' => R (.fresh domain) s') fd k (close v k'').2 := by
  rw [Keeps, htable] at hrest
  have hreplaced := hrest.replaced hv (isOpen_of_lookup (lookup_of_socketAt hs))
  refine hreplaced.mono ?_
  intro f f' hf hnew
  rw [lookup_of_socketAt hs] at hf
  refine ⟨fun _ _ => hnew.1 (.fresh domain) rfl, ?_⟩
  rw [← Option.some_injective _ hf]
  rintro ⟨⟩

/-! ## The flags -/

namespace SocketFlags

theorem bits_and_oDirect (g : SocketFlags) : g.bits &&& oDirect = 0 := by
  have hmask : ~~~setflMask &&& oDirect = oDirect := by decide
  rw [← hmask, ← BitVec.and_assoc, g.access]
  decide

/-- The flags that were read are set again. -/
@[simp] theorem setfl_bits (f g : SocketFlags) : f.setfl g.bits = g := by
  rw [setfl, if_pos g.bits_and_oDirect]
  apply SocketFlags.ext
  change oRdwr ||| (g.bits &&& setflMask) = g.bits
  have hall : ~~~setflMask ||| setflMask = BitVec.allOnes 32 := by decide
  rw [← g.access, ← BitVec.and_or_distrib_left, hall, BitVec.and_allOnes]

/-- The -1 of a failed call is refused, with or without `O_NONBLOCK`. -/
theorem setfl_failed (f : SocketFlags) :
    f.setfl (-1) = f ∧ f.setfl (-1 &&& ~~~oNonblock) = f :=
  ⟨if_neg (by decide), if_neg (by decide)⟩

end SocketFlags

structure Converted (s s' : SocketFile) : Prop where
  domain : s'.domain = .afVsock
  type : s'.type = .sockStream
  flags : s'.flags = s.flags

/-- The sockets that `ConvertToVsock` is called for. -/
def SocketFile.isIp (s : SocketFile) : Bool :=
  decide (s.type = .sockStream ∧ (s.domain = .afInet ∨ s.domain = .afInet6))

theorem convertToVsock_cases {s : SocketFile} (hs : k.socketAt fd = some s) :
    Quiet k (convertToVsock answers fd k).2 ∧
      ((convertToVsock answers fd k).1 = -1 ∧ Keeps Eq fd k (convertToVsock answers fd k).2 ∨
        (convertToVsock answers fd k).1 = s.flags.bits ∧
          Replaces (fun _ s' => s' = .fresh .afVsock) fd k (convertToVsock answers fd k).2) := by
  unfold convertToVsock
  rcases replaceSocket_cases answers hs .afVsock (-1) (fun flags => pure flags) with
    ⟨k', hrun, hkeeps, hquiet⟩ | ⟨v, k', hv, hquiet, htable, hrun⟩
  · rw [hrun]
    exact ⟨hquiet, .inl ⟨rfl, hkeeps⟩⟩
  · rw [hrun]
    refine ⟨⟨hquiet.connects, hquiet.handshakes, hquiet.clock_le⟩, .inr ⟨rfl, ?_⟩⟩
    exact (replaces_of_rest hs hv htable (Keeps.of_eq rfl)).weaken (fun s s' _ h => h.symm)

/-- The flags in between are not seen any more afterwards. -/
theorem keeps_connectByProxy (fd : ℕ) (fl : BitVec 32) (addr : SockAddr) (k : Kernel Event) :
    Keeps (fun s s' => s'.domain = s.domain ∧ s'.type = s.type ∧
        s'.flags = (s.flags.setfl (fl &&& ~~~oNonblock)).setfl fl) fd k
      (connectByProxy answers fd fl addr k).2 := by
  have hconnect := (keeps_setfl fd (fl &&& ~~~oNonblock) k).comp
    (keeps_libcConnect answers fd (.proxy (getProxyVsockAddr answers.getenv)) _)
    (T := fun s s' => s'.domain = s.domain ∧ s'.type = s.type ∧
      s'.flags = s.flags.setfl (fl &&& ~~~oNonblock))
    (by rintro s s' s'' rfl h; exact ⟨h.domain, h.type, h.flags⟩)
  unfold connectByProxy
  rw [bind_apply, bind_apply]
  split_ifs
  · refine hconnect.comp (keeps_setfl fd fl _) ?_
    rintro s s' s'' ⟨hdomain, htype, hflags⟩ rfl
    exact ⟨hdomain, htype, by rw [SocketFile.setfl_flags, hflags]⟩
  · refine hconnect.comp (keeps_setfl fd fl _) ?_
    rintro s s' s'' ⟨hdomain, htype, hflags⟩ rfl
    exact ⟨hdomain, htype, by rw [SocketFile.setfl_flags, hflags]⟩

theorem noDirect_connectByProxy (fd : ℕ) (fl : BitVec 32) (addr : SockAddr) (k : Kernel Event) :
    NoDirect k (connectByProxy answers fd fl addr k).2 := by
  have hconnect : NoDirect (setfl fd (fl &&& ~~~oNonblock) k).2 (libcConnect answers fd
      (.proxy (getProxyVsockAddr answers.getenv)) (setfl fd (fl &&& ~~~oNonblock) k).2).2 :=
    noDirect_libcConnect answers (Bool.and_false _)
  unfold connectByProxy
  rw [bind_apply, bind_apply]
  split_ifs
  · exact hconnect
  · exact hconnect

def SocketFile.isProxied (s : SocketFile) : Prop :=
  s.domain = .afVsock ∧ s.peer = some (.proxy (getProxyVsockAddr answers.getenv))

/-- The one handshake on the way from `k` to `k'` was made through the proxy for `addr`: the
whole request was sent, and the replies to it granted the connection. -/
structure Granted (addr : SockAddr) (fd : ℕ) (k k' : Kernel Event) : Prop where
  socket : ∃ s, k'.socketAt fd = some s ∧ s.isProxied answers
  handshake : ∃ h : ClientHandshake, k'.handshakes = k.handshakes ++ [h] ∧
    k.clock ≤ h.time ∧ h.time < k'.clock ∧ h.addr = addr ∧
    (∃ s, h.socket = some s ∧ s.isProxied answers) ∧
    (h.result answers).sent = [0x05, 0x01, 0x00, 0x05, 0x01, 0x00] ++ fillAddrPort addr ∧
    answers.send h.time (h.result answers).sent = (h.result answers).sent.length ∧
    (answers.inbox h.time).bytes.take 5 = [0x05, 0x00, 0x05, 0x00, 0x00]

theorem Granted.of_quiet {addr : SockAddr} (h : Quiet k k') (h' : Granted answers addr fd k' k'') :
    Granted answers addr fd k k'' := by
  obtain ⟨handshake, hlog, hafter, hrest⟩ := h'.handshake
  exact ⟨h'.socket, handshake, h.handshakes ▸ hlog, h.clock_le.trans hafter, hrest⟩

theorem granted_of_connectByProxy {s : SocketFile} (hs : k.socketAt fd = some s)
    (htype : s.type = .sockStream) {fl : BitVec 32} {addr : SockAddr}
    (haddr : addr.isInet = true) (hret : (connectByProxy answers fd fl addr k).1 = 0) :
    Granted answers addr fd k (connectByProxy answers fd fl addr k).2 := by
  unfold connectByProxy at hret ⊢
  rw [bind_apply, bind_apply] at hret ⊢
  split_ifs at hret ⊢ with hconnect
  · cases hret
  obtain ⟨s₁, hs₁, hreaches, hs₂⟩ := socketAt_libcConnect answers hconnect
  obtain rfl : s.setfl (fl &&& ~~~oNonblock) = s₁ := by
    rw [setfl, socketAt_modifySocket, hs] at hs₁
    exact Option.some_injective _ hs₁
  have hvsock : s.domain = .afVsock := by
    rcases of_decide_eq_true hreaches htype with hdomain | ⟨hunspec, -⟩
    · exact hdomain.symm
    · cases hunspec
  have hproxied : ∀ arg, (SocketFile.connected (s.setfl arg)
      (.proxy (getProxyVsockAddr answers.getenv))).isProxied answers := fun _ => ⟨hvsock, rfl⟩
  have hclock := libcConnect_clock answers fd (.proxy (getProxyVsockAddr answers.getenv))
    (setfl fd (fl &&& ~~~oNonblock) k).2
  have hlog := libcConnect_handshakes answers fd (.proxy (getProxyVsockAddr answers.getenv))
    (setfl fd (fl &&& ~~~oNonblock) k).2
  refine ⟨?_, ⟨_, _, addr⟩, congrArg (· ++ _) hlog, hclock.ge.trans' (Nat.le_succ _),
    Nat.lt_succ_self _, rfl, ⟨_, hs₂, hproxied _⟩, socks5ClientConnect_sent haddr,
    replies_of_ret_eq_zero haddr hret⟩
  obtain ⟨s', hs', rfl⟩ := (keeps_setfl fd fl _).socketAt hs₂
  exact ⟨_, hs', hvsock, rfl⟩

/-- What comes of a socket that is to be a VSOCK one: a TCP socket may be replaced, any other
socket stays. -/
def Routed (fd : ℕ) (k k' : Kernel Event) : Prop :=
  Keeps Stays fd k k' ∨
    (k.socketAt fd).any SocketFile.isIp = true ∧ Replaces Converted fd k k'

theorem connect_of_not_isTcp {addr : SockAddr}
    (h : (k.socketAt fd).any SocketFile.isTcp = false ∨ addr.isInet = false) :
    connect answers fd addr k = libcConnect answers fd (.app addr) k := by
  unfold connect
  rw [bind_apply, bind_apply]
  simp only [soType, soDomain]
  cases hs : k.socketAt fd with
  | none => rfl
  | some s =>
    rw [hs] at h
    simp only [Option.map_some]
    rw [if_pos]
    simp only [Option.any_some, SocketFile.isTcp, decide_eq_false_iff_not] at h
    grind

theorem connect_of_isTcp {addr : SockAddr} {s : SocketFile} (hs : k.socketAt fd = some s)
    (htcp : s.isTcp = true) (haddr : addr.isInet = true) :
    connect answers fd addr k =
      if s.domain = .afVsock then connectByProxy answers fd s.flags.bits addr k
      else connectByProxy answers fd (convertToVsock answers fd k).1 addr
        (convertToVsock answers fd k).2 := by
  unfold connect
  rw [bind_apply, bind_apply]
  simp only [soType, soDomain, hs, Option.map_some]
  rw [if_neg]
  · split_ifs
    · rw [bind_apply]
      simp [getfl, hs]
    · rw [bind_apply]
  · simp only [SocketFile.isTcp, decide_eq_true_eq] at htcp
    grind

/-- The flags that were read before are the ones set in the end. -/
theorem routed_connectByProxy {s : SocketFile} (hs : k.socketAt fd = some s)
    (hip : s.isIp = true) (addr : SockAddr) :
    Routed fd k (connectByProxy answers fd (convertToVsock answers fd k).1 addr
      (convertToVsock answers fd k).2).2 := by
  rcases (convertToVsock_cases answers hs).2 with ⟨hfl, hkeeps⟩ | ⟨hfl, hreplaces⟩
  · rw [hfl]
    refine .inl (Keeps.comp hkeeps (keeps_connectByProxy answers fd (-1) addr _) ?_)
    rintro s s' s'' rfl ⟨hdomain, htype, hflags⟩
    obtain ⟨hall, hblocking⟩ := s.flags.setfl_failed
    rw [hblocking, hall] at hflags
    exact ⟨hdomain, htype, hflags⟩
  · rw [hfl]
    have hwork := hreplaces.comp (keeps_connectByProxy answers fd s.flags.bits addr _)
      (fun _ s' s'' hs' hs'' => hs' ▸ hs'')
    refine .inr ⟨by simp [hs, hip], Replaces.weaken hwork ?_⟩
    rintro s₀ s' hs₀ ⟨hdomain, htype, hflags⟩
    rw [SocketFlags.setfl_bits] at hflags
    rw [hs] at hs₀
    exact ⟨hdomain, htype, hflags.trans (congrArg SocketFile.flags (Option.some_injective _ hs₀))⟩

/-- A TCP connection to an IP address that is reported as made. -/
theorem granted_of_connect {s : SocketFile} (hs : k.socketAt fd = some s) (htcp : s.isTcp = true)
    {addr : SockAddr} (haddr : addr.isInet = true) (hret : (connect answers fd addr k).1 = 0) :
    Granted answers addr fd k (connect answers fd addr k).2 := by
  have htype : s.type = .sockStream := (of_decide_eq_true htcp).1
  rw [connect_of_isTcp answers hs htcp haddr] at hret ⊢
  split_ifs at hret ⊢
  · exact granted_of_connectByProxy answers hs htype haddr hret
  · obtain ⟨hquiet, ⟨-, hkeeps⟩ | ⟨-, hreplaces⟩⟩ := convertToVsock_cases answers hs
    · obtain ⟨s₁, hs₁, rfl⟩ := hkeeps.socketAt hs
      exact .of_quiet answers hquiet (granted_of_connectByProxy answers hs₁ htype haddr hret)
    · obtain ⟨s₁, hs₁, rfl⟩ := Replaces.socketAt hreplaces hs
      exact .of_quiet answers hquiet (granted_of_connectByProxy answers hs₁ rfl haddr hret)

theorem noDirect_connect (fd : ℕ) (addr : SockAddr) (k : Kernel Event) :
    NoDirect k (connect answers fd addr k).2 := by
  by_cases h : (k.socketAt fd).any SocketFile.isTcp = true ∧ addr.isInet = true
  · obtain ⟨s, hs, htcp⟩ := (Option.any_eq_true _ _).mp h.1
    rw [connect_of_isTcp answers hs htcp h.2]
    split_ifs
    · exact noDirect_connectByProxy answers fd _ addr k
    · exact (NoDirect.of_eq (convertToVsock_cases answers hs).1.connects).trans
        (noDirect_connectByProxy answers fd _ addr _)
  · have hlibc : (k.socketAt fd).any SocketFile.isTcp = false ∨ addr.isInet = false := by
      grind
    rw [connect_of_not_isTcp answers hlibc]
    refine noDirect_libcConnect answers ?_
    rcases hlibc with hlibc | hlibc <;> simp [ConnectCall.isDirect, hlibc]

theorem routed_connect (fd : ℕ) (addr : SockAddr) (k : Kernel Event) :
    Routed fd k (connect answers fd addr k).2 := by
  by_cases h : (k.socketAt fd).any SocketFile.isTcp = true ∧ addr.isInet = true
  · obtain ⟨s, hs, htcp⟩ := (Option.any_eq_true _ _).mp h.1
    rw [connect_of_isTcp answers hs htcp h.2]
    split_ifs with hvsock
    · refine .inl ((keeps_connectByProxy answers fd _ addr k).weaken ?_)
      rintro s₀ s' hs₀ ⟨hdomain, htype, hflags⟩
      rw [SocketFlags.setfl_bits] at hflags
      rw [hs] at hs₀
      exact ⟨hdomain, htype, hflags.trans (congrArg SocketFile.flags (Option.some_injective _ hs₀))⟩
    · refine routed_connectByProxy answers hs ?_ addr
      simp only [SocketFile.isTcp, SocketFile.isIp, decide_eq_true_eq] at htcp ⊢
      grind
  · have hlibc : (k.socketAt fd).any SocketFile.isTcp = false ∨ addr.isInet = false := by
      grind
    rw [connect_of_not_isTcp answers hlibc]
    exact .inl (keeps_libcConnect answers fd _ k)

/-! ## The other hooks -/

/-- A call of `epoll_ctl` itself is made once the socket has been routed. -/
theorem epollCtl_cases (epfd : ℕ) (op : EpollOp) (fd : ℕ) (event : Event) (k : Kernel Event) :
    ∃ k', Routed fd k k' ∧ k'.connects = k.connects ∧
      epollCtl answers epfd op fd event k = libcEpollCtl answers epfd op fd event k' := by
  have hlibc : Routed fd k k := .inl ((Keeps.of_eq rfl).weaken (fun s s' _ h => .of_eq s s' h))
  unfold epollCtl
  split_ifs with hop
  · exact ⟨k, hlibc, rfl, rfl⟩
  rw [bind_apply, bind_apply]
  simp only [soType, soDomain]
  cases hs : k.socketAt fd with
  | none => exact ⟨k, hlibc, rfl, rfl⟩
  | some s =>
    simp only [Option.map_some]
    split_ifs with hother
    · exact ⟨k, hlibc, rfl, rfl⟩
    refine ⟨(setfl fd (convertToVsock answers fd k).1 (convertToVsock answers fd k).2).2, ?_,
      (convertToVsock_cases answers hs).1.connects, rfl⟩
    rcases (convertToVsock_cases answers hs).2 with ⟨hfl, hkeeps⟩ | ⟨hfl, hreplaces⟩
    · rw [hfl]
      refine .inl (Keeps.comp hkeeps (keeps_setfl fd (-1) _) ?_)
      rintro s s' s'' rfl rfl
      exact ⟨rfl, rfl, s.flags.setfl_failed.1⟩
    · rw [hfl]
      have hip : s.isIp = true := by
        simp only [SocketFile.isIp, decide_eq_true_eq]
        grind
      refine .inr ⟨by simp [hs, hip], Replaces.weaken
        (hreplaces.comp (keeps_setfl fd s.flags.bits _) (fun _ s' s'' hs' hs'' => hs' ▸ hs'')) ?_⟩
      rintro s₀ s' hs₀ rfl
      rw [hs] at hs₀
      refine ⟨rfl, rfl, ?_⟩
      rw [SocketFile.setfl_flags, SocketFlags.setfl_bits, Option.some_injective _ hs₀]

theorem libcEpollCtl_cases (epfd : ℕ) (op : EpollOp) (fd : ℕ) (event : Event) (k : Kernel Event) :
    (libcEpollCtl answers epfd op fd event k).2.connects = k.connects ∧
      ((libcEpollCtl answers epfd op fd event k).2.table = k.table ∨
        ∃ epoll file watches, k.table.fds fd = some file ∧
          ctlWatches epoll file fd op event k.table.watches = some watches ∧
          (libcEpollCtl answers epfd op fd event k).2.table = k.table.setWatches watches) := by
  unfold libcEpollCtl
  cases k.table.fds epfd with
  | none => exact ⟨rfl, .inl rfl⟩
  | some epoll =>
    cases hfile : k.table.fds fd with
    | none => exact ⟨rfl, .inl rfl⟩
    | some file =>
      dsimp only
      cases hwatches : ctlWatches epoll file fd op event k.table.watches with
      | none => exact ⟨rfl, .inl rfl⟩
      | some watches =>
        dsimp only
        split_ifs
        · exact ⟨rfl, .inr ⟨epoll, file, watches, rfl, hwatches, rfl⟩⟩
        · exact ⟨rfl, .inl rfl⟩

structure Bound (ret : ℤ) (s s' : SocketFile) : Prop where
  domain : s'.domain = .afUnix
  type : s'.type = .sockStream
  flags : ret = 0 → s'.flags = s.flags

/-- The call returns 0 only after the flags have been set. -/
theorem keeps_requestBind (fd : ℕ) (port : UInt16) (fl : BitVec 32) (k : Kernel Event) :
    Keeps (fun s s' => s'.domain = s.domain ∧ s'.type = s.type ∧
        ((requestBind answers fd port fl k).1 = 0 → s'.flags = s.flags.setfl fl)) fd k
      (requestBind answers fd port fl k).2 := by
  have hconnect := keeps_libcConnect answers fd .vendor k
  have hsend : Keeps Stays fd k (vendorSend answers (.bindRequest port)
      (libcConnect answers fd .vendor k).2).2 := by
    rw [Keeps, vendorSend_table]
    exact hconnect
  unfold requestBind
  rw [bind_apply]
  split_ifs
  · exact hconnect.weaken (fun s s' _ h => ⟨h.domain, h.type, by rintro ⟨⟩⟩)
  rw [bind_apply]
  split_ifs
  · exact hsend.weaken (fun s s' _ h => ⟨h.domain, h.type, by rintro ⟨⟩⟩)
  rw [bind_apply]
  split_ifs
  · exact hsend.weaken (fun s s' _ h => ⟨h.domain, h.type, by rintro ⟨⟩⟩)
  · refine Keeps.comp hsend (keeps_setfl fd fl _) ?_
    rintro s s' s'' h rfl
    exact ⟨h.domain, h.type, fun _ => by rw [SocketFile.setfl_flags, h.flags]⟩

theorem noDirect_requestBind (fd : ℕ) (port : UInt16) (fl : BitVec 32) (k : Kernel Event) :
    NoDirect k (requestBind answers fd port fl k).2 := by
  have hconnect : NoDirect k (libcConnect answers fd .vendor k).2 :=
    noDirect_libcConnect answers (Bool.and_false _)
  have hsend := hconnect.trans (NoDirect.of_eq (vendorSend_connects answers (.bindRequest port) _))
  unfold requestBind
  rw [bind_apply]
  split_ifs
  · exact hconnect
  rw [bind_apply]
  split_ifs
  · exact hsend
  rw [bind_apply]
  split_ifs
  · exact hsend
  · exact hsend

theorem bindVendor_effect {s : SocketFile} (hs : k.socketAt fd = some s) (port : UInt16) :
    NoDirect k (bindVendor answers fd port k).2 ∧
      ((bindVendor answers fd port k).1 ≠ 0 ∧ Keeps Stays fd k (bindVendor answers fd port k).2 ∨
        Replaces (Bound (bindVendor answers fd port k).1) fd k
          (bindVendor answers fd port k).2) := by
  unfold bindVendor
  rcases replaceSocket_cases answers hs .afUnix (-1) (requestBind answers fd port) with
    ⟨k', hrun, hkeeps, hquiet⟩ | ⟨v, k', hv, hquiet, htable, hrun⟩
  · rw [hrun]
    refine ⟨.of_eq hquiet.connects, .inl ⟨by simp, ?_⟩⟩
    exact hkeeps.weaken (fun s s' _ h => .of_eq s s' h)
  · rw [hrun]
    refine ⟨(NoDirect.of_eq hquiet.connects).trans (noDirect_requestBind answers fd port _ k'),
      .inr ?_⟩
    refine (replaces_of_rest hs hv htable (keeps_requestBind answers fd port _ k')).weaken ?_
    rintro s₀ s' hs₀ ⟨hdomain, htype, hflags⟩
    rw [hs] at hs₀
    refine ⟨hdomain, htype, fun hret => ?_⟩
    rw [hflags hret, SocketFlags.setfl_bits, Option.some_injective _ hs₀]

theorem bind_cases (fd : ℕ) (addr : SockAddr) (k : Kernel Event) :
    bind answers fd addr k = libc answers k ∨
      ∃ s port, k.socketAt fd = some s ∧ s.isTcp = true ∧
        bind answers fd addr k = bindVendor answers fd port k := by
  unfold bind
  split_ifs
  · exact .inl rfl
  rw [bind_apply]
  split_ifs with htype
  · exact .inl rfl
  rw [bind_apply]
  cases hs : k.socketAt fd with
  | none => simp [soType, hs] at htype
  | some s =>
    obtain ⟨domain, type, flags, peer⟩ := s
    simp only [soType, soDomain, hs, Option.map_some, ne_eq, not_not, Option.some.injEq]
      at htype ⊢
    subst htype
    cases addr <;> cases domain <;> first
      | exact .inl rfl
      | exact .inr ⟨_, _, rfl, rfl, rfl⟩

/-- What is left of the flags if the vendor does not answer is not said here. -/
structure Listening (ret : ℤ) (s s' : SocketFile) : Prop where
  domain : s'.domain = s.domain
  type : s'.type = s.type
  flags : ret = 0 → s'.flags = s.flags

/-- The flags that are read before they are changed are the ones set in the end. -/
theorem keeps_awaitListen (fd : ℕ) (k : Kernel Event) :
    Keeps (Listening (awaitListen answers fd k).1) fd k (awaitListen answers fd k).2 := by
  have hblocking := keeps_setfl fd ((getfl fd k).1 &&& ~~~oNonblock) k
  unfold awaitListen
  rw [bind_apply, bind_apply, bind_apply]
  split_ifs
  · refine hblocking.weaken ?_
    rintro s s' - rfl
    exact ⟨rfl, rfl, by rintro ⟨⟩⟩
  · refine (Keeps.comp hblocking (keeps_setfl fd (getfl fd k).1 _)
      (fun s s' s'' hs' hs'' => hs' ▸ hs'')).weaken ?_
    rintro s s' hs rfl
    have hfl : (getfl fd k).1 = s.flags.bits := by simp [getfl, hs]
    refine ⟨rfl, rfl, fun _ => ?_⟩
    rw [hfl, SocketFile.setfl_flags, SocketFlags.setfl_bits]

theorem awaitListen_connects (fd : ℕ) (k : Kernel Event) :
    (awaitListen answers fd k).2.connects = k.connects := by
  unfold awaitListen
  rw [bind_apply, bind_apply, bind_apply]
  split_ifs <;> rfl

theorem listen_effect (fd : ℕ) (backlog : ℤ) (k : Kernel Event) :
    (listen answers fd backlog k).2.connects = k.connects ∧
      ((listen answers fd backlog k).2.table = k.table ∨
        Keeps (Listening (listen answers fd backlog k).1) fd k
          (listen answers fd backlog k).2) := by
  have hsend := vendorSend_table answers (.listenRequest backlog) k
  have hconnects := vendorSend_connects answers (.listenRequest backlog) k
  unfold listen
  rw [bind_apply]
  split_ifs
  · exact ⟨rfl, .inl rfl⟩
  rw [bind_apply]
  split_ifs
  · exact ⟨rfl, .inl rfl⟩
  rw [bind_apply]
  split_ifs
  · exact ⟨hconnects, .inl hsend⟩
  · refine ⟨(awaitListen_connects answers fd _).trans hconnects, .inr ?_⟩
    rw [Keeps, ← hsend]
    exact keeps_awaitListen answers fd _

/-! ## Accepting -/

/-- The message may have carried a second descriptor, which is opened along with the first. -/
def Second (k k' : Kernel Event) : Prop :=
  k'.table = k.table ∨
    ∃ (fd : ℕ) (s : SocketFile), answers.passesSecond fd ∧ Added fd (.socket s) k.table k'.table

theorem second_installSecond {t fd : ℕ} {resp : MicroBuffer} {s : SocketFile}
    {second : Option (ℕ × SocketFile)}
    (h : answers.recvmsg t = some (resp, .rights fd s second)) (k : Kernel Event) :
    Second answers k (k.installSecond second) := by
  cases second with
  | none => exact .inl rfl
  | some passed =>
    obtain ⟨fd₂, s₂⟩ := passed
    by_cases hfd : k.table.fds fd₂ = none
    · refine .inr ⟨fd₂, s₂, ⟨t, resp, fd, s, s₂, h⟩, ?_⟩
      rw [Kernel.installSecond, if_pos hfd]
      exact .install hfd _
    · rw [Kernel.installSecond, if_neg hfd]
      exact .inl rfl

theorem installSecond_connects (second : Option (ℕ × SocketFile)) (k : Kernel Event) :
    (k.installSecond second).connects = k.connects := by
  unfold Kernel.installSecond
  cases second with
  | none => rfl
  | some passed =>
    dsimp only
    split_ifs <;> rfl

/-- A descriptor is received only with `SCM_RIGHTS`. -/
theorem recvmsg_cases (k : Kernel Event) :
    (recvmsg answers k).2.connects = k.connects ∧
      ((recvmsg answers k).2.table = k.table ∧
          (∀ resp cmsg, (recvmsg answers k).1 = some (resp, some cmsg) →
            cmsg.isScmRights = false) ∨
        ∃ (fd : ℕ) (s : SocketFile) (resp : MicroBuffer) (k₁ : Kernel Event),
          (recvmsg answers k).1 = some (resp, some ⟨true, fd⟩) ∧
            Added fd (.socket s) k.table k₁.table ∧
            Second answers k₁ (recvmsg answers k).2) := by
  unfold recvmsg
  cases hmessage : answers.recvmsg k.clock with
  | none => exact ⟨rfl, .inl ⟨rfl, by rintro _ _ ⟨⟩⟩⟩
  | some message =>
    obtain ⟨resp, passed⟩ := message
    cases passed with
    | nothing => exact ⟨rfl, .inl ⟨rfl, by rintro _ _ ⟨⟩⟩⟩
    | otherControl fd =>
      refine ⟨rfl, .inl ⟨rfl, ?_⟩⟩
      rintro _ _ ⟨⟩
      rfl
    | rights fd s second =>
      dsimp only
      by_cases hfd : k.table.fds fd = none
      · rw [install_of_unused hfd]
        exact ⟨installSecond_connects second _, .inr ⟨fd, s, resp, _, rfl, .install hfd _,
          second_installSecond answers hmessage _⟩⟩
      · rw [install_of_used hfd]
        exact ⟨rfl, .inl ⟨rfl, by rintro _ _ ⟨⟩⟩⟩

theorem lookup_of_added {f : File} {j : ℕ} (h : Added fd f k.table k'.table)
    (hopen : (k.table.fds j).isSome = true) : k'.table.lookup j = k.table.lookup j := by
  refine lookup_congr ?_ (fun i hi => h.files i (k.table.fds_lt j i hi))
  rw [h.fds, Function.update_of_ne (ne_of_isOpen hopen h.unused)]

theorem lookup_of_second (h : Second answers k k') (hopen : (k.table.fds fd).isSome = true) :
    k'.table.lookup fd = k.table.lookup fd := by
  rcases h with htable | ⟨new, s, -, hadded⟩
  · rw [htable]
  · exact lookup_of_added hadded hopen

theorem Second.modifySocket (h : Second answers k k') (hopen : (k.table.fds fd).isSome = true)
    (change : SocketFile → SocketFile) :
    Second answers (k.modifySocket fd change) (k'.modifySocket fd change) := by
  rcases h with htable | ⟨new, s, hpassed, hadded⟩
  · exact .inl (by rw [Kernel.modifySocket, htable]; rfl)
  · exact .inr ⟨new, s, hpassed, hadded.modify_of_open hopen _⟩

def Accepted (ret : ℤ) (P : SocketFile → Prop) (k k' : Kernel Event) : Prop :=
  ret = -1 ∧ k'.table = k.table ∨
    ∃ (fd : ℕ) (s : SocketFile) (k₁ : Kernel Event), ret = fd ∧
      Added fd (.socket s) k.table k₁.table ∧ Second answers k₁ k' ∧ P s

theorem libcAccept4_cases (flags : BitVec 32) (k : Kernel Event) :
    (libcAccept4 answers flags k).2.connects = k.connects ∧
      Accepted answers (libcAccept4 answers flags k).1 (fun _ => True) k
        (libcAccept4 answers flags k).2 := by
  unfold libcAccept4
  cases answers.accept k.clock with
  | none => exact ⟨rfl, .inl ⟨rfl, rfl⟩⟩
  | some accepted =>
    obtain ⟨fd, domain, peer⟩ := accepted
    dsimp only
    by_cases hfd : k.table.fds fd = none
    · rw [install_of_unused hfd]
      exact ⟨rfl, .inr ⟨fd, _, _, rfl, .install hfd _, .inl rfl, trivial⟩⟩
    · rw [install_of_used hfd]
      exact ⟨rfl, .inl ⟨rfl, rfl⟩⟩

/-- Both tests of `accept4` hold whatever the flags are. -/
theorem acceptModes_eq (fl flags : BitVec 32) :
    acceptModes fl flags = fl ||| fdCloexec ||| oNonblock := by
  have hcloexec : flags ||| sockCloexec ≠ 0 := by
    intro h
    exact absurd (BitVec.or_eq_zero_iff.mp h).2 (by decide)
  have hnonblock : flags ||| sockNonblock ≠ 0 := by
    intro h
    exact absurd (BitVec.or_eq_zero_iff.mp h).2 (by decide)
  simp only [acceptModes, if_pos hcloexec, if_pos hnonblock]

theorem isNonblocking_setfl_acceptModes (g : SocketFlags) (flags : BitVec 32) :
    (g.setfl (acceptModes g.bits flags)).isNonblocking = true := by
  have hdirect : acceptModes g.bits flags &&& oDirect = 0 := by
    rw [acceptModes_eq, BitVec.and_or_distrib_right, BitVec.and_or_distrib_right,
      g.bits_and_oDirect]
    decide
  rw [SocketFlags.setfl, if_pos hdirect, SocketFlags.isNonblocking, acceptModes_eq, bne_iff_ne]
  intro h
  have hbit := congrArg (fun x => x.getLsbD 11) h
  simp [oRdwr, oNonblock, fdCloexec, setflMask] at hbit

/-- Nothing is accepted without a descriptor. -/
theorem accept4_of_no_rights {received : Option (MicroBuffer × Option ControlMessage)}
    (h : ∀ resp cmsg, received = some (resp, some cmsg) → cmsg.isScmRights = false)
    (flowinfo scopeId : Octets 4) (addrlen : Option ℕ) :
    Proxy.accept4 ⟨true, true, received⟩ flowinfo scopeId addrlen = .recvFailed ∨
      Proxy.accept4 ⟨true, true, received⟩ flowinfo scopeId addrlen = .badFd := by
  cases received with
  | none => exact .inl rfl
  | some message =>
    obtain ⟨resp, cmsg⟩ := message
    cases cmsg with
    | none => exact .inr rfl
    | some cmsg => exact .inr (by simp [Proxy.accept4, h resp cmsg rfl])

theorem accept4_of_rights (resp : MicroBuffer) (fd : ℕ) (flowinfo scopeId : Octets 4)
    (addrlen : Option ℕ) :
    Proxy.accept4 ⟨true, true, some (resp, some ⟨true, fd⟩)⟩ flowinfo scopeId addrlen =
      .accepted fd (addrlen.map (acceptedAddr resp flowinfo scopeId)) := by
  simp [Proxy.accept4]

def Kernel.hasVendor (fd : ℕ) (k : Kernel Event) : Bool :=
  (k.socketAt fd).any (fun s => s.domain = .afUnix && s.peer.isSome)

theorem accept4_eq (fd : ℕ) (flags : BitVec 32) (addrlen : Option ℕ) (k : Kernel Event) :
    accept4 answers fd flags addrlen k =
      if k.hasVendor fd = true then acceptVendor answers flags addrlen k
      else (((libcAccept4 answers flags k).1, none), (libcAccept4 answers flags k).2) := by
  have hiff : k.hasVendor fd = true ↔
      (soDomain fd k).1 = some .afUnix ∧ (getpeername fd (soDomain fd k).2).1 = true := by
    simp only [Kernel.hasVendor, soDomain, getpeername]
    cases k.socketAt fd <;> simp
  unfold accept4
  rw [bind_apply, bind_apply, ite_congr (propext hiff) (fun _ => rfl) (fun _ => rfl)]
  split_ifs <;> rfl

theorem acceptVendor_effect (flags : BitVec 32) (addrlen : Option ℕ) (k : Kernel Event) :
    (acceptVendor answers flags addrlen k).2.connects = k.connects ∧
      Accepted answers (acceptVendor answers flags addrlen k).1.1
        (fun s => s.flags.isNonblocking = true) k (acceptVendor answers flags addrlen k).2 := by
  unfold acceptVendor
  rw [bind_apply]
  obtain ⟨hconnects, htable | ⟨new, s, resp, k₁, hreceived, hadded, hsecond⟩⟩ :=
    recvmsg_cases answers k
  · rcases accept4_of_no_rights htable.2 answers.flowinfo answers.scopeId addrlen with h | h
    · rw [h]
      exact ⟨hconnects, .inl ⟨rfl, htable.1⟩⟩
    · rw [h]
      exact ⟨hconnects, .inl ⟨rfl, htable.1⟩⟩
  · have hopen := isOpen_of_lookup hadded.file
    have hfl : (getfl new (recvmsg answers k).2).1 = s.flags.bits := by
      simp [getfl, socketAt_of_lookup ((lookup_of_second answers hsecond hopen).trans hadded.file)]
    rw [hreceived, accept4_of_rights]
    dsimp only
    rw [bind_apply, Int.toNat_natCast, bind_apply, hfl]
    refine ⟨hconnects, .inr ⟨new, s.setfl (acceptModes s.flags.bits flags),
      k₁.modifySocket new (fun s' => s'.setfl (acceptModes s.flags.bits flags)), rfl, ?_, ?_, ?_⟩⟩
    · exact hadded.modify (File.mapSocket fun s' => s'.setfl (acceptModes s.flags.bits flags))
    · exact hsecond.modifySocket answers hopen _
    · exact isNonblocking_setfl_acceptModes s.flags flags

theorem accept4_effect (fd : ℕ) (flags : BitVec 32) (addrlen : Option ℕ) (k : Kernel Event) :
    (accept4 answers fd flags addrlen k).2.connects = k.connects ∧
      Accepted answers (accept4 answers fd flags addrlen k).1.1
        (fun s => k.hasVendor fd = true → s.flags.isNonblocking = true) k
        (accept4 answers fd flags addrlen k).2 := by
  rw [accept4_eq]
  split_ifs with hvendor
  · obtain ⟨hconnects, haccepted⟩ := acceptVendor_effect answers flags addrlen k
    refine ⟨hconnects, haccepted.imp_right ?_⟩
    rintro ⟨new, s, k₁, hret, hadded, hsecond, hnonblocking⟩
    exact ⟨new, s, k₁, hret, hadded, hsecond, fun _ => hnonblocking⟩
  · obtain ⟨hconnects, haccepted⟩ := libcAccept4_cases answers flags k
    refine ⟨hconnects, haccepted.imp_right ?_⟩
    rintro ⟨new, s, k₁, hret, hadded, hsecond, -⟩
    exact ⟨new, s, k₁, hret, hadded, hsecond, fun h => absurd h hvendor⟩

end PublicEndorsement.Proxy.Preload
