import PublicEndorsement.PreloadKernel

/-!
# The hooks of the preload library

The functions that an application calls in place of those of libc. A TCP socket is turned
into a VSOCK socket before it is connected or watched, and into a UNIX socket when it is
bound.
-/

namespace PublicEndorsement.Proxy.Preload

variable {Event : Type} (answers : Answers)

/-- `AutoCloseFd`: the descriptor is closed however the block is left. -/
def autoClose {α : Type} (fd : ℕ) (block : Sys Event α) : Sys Event α := do
  let result ← block
  close fd
  return result

/-- How `ConvertToVsock` and `bind` put a new socket in the place of `sockfd`; `rest` is what
is done before the new socket's own descriptor is closed. -/
def replaceSocket {α : Type} (domain : Domain) (sockfd : ℕ) (fail : α)
    (rest : BitVec 32 → Sys Event α) : Sys Event α := do
  match ← socket answers domain .sockStream false with
  | none => return fail
  | some newFd =>
    autoClose newFd do
      let fl ← getfl sockfd
      if (← dup2 answers newFd sockfd) < 0 then return fail
      rest fl

/-- The flags of the original socket are returned. -/
def convertToVsock (sockfd : ℕ) : Sys Event (BitVec 32) :=
  replaceSocket answers .afVsock sockfd (-1) (fun flags => return flags)

def epollCtl (epfd : ℕ) (op : EpollOp) (fd : ℕ) (event : Event) : Sys Event ℤ := do
  if op ≠ .epollCtlAdd then libcEpollCtl answers epfd op fd event
  else
    match ← soType fd, ← soDomain fd with
    | some sockType, some sockDomain =>
      if sockType ≠ .sockStream ∨ (sockDomain ≠ .afInet ∧ sockDomain ≠ .afInet6) then
        libcEpollCtl answers epfd op fd event
      else
        let fl ← convertToVsock answers fd
        setfl fd fl
        libcEpollCtl answers epfd op fd event
    | _, _ => libcEpollCtl answers epfd op fd event

/-- The second half of `connect`, on a socket that is a VSOCK one if it could be made one. The
buffer sizes that are set on it are left out. -/
def connectByProxy (sockfd : ℕ) (fl : BitVec 32) (addr : SockAddr) : Sys Event ℤ := do
  setfl sockfd (fl &&& ~~~oNonblock)
  if (← libcConnect answers sockfd (.proxy (getProxyVsockAddr answers.getenv))) < 0 then
    setfl sockfd fl
    return -1
  let ret ← clientConnect answers sockfd addr
  setfl sockfd fl
  return ret

def connect (sockfd : ℕ) (addr : SockAddr) : Sys Event ℤ := do
  match ← soType sockfd, ← soDomain sockfd with
  | some sockType, some sockDomain =>
    if sockType ≠ .sockStream ∨
        (sockDomain ≠ .afInet ∧ sockDomain ≠ .afInet6 ∧ sockDomain ≠ .afVsock) ∨
        addr.isInet = false then
      libcConnect answers sockfd (.app addr)
    else
      let fl ← if sockDomain = .afVsock then getfl sockfd else convertToVsock answers sockfd
      connectByProxy answers sockfd fl addr
  | _, _ => libcConnect answers sockfd (.app addr)

inductive Level where
  | ipprotoTcp
  | ipprotoIp
  | ipprotoIpv6
  | other (level : ℕ)
  deriving DecidableEq, Repr

/-- `setsockopt` and `getsockopt` make the same exception. -/
def sockopt (sockfd : ℕ) (level : Level) : Sys Event ℤ := do
  if (level = .ipprotoTcp ∨ level = .ipprotoIp ∨ level = .ipprotoIpv6) ∧
      (← soDomain sockfd) = some .afVsock then return 0
  libc answers

/-- The result, and what is stored for `FIONREAD` by the hook itself. -/
def ioctl (fd : ℕ) (fionread : Bool) : Sys Event (ℤ × Option ℤ) := do
  let result ← libcIoctl answers
  if result.1 = -1 ∧ result.2 = true ∧ fionread = true ∧ (← soDomain fd) = some .afVsock then
    return (0, some 0)
  else return (result.1, none)

def requestBind (sockfd : ℕ) (port : UInt16) (fl : BitVec 32) : Sys Event ℤ := do
  if (← libcConnect answers sockfd .vendor) < 0 then return -1
  if !(← vendorSend answers (.bindRequest port)) then return -1
  if (← vendorRecv answers) ≠ some .kBindResponse then return -1
  setfl sockfd fl
  return 0

def bindVendor (sockfd : ℕ) (port : UInt16) : Sys Event ℤ :=
  replaceSocket answers .afUnix sockfd (-1) (requestBind answers sockfd port)

def bind (sockfd : ℕ) (addr : SockAddr) : Sys Event ℤ := do
  if !addr.isInet then libc answers
  else if (← soType sockfd) ≠ some .sockStream then libc answers
  else
    match addr, ← soDomain sockfd with
    | .inet _ port, some .afInet => bindVendor answers sockfd (ntohs port)
    | .inet _ port, some .afVsock => bindVendor answers sockfd (ntohs port)
    | .inet6 _ port, some .afInet6 => bindVendor answers sockfd (ntohs port)
    | .inet6 _ port, some .afVsock => bindVendor answers sockfd (ntohs port)
    | _, _ => libc answers

/-- The response is waited for on a socket that blocks. -/
def awaitListen (sockfd : ℕ) : Sys Event ℤ := do
  let fl ← getfl sockfd
  setfl sockfd (fl &&& ~~~oNonblock)
  if (← vendorRecv answers) ≠ some .kListenResponse then return -1
  setfl sockfd fl
  return 0

def listen (sockfd : ℕ) (backlog : ℤ) : Sys Event ℤ := do
  if (← soDomain sockfd) ≠ some .afUnix then libc answers
  else if !(← getpeername sockfd) then libc answers
  else if !(← vendorSend answers (.listenRequest backlog)) then return -1
  else awaitListen answers sockfd

def acceptModes (fl flags : BitVec 32) : BitVec 32 :=
  let fl := if flags ||| sockCloexec ≠ 0 then fl ||| fdCloexec else fl
  if flags ||| sockNonblock ≠ 0 then fl ||| oNonblock else fl

def acceptVendor (flags : BitVec 32) (addrlen : Option ℕ) :
    Sys Event (ℤ × Option (List UInt8)) := do
  let received ← recvmsg answers
  match Proxy.accept4 ⟨true, true, received⟩ answers.flowinfo answers.scopeId addrlen with
  | .accepted fd addr =>
    let fl ← getfl fd.toNat
    setfl fd.toNat (acceptModes fl flags)
    return (fd, addr)
  | _ => return (-1, none)

def accept4 (sockfd : ℕ) (flags : BitVec 32) (addrlen : Option ℕ) :
    Sys Event (ℤ × Option (List UInt8)) := do
  if (← soDomain sockfd) = some .afUnix ∧ (← getpeername sockfd) = true then
    acceptVendor answers flags addrlen
  else
    let fd ← libcAccept4 answers flags
    return (fd, none)

def accept (sockfd : ℕ) (addrlen : Option ℕ) : Sys Event (ℤ × Option (List UInt8)) :=
  accept4 answers sockfd 0 addrlen

/-! ## Applications -/

/-- A call of an application. Those of the first group are not hooked. -/
inductive Call (Event : Type) where
  | socket (domain : Domain) (type : SockType) (nonblock : Bool)
  | close (fd : ℕ)
  | dup2 (old fd : ℕ)
  | setfl (fd : ℕ) (arg : BitVec 32)
  | connect (fd : ℕ) (addr : SockAddr)
  | bind (fd : ℕ) (addr : SockAddr)
  | listen (fd : ℕ) (backlog : ℤ)
  | accept4 (fd : ℕ) (flags : BitVec 32) (addrlen : Option ℕ)
  | accept (fd : ℕ) (addrlen : Option ℕ)
  | epollCtl (epfd : ℕ) (op : EpollOp) (fd : ℕ) (event : Event)
  | sockopt (fd : ℕ) (level : Level)
  | ioctl (fd : ℕ) (fionread : Bool)

def perform : Call Event → Sys Event ℤ
  | .socket domain type nonblock => do
    let fd ← socket answers domain type nonblock
    return fd.elim (-1) (fun fd => (fd : ℤ))
  | .close fd => do
    close fd
    return 0
  | .dup2 old fd => dup2 answers old fd
  | .setfl fd arg => do
    setfl fd arg
    return 0
  | .connect fd addr => connect answers fd addr
  | .bind fd addr => bind answers fd addr
  | .listen fd backlog => listen answers fd backlog
  | .accept4 fd flags addrlen => Prod.fst <$> accept4 answers fd flags addrlen
  | .accept fd addrlen => Prod.fst <$> accept answers fd addrlen
  | .epollCtl epfd op fd event => epollCtl answers epfd op fd event
  | .sockopt fd level => sockopt answers fd level
  | .ioctl fd fionread => Prod.fst <$> ioctl answers fd fionread

end PublicEndorsement.Proxy.Preload
