import PublicEndorsement.DescriptorTable
import PublicEndorsement.PreloadAccept
import PublicEndorsement.Socks5Client
import PublicEndorsement.VsockAddress

/-!
# The kernel under the preload library

The sockets of a process as the hooks of the preload library read and change them, and the
system calls the hooks make. What a system call may answer in more than one way is taken
from `Answers`, at the time the clock shows.
-/

namespace PublicEndorsement.Proxy.Preload

/-! ## Sockets -/

inductive Domain where
  | afInet
  | afInet6
  | afVsock
  | afUnix
  | other (family : ℕ)
  deriving DecidableEq, Repr

inductive SockType where
  | sockStream
  | other (type : ℕ)
  deriving DecidableEq, Repr

/-- The flags of an open file, as on x86-64. -/
def oRdwr : BitVec 32 := 0x2#32
def oNonblock : BitVec 32 := 0x800#32
def oDirect : BitVec 32 := 0x4000#32
def fdCloexec : BitVec 32 := 0x1#32
def sockNonblock : BitVec 32 := 0x800#32
def sockCloexec : BitVec 32 := 0x80000#32

/-- `O_APPEND`, `O_NONBLOCK`, `O_ASYNC` and `O_NOATIME`: what `F_SETFL` changes of a socket. -/
def setflMask : BitVec 32 := 0x42c00#32

/-- The flags of a socket, which is always open for reading and writing. -/
@[ext] structure SocketFlags where
  bits : BitVec 32
  access : bits &&& ~~~setflMask = oRdwr
  deriving DecidableEq

theorem mask_rdwr : oRdwr &&& ~~~setflMask = oRdwr := by decide

theorem masked_access (x : BitVec 32) :
    (oRdwr ||| (x &&& setflMask)) &&& ~~~setflMask = oRdwr := by
  rw [BitVec.and_or_distrib_right, mask_rdwr, BitVec.and_assoc, BitVec.and_not_self]
  simp

namespace SocketFlags

def blocking : SocketFlags := ⟨oRdwr, mask_rdwr⟩

/-- `F_SETFL`. A socket refuses `O_DIRECT`, and with it the whole call. -/
def setfl (f : SocketFlags) (arg : BitVec 32) : SocketFlags :=
  if arg &&& oDirect = 0 then ⟨oRdwr ||| (arg &&& setflMask), masked_access arg⟩ else f

def isNonblocking (f : SocketFlags) : Bool := f.bits &&& oNonblock != 0

def created (nonblock : Bool) : SocketFlags := blocking.setfl (if nonblock then oNonblock else 0)

end SocketFlags

inductive Target where
  | app (addr : SockAddr)
  | proxy (addr : SockaddrVm)
  | vendor
  deriving DecidableEq

def Target.domain : Target → Domain
  | .app (.inet _ _) => .afInet
  | .app (.inet6 _ _) => .afInet6
  | .app (.other 1) => .afUnix
  | .app (.other 40) => .afVsock
  | .app (.other family) => .other family
  | .proxy _ => .afVsock
  | .vendor => .afUnix

structure SocketFile where
  domain : Domain
  type : SockType
  flags : SocketFlags
  peer : Option Target
  deriving DecidableEq

def SocketFile.setfl (s : SocketFile) (arg : BitVec 32) : SocketFile :=
  { s with flags := s.flags.setfl arg }

@[simp] theorem SocketFile.setfl_flags (s : SocketFile) (arg : BitVec 32) :
    (s.setfl arg).flags = s.flags.setfl arg := rfl

inductive File where
  | socket (s : SocketFile)
  | epoll
  | other
  deriving DecidableEq

namespace File

def socket? : File → Option SocketFile
  | .socket s => some s
  | _ => none

def mapSocket (change : SocketFile → SocketFile) : File → File
  | .socket s => .socket (change s)
  | f => f

end File

/-- What is watched for by an epoll instance, which is named by its file. -/
structure Interest (Event : Type) where
  epoll : ℕ
  event : Event

/-! ## The state and the answers -/

/-- A `connect` as the kernel sees it: the socket at that moment, if it is one. -/
structure ConnectCall where
  socket : Option SocketFile
  target : Target

inductive VendorRequest where
  | bindRequest (port : UInt16)
  | listenRequest (backlog : ℤ)
  deriving DecidableEq

/-- A run of `socks5_client_connect`: the time it begins, and the socket it is made on. -/
structure ClientHandshake where
  time : ℕ
  socket : Option SocketFile
  addr : SockAddr

/-- `connects`, `handshakes` and `requests` are what the process has done so far. -/
structure Kernel (Event : Type) where
  table : DescriptorTable File (Interest Event)
  clock : ℕ
  connects : List ConnectCall
  handshakes : List ClientHandshake
  requests : List VendorRequest

/-- The control data that comes with a message. The buffer of `accept4` is 24 bytes long, 16 of
them for the header, so that it takes two descriptors; the kernel discards any others. -/
inductive Passed where
  | nothing
  | otherControl (fd : ℤ)
  | rights (fd : ℕ) (socket : SocketFile) (second : Option (ℕ × SocketFile))

def Passed.cmsg : Passed → Option ControlMessage
  | .nothing => none
  | .otherControl fd => some ⟨false, fd⟩
  | .rights fd _ _ => some ⟨true, fd⟩

/-- A descriptor that a call returns is one that is not in use. `epollCtl` says that a call
is not refused for want of memory; `ioctl` gives the result and says whether `errno` is
`EOPNOTSUPP`; `libc` is what any other function returns. -/
structure Answers where
  getenv : Environment
  socket : ℕ → Option ℕ
  dup2 : ℕ → Bool
  connect : ℕ → Bool
  send : ℕ → List UInt8 → ℤ
  malloc : ℕ → ℕ → Bool
  inbox : ℕ → Inbox
  vendorSend : ℕ → Bool
  vendorRecv : ℕ → Option MessageType
  recvmsg : ℕ → Option (MicroBuffer × Passed)
  accept : ℕ → Option (ℕ × Domain × Target)
  epollCtl : ℕ → Bool
  ioctl : ℕ → ℤ × Bool
  libc : ℕ → ℤ
  flowinfo : Octets 4
  scopeId : Octets 4

/-- A message of the vendor carries `fd` after another descriptor. -/
def Answers.passesSecond (answers : Answers) (fd : ℕ) : Prop :=
  ∃ t resp first s₁ s₂, answers.recvmsg t = some (resp, .rights first s₁ (some (fd, s₂)))

abbrev Sys (Event : Type) := StateM (Kernel Event)

variable {Event : Type}

namespace Kernel

def socketAt (k : Kernel Event) (fd : ℕ) : Option SocketFile :=
  (k.table.lookup fd).bind File.socket?

def tick (k : Kernel Event) : Kernel Event := { k with clock := k.clock + 1 }

def withTable (k : Kernel Event) (table : DescriptorTable File (Interest Event)) : Kernel Event :=
  { k with clock := k.clock + 1, table := table }

def install (fd : ℕ) (f : File) (k : Kernel Event) : Option (Kernel Event) :=
  if k.table.fds fd = none then some (k.withTable (k.table.install fd f)) else none

def modifySocket (fd : ℕ) (change : SocketFile → SocketFile) (k : Kernel Event) : Kernel Event :=
  { k with table := k.table.modify fd (File.mapSocket change) }

end Kernel

/-! ## The system calls -/

section Calls

variable (answers : Answers)

/-- `libc_getsockopt` for `SO_TYPE` and `SO_DOMAIN`, which fails on what is not a socket. -/
def soType (fd : ℕ) : Sys Event (Option SockType) :=
  fun k => ((k.socketAt fd).map SocketFile.type, k)

def soDomain (fd : ℕ) : Sys Event (Option Domain) :=
  fun k => ((k.socketAt fd).map SocketFile.domain, k)

def getfl (fd : ℕ) : Sys Event (BitVec 32) :=
  fun k => ((k.socketAt fd).elim (-1) (fun s => s.flags.bits), k)

def setfl (fd : ℕ) (arg : BitVec 32) : Sys Event Unit :=
  fun k => ((), k.modifySocket fd (fun s => s.setfl arg))

def getpeername (fd : ℕ) : Sys Event Bool :=
  fun k => ((k.socketAt fd).any (fun s => s.peer.isSome), k)

def socket (domain : Domain) (type : SockType) (nonblock : Bool) : Sys Event (Option ℕ) := fun k =>
  match answers.socket k.clock with
  | none => (none, k.tick)
  | some fd =>
    match k.install fd (.socket ⟨domain, type, .created nonblock, none⟩) with
    | none => (none, k.tick)
    | some k' => (some fd, k')

def dup2 (old fd : ℕ) : Sys Event ℤ := fun k =>
  if (k.table.fds old).isSome && answers.dup2 k.clock then
    (fd, k.withTable (k.table.dup2 old fd))
  else (-1, k.tick)

def close (fd : ℕ) : Sys Event Unit := fun k => ((), { k with table := k.table.close fd })

/-- `AF_UNSPEC`, which takes the peer from a socket. -/
def Target.isUnspec : Target → Bool
  | .app (.other 0) => true
  | _ => false

/-- A stream socket is connected only within its domain, and only a TCP one is disconnected. -/
def SocketFile.reaches (s : SocketFile) (target : Target) : Bool :=
  decide (s.type = .sockStream → target.domain = s.domain ∨
    target.isUnspec = true ∧ (s.domain = .afInet ∨ s.domain = .afInet6))

def SocketFile.connected (s : SocketFile) (target : Target) : SocketFile :=
  { s with peer := if target.isUnspec then none else some target }

def libcConnect (fd : ℕ) (target : Target) : Sys Event ℤ := fun k =>
  let logged := { k.tick with connects := k.connects ++ [⟨k.socketAt fd, target⟩] }
  if (k.socketAt fd).any (fun s => s.reaches target) && answers.connect k.clock then
    (0, logged.modifySocket fd (fun s => s.connected target))
  else (-1, logged)

def ClientHandshake.result (h : ClientHandshake) : ClientResult :=
  socks5ClientConnect (answers.send h.time) (answers.malloc h.time) h.addr (answers.inbox h.time)

/-- The handshake with the proxy, on a socket that blocks. -/
def clientConnect (fd : ℕ) (addr : SockAddr) : Sys Event ℤ := fun k =>
  let handshake : ClientHandshake := ⟨k.clock, k.socketAt fd, addr⟩
  ((handshake.result answers).ret, { k.tick with handshakes := k.handshakes ++ [handshake] })

def vendorSend (request : VendorRequest) : Sys Event Bool := fun k =>
  if answers.vendorSend k.clock then
    (true, { k.tick with requests := k.requests ++ [request] })
  else (false, k.tick)

def vendorRecv : Sys Event (Option MessageType) := fun k => (answers.vendorRecv k.clock, k.tick)

def Kernel.installSecond (second : Option (ℕ × SocketFile)) (k : Kernel Event) : Kernel Event :=
  match second with
  | none => k
  | some (fd, s) =>
    if k.table.fds fd = none then { k with table := k.table.install fd (.socket s) } else k

def recvmsg : Sys Event (Option (MicroBuffer × Option ControlMessage)) := fun k =>
  match answers.recvmsg k.clock with
  | none => (none, k.tick)
  | some (resp, .rights fd s second) =>
    match k.install fd (.socket s) with
    | none => (none, k.tick)
    | some k' => (some (resp, (Passed.rights fd s second).cmsg), k'.installSecond second)
  | some (resp, passed) => (some (resp, passed.cmsg), k.tick)

def libcAccept4 (flags : BitVec 32) : Sys Event ℤ := fun k =>
  match answers.accept k.clock with
  | none => (-1, k.tick)
  | some (fd, domain, peer) =>
    match k.install fd
      (.socket ⟨domain, .sockStream, .created (flags &&& sockNonblock != 0), some peer⟩) with
    | none => (-1, k.tick)
    | some k' => (fd, k')

def libc : Sys Event ℤ := fun k => (answers.libc k.clock, k.tick)

def libcIoctl : Sys Event (ℤ × Bool) := fun k => (answers.ioctl k.clock, k.tick)

inductive EpollOp where
  | epollCtlAdd
  | epollCtlMod
  | epollCtlDel
  deriving DecidableEq, Repr

def ctlWatches (epoll file fd : ℕ) (op : EpollOp) (event : Event)
    (watches : List (Watch (Interest Event))) : Option (List (Watch (Interest Event))) :=
  let isIt := fun w : Watch (Interest Event) =>
    decide (w.fd = fd ∧ w.file = file ∧ w.interest.epoll = epoll)
  match op, watches.any isIt with
  | .epollCtlAdd, false => some (watches ++ [⟨fd, file, ⟨epoll, event⟩⟩])
  | .epollCtlMod, true =>
    some (watches.map fun w => if isIt w then { w with interest := ⟨epoll, event⟩ } else w)
  | .epollCtlDel, true => some (watches.filter fun w => !isIt w)
  | _, _ => none

def libcEpollCtl (epfd : ℕ) (op : EpollOp) (fd : ℕ) (event : Event) : Sys Event ℤ := fun k =>
  match k.table.fds epfd, k.table.fds fd with
  | some epoll, some file =>
    match ctlWatches epoll file fd op event k.table.watches with
    | some watches =>
      if k.table.files epoll = .epoll && answers.epollCtl k.clock then
        (0, k.withTable (k.table.setWatches watches))
      else (-1, k.tick)
    | none => (-1, k.tick)
  | _, _ => (-1, k.tick)

end Calls

end PublicEndorsement.Proxy.Preload
