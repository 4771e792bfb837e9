import PublicEndorsement.ClientSessionPool

/-!
# Accepting a connection in the application

`accept4` of the preload library: it takes a `NewConnectionResponse` and a descriptor from
the vendor's socket, and writes the peer's address in the form that fits the caller's
buffer.
-/

namespace PublicEndorsement.Proxy

/-- The first header of the control data, and the descriptor behind it. -/
structure ControlMessage where
  isScmRights : Bool
  fd : ℤ

/-- How the system calls of `accept4` turn out. `isUnix` says that the domain of the socket
could be read and is `AF_UNIX`, and `connected` that it has a peer; what `recvmsg` gives is
the response after the call. -/
structure AcceptIO where
  isUnix : Bool
  connected : Bool
  recvmsg : Option (MicroBuffer × Option ControlMessage)

inductive AcceptResult where
  | libcAccept4
  | recvFailed
  | badFd
  | accepted (fd : ℤ) (addr : Option (List UInt8))

def respAddr (resp : MicroBuffer) : Octets 16 := ⟨(resp.toList.drop 4).take 16, by simp⟩

def respPort (resp : MicroBuffer) : Octets 2 := ⟨(resp.toList.drop 20).take 2, by simp⟩

/-- The two structures as they lie in memory, the family with its low byte first. -/
def sockaddrIn (port : Octets 2) (addr : Octets 4) : Octets 16 :=
  ⟨[0x02, 0x00] ++ port.toList ++ addr.toList ++ List.replicate 8 0x00, by simp⟩

def sockaddrIn6 (port : Octets 2) (flowinfo : Octets 4) (addr : Octets 16) (scopeId : Octets 4) :
    Octets 28 :=
  ⟨[0x0a, 0x00] ++ port.toList ++ flowinfo.toList ++ addr.toList ++ scopeId.toList, by simp⟩

/-- The value of a word that has its low byte first, and its value for `ntohl`. -/
def hostWord (bytes : List UInt8) : ℕ := bytes.foldr (fun b n => b.toNat + 256 * n) 0

def ntohl (bytes : List UInt8) : ℕ := bytes.foldl (fun n b => 256 * n + b.toNat) 0

def uintAddr (addr : Octets 16) (i : ℕ) : List UInt8 := (addr.toList.drop (4 * i)).take 4

def isCompatible (addr : Octets 16) : Bool :=
  hostWord (uintAddr addr 0) == 0 && hostWord (uintAddr addr 1) == 0 &&
    hostWord (uintAddr addr 2) == 0 && hostWord (uintAddr addr 3) != 1

def isMapped (addr : Octets 16) : Bool :=
  hostWord (uintAddr addr 0) == 0 && hostWord (uintAddr addr 1) == 0 &&
    ntohl (uintAddr addr 2) == 0xFFFF

def embeddedIPv4 (addr : Octets 16) : Octets 4 := ⟨addr.toList.drop 12, by simp⟩

/-- What is written to a buffer of `addrlen` bytes; its length is the new `addrlen`. Two
fields of the longer structure are never set. -/
def acceptedAddr (resp : MicroBuffer) (flowinfo scopeId : Octets 4) (addrlen : ℕ) : List UInt8 :=
  if addrlen ≥ 28 then (sockaddrIn6 (respPort resp) flowinfo (respAddr resp) scopeId).toList
  else
    let sinAddr :=
      if isCompatible (respAddr resp) then embeddedIPv4 (respAddr resp)
      else if isMapped (respAddr resp) then embeddedIPv4 (respAddr resp)
      else List.Vector.replicate 4 0
    (sockaddrIn (respPort resp) sinAddr).toList.take (if addrlen ≥ 16 then 16 else addrlen)

/-- `addrlen` is the size of the caller's buffer, if it has given one. -/
def accept4 (io : AcceptIO) (flowinfo scopeId : Octets 4) (addrlen : Option ℕ) : AcceptResult :=
  if !io.isUnix then .libcAccept4
  else if !io.connected then .libcAccept4
  else match io.recvmsg with
    | none => .recvFailed
    | some (_, none) => .badFd
    | some (resp, some cmsg) =>
      if !cmsg.isScmRights then .badFd
      else if cmsg.fd < 0 then .badFd
      else .accepted cmsg.fd (addrlen.map (acceptedAddr resp flowinfo scopeId))

def mapped (addr : Octets 4) : Octets 16 :=
  ⟨List.replicate 10 0x00 ++ [0xff, 0xff] ++ addr.toList, by simp⟩

theorem embeddedIPv4_mapped (addr : Octets 4) : embeddedIPv4 (mapped addr) = addr :=
  Subtype.ext rfl

theorem isMapped_mapped (addr : Octets 4) : isMapped (mapped addr) = true := by
  have h₀ : uintAddr (mapped addr) 0 = [0x00, 0x00, 0x00, 0x00] := rfl
  have h₁ : uintAddr (mapped addr) 1 = [0x00, 0x00, 0x00, 0x00] := rfl
  have h₂ : uintAddr (mapped addr) 2 = [0x00, 0x00, 0xff, 0xff] := rfl
  rw [isMapped, h₀, h₁, h₂]
  decide

theorem acceptedAddr_of_in6 {resp : MicroBuffer} {flowinfo scopeId : Octets 4} {addrlen : ℕ}
    (h : 28 ≤ addrlen) : acceptedAddr resp flowinfo scopeId addrlen =
      (sockaddrIn6 (respPort resp) flowinfo (respAddr resp) scopeId).toList := by
  rw [acceptedAddr, if_pos h]

theorem acceptedAddr_of_in {resp : MicroBuffer} {flowinfo scopeId : Octets 4} {addrlen : ℕ}
    {addr : Octets 4} (hresp : respAddr resp = mapped addr) (hroom : 16 ≤ addrlen)
    (hshort : addrlen < 28) :
    acceptedAddr resp flowinfo scopeId addrlen = (sockaddrIn (respPort resp) addr).toList := by
  rw [acceptedAddr, if_neg (by omega)]
  simp only [hresp, isMapped_mapped, embeddedIPv4_mapped, if_true, ite_self, if_pos hroom]
  exact List.take_of_length_le (sockaddrIn (respPort resp) addr).toList_length.le

end PublicEndorsement.Proxy
