import PublicEndorsement.FieldReader
import PublicEndorsement.Socks5State

/-!
# The grammar of the handshake

What a client sends, and a reader of it that knows nothing of buffers: a greeting, then
a request. A stream is refused at the first field that rules it out.
-/

namespace PublicEndorsement.Proxy.Socks5

inductive Command where
  | connect
  | bind
  deriving DecidableEq, Repr

inductive Family where
  | v4
  | v6
  deriving DecidableEq, Repr

def Command.byte : Command → UInt8
  | .connect => 0x01
  | .bind => 0x02

def Command.ofByte (b : UInt8) : Option Command :=
  if b = 0x01 then some .connect else if b = 0x02 then some .bind else none

def Family.byte : Family → UInt8
  | .v4 => 0x01
  | .v6 => 0x04

def Family.ofByte (b : UInt8) : Option Family :=
  if b = 0x01 then some .v4 else if b = 0x04 then some .v6 else none

def Family.size : Family → ℕ
  | .v4 => 4
  | .v6 => 16

@[simp] theorem Command.ofByte_byte (c : Command) : ofByte c.byte = some c := by
  cases c <;> rfl

@[simp] theorem Family.ofByte_byte (f : Family) : ofByte f.byte = some f := by
  cases f <;> rfl

theorem Command.byte_of_ofByte {b : UInt8} {c : Command} (h : ofByte b = some c) :
    c.byte = b := by
  unfold ofByte at h
  split_ifs at h with h₁ h₂ <;> cases h
  · exact h₁.symm
  · exact h₂.symm

theorem Family.byte_of_ofByte {b : UInt8} {f : Family} (h : ofByte b = some f) : f.byte = b := by
  unfold ofByte at h
  split_ifs at h with h₁ h₂ <;> cases h
  · exact h₁.symm
  · exact h₂.symm

theorem Command.ofByte_eq_none {b : UInt8} (h : ofByte b = none) : b ∉ [0x01, 0x02] := by
  unfold ofByte at h
  split_ifs at h with h₁ h₂
  simp [h₁, h₂]

theorem Family.ofByte_eq_none {b : UInt8} (h : ofByte b = none) : b ∉ [0x01, 0x04] := by
  unfold ofByte at h
  split_ifs at h with h₁ h₂
  simp [h₁, h₂]

/-- A list of authentication methods that offers to do without. -/
structure Greeting where
  methods : List UInt8
  nonempty : 1 ≤ methods.length
  short : methods.length ≤ 255
  noAuth : 0x00 ∈ methods

def Greeting.bytes (g : Greeting) : List UInt8 :=
  0x05 :: UInt8.ofNat g.methods.length :: g.methods

structure Request where
  command : Command
  family : Family
  addr : Octets family.size
  port : Octets 2

namespace Request

def header (r : Request) : List UInt8 := [0x05, r.command.byte, 0x00, r.family.byte]

def bytes (r : Request) : List UInt8 := r.header ++ (r.addr.toList ++ r.port.toList)

def sockAddr : Request → SockAddr
  | ⟨_, .v4, addr, port⟩ => .inet addr port
  | ⟨_, .v6, addr, port⟩ => .inet6 addr port

end Request

/-- A stream that the server must refuse, with the field that rules it out in full. -/
inductive Refused : List UInt8 → Prop
  | greetingHeader {ver nMethods : UInt8} (rest : List UInt8)
    (h : ver ≠ 0x05 ∨ nMethods = 0) : Refused (ver :: nMethods :: rest)
  | methods {nMethods : UInt8} {methods : List UInt8} (rest : List UInt8) (hn : nMethods ≠ 0)
    (hlen : methods.length = nMethods.toNat) (h : 0x00 ∉ methods) :
    Refused (0x05 :: nMethods :: (methods ++ rest))
  | requestHeader (g : Greeting) {ver cmd rsv atyp : UInt8} (rest : List UInt8)
    (h : ver ≠ 0x05 ∨ rsv ≠ 0x00 ∨ cmd ∉ [0x01, 0x02] ∨ atyp ∉ [0x01, 0x04]) :
    Refused (g.bytes ++ (ver :: cmd :: rsv :: atyp :: rest))

/-- How far a handshake has come. A failed one may have been `greeted` before. -/
inductive Phase where
  | greetingHeader
  | methods (nMethods : UInt8)
  | requestHeader
  | address (command : Command) (family : Family)
  | waiting (request : Request)
  | failed (greeted : Bool)

namespace Phase

def size : Phase → ℕ
  | .greetingHeader => 2
  | .methods nMethods => nMethods.toNat
  | .requestHeader => 4
  | .address _ family => family.size + 2
  | .waiting _ => 0
  | .failed _ => 0

def done : Phase → Bool
  | .waiting _ => true
  | .failed _ => true
  | _ => false

def rank : Phase → ℕ
  | .greetingHeader => 4
  | .methods _ => 3
  | .requestHeader => 2
  | .address _ _ => 1
  | .waiting _ => 0
  | .failed _ => 0

/-- Take a field. Only fields of the length asked for are taken. -/
def next : Phase → List UInt8 → Phase
  | .greetingHeader, [ver, nMethods] =>
    if ver ≠ 0x05 ∨ nMethods = 0 then .failed false else .methods nMethods
  | .methods _, field => if 0x00 ∉ field then .failed false else .requestHeader
  | .requestHeader, [ver, cmd, rsv, atyp] =>
    if ver ≠ 0x05 ∨ rsv ≠ 0x00 then .failed true
    else match Command.ofByte cmd, Family.ofByte atyp with
      | some command, some family => .address command family
      | _, _ => .failed true
  | .address command family, field =>
    if h : field.length = family.size + 2 then
      .waiting ⟨command, family, ⟨field.take family.size, by simp [h]⟩,
        ⟨field.drop family.size, by simp [h]⟩⟩
    else .failed true
  | _, _ => .failed false

theorem rank_next (p : Phase) (field : List UInt8) (h : ¬ p.done) :
    (p.next field).rank < p.rank := by
  unfold next
  split
  · split <;> simp [rank]
  · split <;> simp [rank]
  · split
    · simp [rank]
    · split <;> simp [rank]
  · split <;> simp [rank]
  · cases p <;> simp_all [done, rank]

/-- An address field read in full. -/
theorem next_address (r : Request) :
    next (.address r.command r.family) (r.addr.toList ++ r.port.toList) = .waiting r := by
  have hlen : (r.addr.toList ++ r.port.toList).length = r.family.size + 2 := by simp
  obtain ⟨command, family, ⟨addr, haddr⟩, ⟨port, hport⟩⟩ := r
  rw [next, dif_pos hlen]
  simp [List.Vector.toList, List.take_left' haddr, List.drop_left' haddr]

theorem exists_addr_port {family : Family} {field : List UInt8}
    (hlen : field.length = family.size + 2) :
    ∃ (addr : Octets family.size) (port : Octets 2), field = addr.toList ++ port.toList :=
  ⟨⟨field.take family.size, by simp [hlen]⟩, ⟨field.drop family.size, by simp [hlen]⟩,
    (List.take_append_drop family.size field).symm⟩

end Phase

def reader : FieldReader Phase UInt8 where
  done := Phase.done
  need := Phase.size
  step := Phase.next
  rank := Phase.rank
  rank_step := Phase.rank_next

theorem Greeting.toNat_nMethods (g : Greeting) :
    (UInt8.ofNat g.methods.length).toNat = g.methods.length :=
  UInt8.toNat_ofNat_of_lt' (Nat.lt_of_le_of_lt g.short (by decide))

theorem Greeting.nMethods_ne_zero (g : Greeting) : UInt8.ofNat g.methods.length ≠ 0 := by
  rw [Ne, ← UInt8.toNat_inj, g.toNat_nMethods]
  exact Nat.ne_of_gt g.nonempty

/-! ## Streams that follow the grammar -/

theorem drive_greetingHeader {ver nMethods : UInt8} (rest : List UInt8) :
    reader.drive .greetingHeader (ver :: nMethods :: rest) =
      if ver ≠ 0x05 ∨ nMethods = 0 then (.failed false, rest)
      else reader.drive (.methods nMethods) rest := by
  change reader.drive .greetingHeader ([ver, nMethods] ++ rest) = _
  rw [reader.drive_field (s := .greetingHeader) Bool.false_ne_true _ _ rfl]
  change reader.drive (Phase.next .greetingHeader [ver, nMethods]) rest = _
  rw [Phase.next]
  split
  · exact reader.drive_of_done rfl
  · rfl

theorem drive_methods {nMethods : UInt8} {methods : List UInt8}
    (hlen : methods.length = nMethods.toNat) (rest : List UInt8) :
    reader.drive (.methods nMethods) (methods ++ rest) =
      if 0x00 ∉ methods then (.failed false, rest) else reader.drive .requestHeader rest := by
  rw [reader.drive_field (s := .methods nMethods) Bool.false_ne_true _ _ hlen.symm]
  change reader.drive (Phase.next (.methods nMethods) methods) rest = _
  rw [Phase.next]
  split
  · exact reader.drive_of_done rfl
  · rfl

theorem drive_greeting (g : Greeting) (rest : List UInt8) :
    reader.drive .greetingHeader (g.bytes ++ rest) = reader.drive .requestHeader rest := by
  have hheader : ¬ ((0x05 : UInt8) ≠ 0x05 ∨ UInt8.ofNat g.methods.length = 0) := by
    simp [g.nMethods_ne_zero]
  rw [Greeting.bytes, List.cons_append, List.cons_append, drive_greetingHeader, if_neg hheader,
    drive_methods g.toNat_nMethods.symm, if_neg (not_not.mpr g.noAuth)]

theorem drive_requestHeader {ver cmd rsv atyp : UInt8} (rest : List UInt8) :
    reader.drive .requestHeader (ver :: cmd :: rsv :: atyp :: rest) =
      reader.drive (Phase.next .requestHeader [ver, cmd, rsv, atyp]) rest :=
  reader.drive_field (s := .requestHeader) Bool.false_ne_true [ver, cmd, rsv, atyp] rest rfl

theorem drive_request (r : Request) (rest : List UInt8) :
    reader.drive .requestHeader (r.bytes ++ rest) = (.waiting r, rest) := by
  have hlen : (r.addr.toList ++ r.port.toList).length = r.family.size + 2 := by simp
  have hheader : Phase.next .requestHeader r.header = .address r.command r.family := by
    simp [Request.header, Phase.next]
  rw [Request.bytes, List.append_assoc, reader.drive_field (s := .requestHeader)
    Bool.false_ne_true _ _ rfl]
  change reader.drive (Phase.next .requestHeader r.header) _ = _
  rw [hheader, reader.drive_field (s := .address r.command r.family) Bool.false_ne_true _ _
    hlen.symm]
  change reader.drive (Phase.next (.address r.command r.family) _) rest = _
  rw [Phase.next_address]
  exact reader.drive_of_done rfl

/-! ## Every stream -/

/-- A request header is one of the four that are served, or it is refused. -/
theorem next_requestHeader (ver cmd rsv atyp : UInt8) :
    (∃ command family, [ver, cmd, rsv, atyp] = [0x05, Command.byte command, 0x00,
        Family.byte family] ∧
      Phase.next .requestHeader [ver, cmd, rsv, atyp] = .address command family) ∨
    ((ver ≠ 0x05 ∨ rsv ≠ 0x00 ∨ cmd ∉ [0x01, 0x02] ∨ atyp ∉ [0x01, 0x04]) ∧
      Phase.next .requestHeader [ver, cmd, rsv, atyp] = .failed true) := by
  rw [Phase.next]
  by_cases hfixed : ver ≠ 0x05 ∨ rsv ≠ 0x00
  · right
    rw [if_pos hfixed]
    exact ⟨hfixed.imp_right .inl, rfl⟩
  · rw [if_neg hfixed]
    push Not at hfixed
    obtain ⟨rfl, rfl⟩ := hfixed
    cases hcommand : Command.ofByte cmd with
    | none =>
      right
      exact ⟨.inr (.inr (.inl (Command.ofByte_eq_none hcommand))), rfl⟩
    | some command =>
      cases hfamily : Family.ofByte atyp with
      | none =>
        right
        exact ⟨.inr (.inr (.inr (Family.ofByte_eq_none hfamily))), rfl⟩
      | some family =>
        left
        exact ⟨command, family, by rw [Command.byte_of_ofByte hcommand,
          Family.byte_of_ofByte hfamily], rfl⟩

/-- From the request header on: a request, a refused header, or a field that has not all
arrived. -/
theorem drive_requestHeader_cases (s : List UInt8) :
    (∃ (r : Request) (rest : List UInt8), s = r.bytes ++ rest) ∨
    (∃ ver cmd rsv atyp rest, s = ver :: cmd :: rsv :: atyp :: rest ∧
      (ver ≠ 0x05 ∨ rsv ≠ 0x00 ∨ cmd ∉ [0x01, 0x02] ∨ atyp ∉ [0x01, 0x04]) ∧
      reader.drive .requestHeader s = (.failed true, rest)) ∨
    (reader.drive .requestHeader s).1.done = false := by
  match s with
  | ver :: cmd :: rsv :: atyp :: rest =>
    rcases next_requestHeader ver cmd rsv atyp with
      ⟨command, family, hheader, hnext⟩ | ⟨hbad, hnext⟩
    · rcases Nat.lt_or_ge rest.length (family.size + 2) with hshort | hlong
      · right; right
        rw [drive_requestHeader, hnext, reader.drive_of_short hshort]
        rfl
      · left
        have htake : (rest.take family.size).length = family.size := by
          rw [List.length_take]
          omega
        have hport : ((rest.drop family.size).take 2).length = 2 := by
          rw [List.length_take, List.length_drop]
          omega
        refine ⟨⟨command, family, ⟨_, htake⟩, ⟨_, hport⟩⟩, rest.drop (family.size + 2), ?_⟩
        simp only [List.cons.injEq] at hheader
        obtain ⟨rfl, rfl, rfl, rfl, -⟩ := hheader
        simp [Request.bytes, Request.header, List.Vector.toList, ← List.drop_drop]
    · right; left
      refine ⟨ver, cmd, rsv, atyp, rest, rfl, hbad, ?_⟩
      rw [drive_requestHeader, hnext]
      exact reader.drive_of_done rfl
  | [] | [_] | [_, _] | [_, _, _] =>
    right; right
    rw [reader.drive_of_short (by simp [reader, Phase.size])]
    rfl

/-- Methods that are all there and among which `0x00` is make up a greeting. -/
theorem exists_greeting {nMethods : UInt8} {s : List UInt8} (hne : nMethods ≠ 0)
    (hlong : nMethods.toNat ≤ s.length) (hauth : 0x00 ∈ s.take nMethods.toNat) :
    ∃ g : Greeting, 0x05 :: nMethods :: s = g.bytes ++ s.drop nMethods.toNat := by
  have hlen : (s.take nMethods.toNat).length = nMethods.toNat := List.length_take_of_le hlong
  have hbound := nMethods.toNat_lt
  have hpos : 1 ≤ nMethods.toNat := by
    rw [Ne, ← UInt8.toNat_inj, UInt8.toNat_zero] at hne
    omega
  obtain ⟨g, hg⟩ : ∃ g : Greeting, g.methods = s.take nMethods.toNat :=
    ⟨⟨_, by omega, by omega, hauth⟩, rfl⟩
  refine ⟨g, ?_⟩
  rw [Greeting.bytes, hg, hlen, UInt8.ofNat_toNat, List.cons_append, List.cons_append,
    List.take_append_drop]

/-- Every stream starts with a greeting, is refused before the request, or leaves a field
of the greeting open. -/
theorem drive_greeting_cases (s : List UInt8) :
    (∃ (g : Greeting) (rest : List UInt8), s = g.bytes ++ rest) ∨
    (Refused s ∧ ∃ rest, reader.drive .greetingHeader s = (.failed false, rest)) ∨
    (reader.drive .greetingHeader s).1.done = false := by
  match s with
  | [] | [_] =>
    right; right
    rw [reader.drive_of_short (by simp [reader, Phase.size])]
    rfl
  | ver :: nMethods :: s =>
    rw [drive_greetingHeader]
    by_cases hheader : ver ≠ 0x05 ∨ nMethods = 0
    · right; left
      exact ⟨.greetingHeader s hheader, s, if_pos hheader⟩
    · rw [if_neg hheader]
      push Not at hheader
      obtain ⟨rfl, hne⟩ := hheader
      rcases Nat.lt_or_ge s.length nMethods.toNat with hshort | hlong
      · right; right
        rw [reader.drive_of_short hshort]
        rfl
      · by_cases hauth : 0x00 ∈ s.take nMethods.toNat
        · left
          obtain ⟨g, hg⟩ := exists_greeting hne hlong hauth
          exact ⟨g, _, hg⟩
        · right; left
          have hlen := List.length_take_of_le hlong
          have hrefused := Refused.methods (s.drop nMethods.toNat) hne hlen hauth
          have hdrive := drive_methods hlen (s.drop nMethods.toNat)
          rw [List.take_append_drop] at hrefused hdrive
          exact ⟨hrefused, _, hdrive.trans (if_pos hauth)⟩

/-- Every stream starts with a complete handshake, is refused, or leaves a field
open. -/
theorem drive_cases (s : List UInt8) :
    (∃ (g : Greeting) (r : Request), g.bytes ++ r.bytes <+: s) ∨
    (Refused s ∧ ∃ greeted rest, reader.drive .greetingHeader s = (.failed greeted, rest)) ∨
    (reader.drive .greetingHeader s).1.done = false := by
  rcases drive_greeting_cases s with ⟨g, s, rfl⟩ | ⟨hrefused, rest, hfail⟩ | hopen
  · rw [drive_greeting]
    rcases drive_requestHeader_cases s with
      ⟨r, rest, rfl⟩ | ⟨ver, cmd, rsv, atyp, rest, rfl, hbad, hfail⟩ | hopen
    · left
      refine ⟨g, r, rest, ?_⟩
      rw [List.append_assoc]
    · exact .inr (.inl ⟨.requestHeader g rest hbad, true, rest, hfail⟩)
    · exact .inr (.inr hopen)
  · exact .inr (.inl ⟨hrefused, false, rest, hfail⟩)
  · exact .inr (.inr hopen)

theorem drive_of_refused {s : List UInt8} (h : Refused s) :
    ∃ greeted rest, reader.drive .greetingHeader s = (.failed greeted, rest) := by
  cases h with
  | greetingHeader rest h => exact ⟨false, rest, by rw [drive_greetingHeader, if_pos h]⟩
  | methods rest hn hlen h =>
    refine ⟨false, rest, ?_⟩
    rw [drive_greetingHeader, if_neg (by simp [hn]), drive_methods hlen, if_pos h]
  | @requestHeader g ver cmd rsv atyp rest h =>
    refine ⟨true, rest, ?_⟩
    rw [drive_greeting, drive_requestHeader]
    rcases next_requestHeader ver cmd rsv atyp with ⟨command, family, hheader, -⟩ | ⟨-, hnext⟩
    · exfalso
      simp only [List.cons.injEq] at hheader
      obtain ⟨rfl, rfl, rfl, rfl, -⟩ := hheader
      cases command <;> cases family <;> simp [Command.byte, Family.byte] at h
    · rw [hnext]
      exact reader.drive_of_done rfl

end PublicEndorsement.Proxy.Socks5
