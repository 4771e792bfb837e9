import PublicEndorsement.TracedRelation
import PublicEndorsement.TsaRequests

/-!
# What the log tells of the addresses

The addresses of the timestamping authorities must not be logged, not even in the messages of
exceptions. Two runs are compared that differ in nothing but the addresses: whatever is read from
the bucket and whatever fails on the way, they write the same warnings. What a library says of a
failure may have the address in it, and such exceptions are logged as causes; so the messages of
foreign exceptions are left open here, and only they may tell the runs apart.
-/

namespace PublicEndorsement.Pes.Tsa

open Mbs

variable {Token Holder : Type}

/-! ## Runs that differ in the addresses -/

/-- Exceptions of a library agree in their class, not in what they say. -/
inductive AlikeCauses : JavaException → JavaException → Prop
  | same (e : JavaException) : AlikeCauses e e
  | certificate (message message' : String) : AlikeCauses (.certificate message)
    (.certificate message')
  | checked (message message' : String) : AlikeCauses (.checked message) (.checked message')
  | unchecked (message message' : String) : AlikeCauses (.unchecked message) (.unchecked message')

/-- The one message of the service itself that quotes an exception. -/
inductive AlikeMessages : String → String → Prop
  | same (message : String) : AlikeMessages message message
  | unreadBody (statusCode : ℤ) (message message' : String) :
    AlikeMessages
      ("TSA server returned HTTP " ++ toString statusCode ++ ": " ++
        ("<failed to read error body: " ++ message ++ ">"))
      ("TSA server returned HTTP " ++ toString statusCode ++ ": " ++
        ("<failed to read error body: " ++ message' ++ ">"))

inductive AlikeExceptions : ClientException → ClientException → Prop
  | same (e : ClientException) : AlikeExceptions e e
  | tsa {message message' : String} {causes causes' : List JavaException}
    (hmessage : AlikeMessages message message')
    (hcauses : List.Forall₂ AlikeCauses causes causes') :
    AlikeExceptions (.tsa message causes) (.tsa message' causes')
  | io (message message' : String) : AlikeExceptions (.io message) (.io message')
  | interrupted (message message' : String) :
    AlikeExceptions (.interrupted message) (.interrupted message')
  | illegalArgument (message message' : String) :
    AlikeExceptions (.illegalArgument message) (.illegalArgument message')
  | illegalState (message message' : String) :
    AlikeExceptions (.illegalState message) (.illegalState message')
  | other {e e' : JavaException} (h : AlikeCauses e e') : AlikeExceptions (.other e) (.other e')

inductive AlikeLogged : JavaException → JavaException → Prop
  | cause {e e' : JavaException} (h : AlikeCauses e e') : AlikeLogged e e'
  | tsa {message message' : String} {causes causes' : List JavaException}
    (hmessage : AlikeMessages message message')
    (hcauses : List.Forall₂ AlikeCauses causes causes') :
    AlikeLogged (.tsa message causes) (.tsa message' causes')

variable {U : Uri → Uri → Prop} {ex ex' : Exchange Token}

theorem AlikeExceptions.toJava {e e' : ClientException} (h : AlikeExceptions e e') :
    AlikeLogged e.toJava e'.toJava := by
  cases h with
  | same e => exact .cause (.same _)
  | tsa hmessage hcauses => exact .tsa hmessage hcauses
  | io message message' => exact .cause (.checked message message')
  | interrupted message message' => exact .cause (.checked message message')
  | illegalArgument message message' => exact .cause (.unchecked message message')
  | illegalState message message' => exact .cause (.unchecked message message')
  | other h => exact .cause h

namespace S3TsaConfigProvider

end S3TsaConfigProvider

/-! ## The exchange -/

namespace SimpleTsaClient

variable (lib : Library Token Holder) (v : TsaTimestampVerifierImpl)

end SimpleTsaClient

/-! ## All runs -/

end PublicEndorsement.Pes.Tsa
