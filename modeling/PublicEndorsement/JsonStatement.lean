import PublicEndorsement.EndorsementChecks
import PublicEndorsement.StatementClaims

/-!
# Reading a statement from a JSON tree

How the service's mapper turns a JSON tree into an `InTotoStatement`. A JSON null
becomes a Java null without a call of any constructor, wherever it stands; any other
tree read as an object calls the constructor of its class, and an exception of the
constructor is reported as an `IOException`. The constructors are those of
`InTotoStatement`, `ResourceDescriptor`, `OakPredicate` and `Validity`; the one of
`Claim` is `Claim.create`.
-/

namespace PublicEndorsement.Pes

/-- A JSON tree. A number is kept as it is written; an object is a map, in which the
first entry of a name counts. -/
inductive Json where
  | null
  | bool (value : Bool)
  | number (literal : Utf16)
  | string (value : Utf16)
  | array (elements : List Json)
  | object (fields : List (Utf16 × Json))

namespace Json

def asText : Json → Option Utf16
  | .bool value => some (text (if value then "true" else "false"))
  | .number literal => some literal
  | .string value => some value
  | _ => none

def field? (name : Utf16) : Json → Option Json
  | .object fields => fields.lookup name
  | _ => none

def textAt : List Utf16 → Json → Option Utf16
  | [], tree => tree.asText
  | name :: path, tree => (tree.field? name).bind (textAt path)

end Json

inductive BindingProblem where
  | missingCreatorProperty (name : Utf16)
  | mismatchedInput
  | valueInstantiation (e : Exn)

namespace Jackson

variable {α : Type}

def required (fields : List (Utf16 × Json)) (name : Utf16)
    (read : Json → Except BindingProblem (Option α)) : Except BindingProblem (Option α) :=
  match fields.lookup name with
  | none => .error (.missingCreatorProperty name)
  | some tree => read tree

/-- Any other creator property: it is null where it is missing. -/
def optional (fields : List (Utf16 × Json)) (name : Utf16)
    (read : Json → Except BindingProblem (Option α)) : Except BindingProblem (Option α) :=
  match fields.lookup name with
  | none => .ok none
  | some tree => read tree

/-- A `String` is read from any scalar. -/
def readString : Json → Except BindingProblem (Option Utf16)
  | .null => .ok none
  | tree =>
    match tree.asText with
    | some value => .ok (some value)
    | none => .error .mismatchedInput

def readMap : Json → Except BindingProblem (Option TextMap)
  | .null => .ok none
  | .object fields => do
    let entries ← fields.mapM (fun entry => do
      let value ← readString entry.2
      .ok (entry.1, value))
    .ok (some entries)
  | _ => .error .mismatchedInput

def readList (read : Json → Except BindingProblem (Option α)) :
    Json → Except BindingProblem (Option (List (Option α)))
  | .null => .ok none
  | .array elements => do
    let values ← elements.mapM read
    .ok (some values)
  | _ => .error .mismatchedInput

/-- The result of a constructor, whose exception is reported as the mapper's own. -/
def construct (result : Except Exn α) : Except BindingProblem (Option α) :=
  match result with
  | .ok value => .ok (some value)
  | .error e => .error (.valueInstantiation e)

def readObject (creator : List (Utf16 × Json) → Except BindingProblem (Option α)) :
    Json → Except BindingProblem (Option α)
  | .null => .ok none
  | .object fields => creator fields
  | _ => .error .mismatchedInput

end Jackson

open Mbs Jackson

structure ResourceDescriptor where
  name : Option Utf16
  digest : TextMap

namespace ResourceDescriptor

def isLowerHex (c : UInt16) : Bool := charBetween '0' '9' c || charBetween 'a' 'f' c

/-- The digest algorithms and their patterns; `^[0-9a-f]{64}$` is matched against the
whole text. -/
def intotoDigestPatterns : List (Utf16 × (Utf16 → Bool)) :=
  [(text "sha256", fun value => value.length = 64 && value.all isLowerHex)]

def validateAlgorithm (digest : TextMap) (foundValid : Bool) (entry : Utf16 × (Utf16 → Bool)) :
    Except Exn Bool :=
  match digest.lookup entry.1 with
  | none => .ok foundValid
  | some value =>
    if value.any entry.2 then .ok true
    else .error (.illegalArgument (text "Subject digest for '" ++ entry.1 ++
      text "' does not match the expected format: " ++ value.getD (text "null")))

def validateDigest (digest : TextMap) : Except Exn Unit :=
  if digest = [] then .error (.illegalArgument (text "Subject digest cannot be null or empty."))
  else do
    let foundValid ← intotoDigestPatterns.foldlM (validateAlgorithm digest) false
    if foundValid then .ok ()
    else .error (.illegalArgument
      (text "Subject digest must contain at least one supported digest algorithm: [" ++
        (text ", ").intercalate (intotoDigestPatterns.map Prod.fst) ++ text "]"))

def create (name : Option Utf16) (digest : Option TextMap) : Except Exn ResourceDescriptor :=
  match digest with
  | none => .error (.illegalArgument (text "Subject digest cannot be null or empty."))
  | some digest => do
    validateDigest digest
    .ok ⟨name, digest⟩

def read : Json → Except BindingProblem (Option ResourceDescriptor) :=
  readObject (fun fields => do
    let name ← Jackson.optional fields (text "name") readString
    let digest ← Jackson.optional fields (text "digest") readMap
    construct (create name digest))

end ResourceDescriptor

def Claim.read : Json → Except BindingProblem (Option Claim) :=
  readObject (fun fields => do
    let type ← required fields (text "type") readString
    let annotations ← Jackson.optional fields (text "annotations") readMap
    construct (Claim.create type annotations))

def Validity.read : Json → Except BindingProblem (Option Validity) :=
  readObject (fun fields => do
    let _notBefore ← required fields (text "notBefore") readString
    let notAfter ← required fields (text "notAfter") readString
    construct (.ok ⟨notAfter⟩))

namespace OakPredicate

/-- The constructor, which asks every claim for its type and so fails on a null. -/
def create (validity : Option Validity) (claims : Option (List (Option Claim))) :
    Except Exn OakPredicate :=
  match claims with
  | none | some [] => .error (.illegalArgument
      (text "The 'claims' array must be not empty and include exactly one publisher claim"))
  | some claims =>
    match claims.mapM id with
    | none => .error .nullPointer
    | some claims =>
      let operatorRolesClaimCount :=
        claims.countP (fun claim => claim.type = Claim.operatorRolesClaimType)
      if 1 < operatorRolesClaimCount then .error (.illegalArgument
        (text (s!"Expected at most one operator_roles claim, but found: {operatorRolesClaimCount}")))
      else .ok ⟨validity, claims⟩

def read : Json → Except BindingProblem (Option OakPredicate) :=
  readObject (fun fields => do
    let _issuedOn ← required fields (text "issuedOn") readString
    let validity ← required fields (text "validity") Validity.read
    let claims ← required fields (text "claims") (readList Claim.read)
    construct (create validity claims))

end OakPredicate

namespace InTotoStatement

def typeV1 : Utf16 := text "https://in-toto.io/Statement/v1"

def oakPredicateV1Type : Utf16 := text "https://project-oak.github.io/oak/tr/endorsement/v1"

/-- The constructor. Of the subject it keeps what no later step reads, so only its
checks are here. -/
def create (type : Option Utf16) (subject : Option (List (Option ResourceDescriptor)))
    (predicateType : Option Utf16) (predicate : Option OakPredicate) :
    Except Exn InTotoStatement :=
  match type with
  | none => .error (.illegalArgument (text "Field '_type' cannot be null!"))
  | some type =>
    if type ≠ typeV1 then .error (.illegalArgument
      (text "Statement _type is not '" ++ typeV1 ++ text "'. Got: " ++ type))
    else match predicateType with
    | none => .error (.illegalArgument (text "Field 'predicateType' cannot be null!"))
    | some predicateType =>
      if predicateType ≠ oakPredicateV1Type then .error (.illegalArgument
        (text "Statement predicateType is not '" ++ oakPredicateV1Type ++ text "'. Got: " ++
          predicateType))
      else match subject with
      | some [_] => .ok ⟨predicate⟩
      | _ => .error (.illegalArgument (text
          "The 'subject' array must be not empty and include exactly one resource descriptor."))

def read : Json → Except BindingProblem (Option InTotoStatement) :=
  readObject (fun fields => do
    let type ← required fields (text "_type") readString
    let subject ← required fields (text "subject") (readList ResourceDescriptor.read)
    let predicateType ← required fields (text "predicateType") readString
    let predicate ← required fields (text "predicate") OakPredicate.read
    construct (create type subject predicateType predicate))

end InTotoStatement

/-- The mapper: its parser gives the tree of a text or the message of an `IOException`. -/
structure ObjectMapper where
  readTree : Bytes → Except Utf16 Json
  getMessage : BindingProblem → Utf16

def ObjectMapper.readValue (mapper : ObjectMapper) (content : Bytes) :
    Except Utf16 (Option InTotoStatement) := do
  let tree ← mapper.readTree content
  match InTotoStatement.read tree with
  | .ok statement => .ok statement
  | .error problem => .error (mapper.getMessage problem)

end PublicEndorsement.Pes
