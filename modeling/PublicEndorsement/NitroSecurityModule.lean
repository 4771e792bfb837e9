import PublicEndorsement.KeyBackupStorage
import PublicEndorsement.InteractionSystem

/-!
# KMS calls from an enclave

`AwsKmsClient` asks KMS for data keys in the name of the enclave: it opens the Nitro security
module, has a fresh public key attested, and gets the data key encrypted for that key.
`AwsAttestationCollector` uses the module the same way. All calls of the process share the
descriptors of the module's device. What the module and KMS answer is left open, and every call
notes what it has asked and got.
-/

namespace PublicEndorsement.Mbs.Nitro

open Interaction

inductive Exn where
  | nitroSecurityModule (message : String) (errorCode : Int)
  | kms (message : String)
  | illegalArgument (message : String)
  | nullPointer
  | other (message : String)

structure KeyPair where
  publicKey : Bytes
  privateKey : Bytes

/-! ## The native library -/

structure NsmJniResult where
  attestationDoc : Option Bytes
  statusCode : Int

namespace NsmJniResult

def success : Int := 0
def nsmInitFailure : Int := -1
def jniObjectAllocationError : Int := -2

def ofDoc (attestationDoc : Bytes) : NsmJniResult := ⟨some attestationDoc, success⟩

def ofError (errorCode : Int) : NsmJniResult := ⟨none, errorCode⟩

end NsmJniResult

/-- What `nsm_jni.c` makes of the answer of `nsm_get_attestation_doc`. Both of its allocations may
fail; the module is asked only if the first one has succeeded. -/
def getAttestationDoc (docAllocated : Bool) (result : Int) (attestationDoc : Bytes)
    (outputAllocated : Bool) : NsmJniResult :=
  if !docAllocated then .ofError NsmJniResult.jniObjectAllocationError
  else if result = NsmJniResult.success then
    if outputAllocated then .ofDoc attestationDoc
    else .ofError NsmJniResult.jniObjectAllocationError
  else .ofError result

/-! ## Operations -/

structure GenerateDataKeyRequest where
  keyId : String
  attestationDocument : Bytes

structure DecryptRequest where
  ciphertextBlob : Bytes
  keyId : String
  attestationDocument : Bytes

structure KmsResponse where
  ciphertextBlob : Option Bytes
  ciphertextForRecipient : Option Bytes

inductive Result where
  | dataKey (key : KmsGeneratedKey)
  | plaintext (bytes : Bytes)
  | token (token : AttestationToken)
  | failed (e : Exn)

inductive Call where
  | init
  | exit (fd : Int)
  | getAttestationDoc (fd : Int) (userData nonce publicKey : Option Bytes)
  | generateKeyPair
  | generateDataKey (request : GenerateDataKeyRequest)
  | decrypt (request : DecryptRequest)
  | returned (result : Result)

abbrev Reply : Call → Type
  | .init => Int
  | .exit _ => Unit
  | .getAttestationDoc _ _ _ _ => NsmJniResult
  | .generateKeyPair => Except Exn KeyPair
  | .generateDataKey _ => Except Exn KmsResponse
  | .decrypt _ => Except Exn KmsResponse
  | .returned _ => Unit

abbrev Code (α : Type) := Fallible Call Reply Exn α

def perform (o : Call) : Code (Reply o) := Fallible.perform o

def orThrow {α : Type} : Except Exn α → Code α := Fallible.ofOutcome

def orNullPointer {α : Type} : Option α → Code α
  | some a => pure a
  | none => throw .nullPointer

/-! ## The module and its clients -/

namespace NitroSecurityModule

def create : Code Int := do
  let fd ← perform .init
  if fd < 0 then
    throw (.nitroSecurityModule ("Failed to initialize NSM library, fd: " ++ toString fd)
      NsmJniResult.nsmInitFailure)
  pure fd

def getAttestationDocument (fd : Int) (userData nonce publicKey : Option Bytes) :
    Code (Option Bytes) := do
  let attestationResult ← perform (.getAttestationDoc fd userData nonce publicKey)
  if attestationResult.statusCode = NsmJniResult.success then
    pure attestationResult.attestationDoc
  else
    throw (.nitroSecurityModule ("Failed to get attestation document, status_code: " ++
      toString attestationResult.statusCode) attestationResult.statusCode)

def close (fd : Int) : Code Unit :=
  if fd > 0 then perform (.exit fd) else pure ()

/-- `try (NitroSecurityModule nsm = nsmFactory.create())`. -/
def withModule {α : Type} (body : Int → Code α) : Code α := do
  let fd ← create
  let outcome ← Fallible.outcome (body fd)
  close fd
  Fallible.ofOutcome outcome

end NitroSecurityModule

section Clients

-- How BouncyCastle decrypts enveloped data with a private key.
variable (getContent : (privateKey ciphertext : Bytes) → Option Bytes)

namespace AwsKmsClient

def decryptCiphertextForRecipient (ciphertext : Bytes) (keyPair : KeyPair) : Code Bytes :=
  match getContent keyPair.privateKey ciphertext with
  | some content => pure content
  | none => throw (.other "CMS processing failed")

def attestKeyPair (fd : Int) : Code (KeyPair × Bytes) := do
  let keyPair ← orThrow (← perform .generateKeyPair)
  let attestationDoc ← orNullPointer
    (← NitroSecurityModule.getAttestationDocument fd none none (some keyPair.publicKey))
  pure (keyPair, attestationDoc)

def openResponse (keyPair : KeyPair) (response : KmsResponse) : Code Bytes :=
  match response.ciphertextForRecipient with
  | none | some [] =>
    throw (.kms "KMS response missing expected ciphertextForRecipient in attested flow")
  | some ciphertext => decryptCiphertextForRecipient getContent ciphertext keyPair

def generateDataKey (keyId : String) : Code KmsGeneratedKey :=
  tryCatch
    (NitroSecurityModule.withModule fun fd => do
      let (keyPair, attestationDoc) ← attestKeyPair fd
      let response ← orThrow (← perform (.generateDataKey ⟨keyId, attestationDoc⟩))
      let plaintext ← openResponse getContent keyPair response
      let ciphertext ← orNullPointer response.ciphertextBlob
      pure ⟨plaintext, ciphertext⟩)
    (fun _ => throw (.kms "Failed to generate data key from AWS KMS with NSM"))

def decrypt (ciphertext : Bytes) (keyId : String) : Code Bytes :=
  tryCatch
    (NitroSecurityModule.withModule fun fd => do
      let (keyPair, attestationDoc) ← attestKeyPair fd
      let response ← orThrow (← perform (.decrypt ⟨ciphertext, keyId, attestationDoc⟩))
      openResponse getContent keyPair response)
    (fun _ => throw (.kms "Failed to decrypt ciphertext using AWS KMS with NSM"))

end AwsKmsClient

namespace AwsAttestationCollector

def maxUserDataSize : ℕ := 1024

def validateSize (data : Bytes) (description : String) : Code Unit :=
  if data.length > maxUserDataSize then
    throw (.illegalArgument (description ++ " exceeds maximum size of " ++
      toString maxUserDataSize ++ " bytes"))
  else pure ()

/-- Both overloads: the user data is checked if there is any. -/
def collectBoundToPubkey (publicKey : PublicKey) (userData : Option Bytes) :
    Code AttestationToken := do
  validateSize publicKey.encoded "Public key"
  match userData with
  | some data => validateSize data "User data"
  | none => pure ()
  NitroSecurityModule.withModule fun fd => do
    let doc ← NitroSecurityModule.getAttestationDocument fd userData none (some publicKey.encoded)
    pure ⟨← orNullPointer doc⟩

end AwsAttestationCollector

inductive Work where
  | generateDataKey (keyId : String)
  | decrypt (ciphertext : Bytes) (keyId : String)
  | collectBoundToPubkey (publicKey : PublicKey) (userData : Option Bytes)

def Work.code : Work → Code Result
  | .generateDataKey keyId => do
    pure (.dataKey (← AwsKmsClient.generateDataKey getContent keyId))
  | .decrypt ciphertext keyId => do
    pure (.plaintext (← AwsKmsClient.decrypt getContent ciphertext keyId))
  | .collectBoundToPubkey publicKey userData => do
    pure (.token (← AwsAttestationCollector.collectBoundToPubkey publicKey userData))

def Work.program (work : Work) : Program Call Reply Unit :=
  (ExceptT.run (work.code getContent)).bind fun
    | .ok result => Interaction.perform (Call.returned result)
    | .error e => Interaction.perform (Call.returned (.failed e))

end Clients

/-! ## The device -/

structure Event where
  call : Call
  reply : Reply call

structure Finished (ι : Type) where
  caller : ι
  events : List Event
  result : Result

/-- `owner` has the open descriptors of the module's device with the calls that have opened them,
and `events` what a running call has done so far. `foreign` counts the uses of a descriptor by a
call that has not opened it. -/
structure Enclave (ι : Type) where
  owner : ℕ → Option ι
  events : ι → List Event
  foreign : ℕ
  finished : List (Finished ι)

/-- The answers of the kernel, the key generator, the security module and KMS. -/
inductive Choice where
  | fd (n : Int)
  | keyPair (r : Except Exn KeyPair)
  | document (docAllocated : Bool) (result : Int) (attestationDoc : Bytes) (outputAllocated : Bool)
  | response (r : Except Exn KmsResponse)
  | done

namespace Enclave

variable {ι : Type} [DecidableEq ι]

def record (s : Enclave ι) (i : ι) (e : Event) : Enclave ι :=
  { s with events := Function.update s.events i (s.events i ++ [e]) }

def use (s : Enclave ι) (i : ι) (fd : Int) : Enclave ι :=
  if s.owner fd.toNat = some i then s else { s with foreign := s.foreign + 1 }

/-- The kernel gives out any descriptor that is not open. -/
def init (s : Enclave ι) (i : ι) (n : Int) : Option (Enclave ι) :=
  if n < 0 then some s
  else if s.owner n.toNat = none then
    some { s with owner := Function.update s.owner n.toNat (some i) }
  else none

def exit (s : Enclave ι) (i : ι) (fd : Int) : Enclave ι :=
  { s.use i fd with owner := Function.update s.owner fd.toNat none }

def finish (s : Enclave ι) (i : ι) (result : Result) : Enclave ι :=
  { s with
    events := Function.update s.events i []
    finished := s.finished ++ [⟨i, s.events i, result⟩] }

def exec (i : ι) (o : Call) (choice : Choice) (s : Enclave ι) : Option (Reply o × Enclave ι) :=
  match o, choice with
  | .init, .fd n => (s.init i n).map fun s' => (n, s'.record i ⟨.init, n⟩)
  | .exit fd, .done => some ((), (s.exit i fd).record i ⟨.exit fd, ()⟩)
  | .getAttestationDoc fd userData nonce publicKey,
      .document docAllocated result attestationDoc outputAllocated =>
    let r := Nitro.getAttestationDoc docAllocated result attestationDoc outputAllocated
    some (r, (s.use i fd).record i ⟨.getAttestationDoc fd userData nonce publicKey, r⟩)
  | .generateKeyPair, .keyPair r => some (r, s.record i ⟨.generateKeyPair, r⟩)
  | .generateDataKey request, .response r => some (r, s.record i ⟨.generateDataKey request, r⟩)
  | .decrypt request, .response r => some (r, s.record i ⟨.decrypt request, r⟩)
  | .returned result, .done => some ((), s.finish i result)
  | _, _ => none

def initial : Enclave ι where
  owner _ := none
  events _ := []
  foreign := 0
  finished := []

end Enclave

def clients {ι : Type} [DecidableEq ι] (getContent : Bytes → Bytes → Option Bytes)
    (work : ι → Work) : Machine ι Call Reply (Enclave ι) Choice Empty where
  exec := Enclave.exec
  env := fun e _ => e.elim
  main := fun i => (work i).program getContent

end PublicEndorsement.Mbs.Nitro
