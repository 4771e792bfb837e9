import PublicEndorsement.SharedBuckets
import PublicEndorsement.ConditionalRuns

/-!
# Rotating the keys under running providers

An operator rotates the keys by deleting all artifacts and the lock; the next
instance that finds the storage empty generates a new backup. What happened
between two rotations is one generation. The instances do not take part in a
rotation: their programs are the ones of `SharedBuckets`.
-/

namespace PublicEndorsement.Mbs

open Interaction

/-- `past` holds the histories of the generations before the current one. `holdsLock`, `loading`
and `lastRead` follow the calls of each instance; no program reads them. -/
structure RotatingWorld (ι : Type) where
  past : List (List (Event ι))
  world : World ι
  holdsLock : ι → Bool
  loading : ι → Bool
  lastRead : ι → Option ObjectKey

/-- The lock is held from the PUT that created it until it is deleted. -/
def holdsAfter (held : Bool) (o : Call) : Reply o → Bool :=
  match o with
  | .putObject .lock _ true => fun r => held || r.isOk
  | .deleteObject .lock => fun _ => false
  | _ => fun _ => held

/-- Which `getKeyBackup` the instance is in: that of the load, or one of the two checks before. -/
def loadsAfter (loading : Bool) : Call → Bool
  | .mark site => site = .load
  | _ => loading

def Call.reads : Call → Option ObjectKey
  | .getObject key => some key
  | _ => none

variable {ι : Type}

namespace RotatingWorld

def generations (s : RotatingWorld ι) : List (List (Event ι)) := s.past ++ [s.world.history]

def events (s : RotatingWorld ι) : List (Event ι) := s.generations.flatten

/-- The operator deletes all artifacts and the lock. Requests in flight stay in flight. -/
def rotate (s : RotatingWorld ι) : RotatingWorld ι where
  past := s.generations
  world := { s.world with objects := fun _ => none, history := [] }
  holdsLock := fun _ => false
  loading := s.loading
  lastRead := s.lastRead

def pristine : RotatingWorld ι where
  past := []
  world := World.pristine
  holdsLock := fun _ => false
  loading := fun _ => false
  lastRead := fun _ => none

/-- The third read of a load was made, of the encrypted private key, and not yet the fourth. -/
def midLoad (s : RotatingWorld ι) (i : ι) : Bool :=
  s.loading i && s.lastRead i = some .aesEncryptedPrivateKey

variable [DecidableEq ι]

def afterCall (s : RotatingWorld ι) (i : ι) (o : Call) (r : Reply o) (w : World ι) :
    RotatingWorld ι where
  past := s.past
  world := w
  holdsLock := Function.update s.holdsLock i (holdsAfter (s.holdsLock i) o r)
  loading := Function.update s.loading i (loadsAfter (s.loading i) o)
  lastRead := Function.update s.lastRead i o.reads

def exec (lib : Primitives) (i : ι) (o : Call) (choice : Choice) (s : RotatingWorld ι) :
    Option (Reply o × RotatingWorld ι) :=
  (s.world.exec lib i o choice).map (fun answer => (answer.1, s.afterCall i o answer.1 answer.2))

end RotatingWorld

inductive Outside where
  | deliver (n : ℕ)
  | rotate

def rotating [DecidableEq ι] (lib : Primitives) (cfg : ι → ProviderConfig) :
    Machine ι Call Reply (RotatingWorld ι) Choice Outside where
  exec := RotatingWorld.exec lib
  env := fun
    | .deliver n, s => (s.world.deliver n).map (fun w => { s with world := w })
    | .rotate, s => some s.rotate
  main := fun i => KmsMeasurementBoundCertificateProvider.invocation lib (cfg i)

/-- `signature` relates a private key and data to the signatures made with it;
`keyPair` relates the two halves of a key pair. -/
structure Cryptography where
  signature : (sigAlgName : String) → PrivateKey → (data signature : Bytes) → Prop
  keyPair : PublicKey → PrivateKey → Prop

def Fits (lib : Primitives) (crypto : Cryptography) (certBytes privateKeyBytes : Bytes) : Prop :=
  ∃ certificate privateKey, lib.generateCertificate certBytes = some certificate ∧
    lib.generatePrivate certificate.publicKey.algorithm privateKeyBytes = some privateKey ∧
    crypto.keyPair certificate.publicKey privateKey

/-- What the ports are assumed to answer. A ciphertext decrypts to its plaintext or
not at all, a signature verifies only under the public key of its signer, and a
generated key pair is a new one: its private key fits no certificate stored before. -/
def Genuine (lib : Primitives) (crypto : Cryptography) :
    (o : Call) → Choice → RotatingWorld ι → Prop
  | .aeadEncrypt plaintext _, .bytes ciphertext, _ =>
    ∀ key decrypted, lib.aeadDecrypt key ciphertext = some decrypted → decrypted = plaintext
  | .sign sigAlgName key data, .bytes signature, _ => crypto.signature sigAlgName key data signature
  | .verify sigAlgName publicKey data signature, .verdict true, _ =>
    ∀ key, crypto.signature sigAlgName key data signature → crypto.keyPair publicKey key
  | .certificateFactoryGenerate, .certificate pair, s =>
    ∀ j keyBackup, .noted j (.putKeyBackup keyBackup) ∈ s.events →
      ¬ Fits lib crypto keyBackup.certBytes pair.privateKey.encoded
  | _, _, _ => True

def Effect.createsLock : Effect → Bool
  | .put .lock _ true => true
  | _ => false

/-- A moment at which a rotation is harmless. No write but attempts to create the lock
is in flight, and no running instance holds the lock or is between the third and the fourth
read of its load. -/
def Settled (c : Config ι Call Reply (RotatingWorld ι)) : Prop :=
  (∀ eff ∈ c.shared.world.inFlight, eff.createsLock = true) ∧
    ∀ i, match c.control i with
      | .running _ => c.shared.holdsLock i = false ∧ c.shared.midLoad i = false
      | _ => True

instance decidableSettled [Fintype ι] (c : Config ι Call Reply (RotatingWorld ι)) :
    Decidable (Settled c) :=
  have (i : ι) : Decidable (match c.control i with
      | .running _ => c.shared.holdsLock i = false ∧ c.shared.midLoad i = false
      | _ => True) :=
    match c.control i with
    | .running _ => inferInstanceAs (Decidable (_ ∧ _))
    | .idle => isTrue trivial
    | .crashed => isTrue trivial
  inferInstanceAs (Decidable (_ ∧ _))

def RotatesWhenSettled (c : Config ι Call Reply (RotatingWorld ι)) :
    Action ι Choice Outside → Prop
  | .env .rotate => Settled c
  | _ => True

instance decidableRotatesWhenSettled [Fintype ι] (c : Config ι Call Reply (RotatingWorld ι)) :
    ∀ a, Decidable (RotatesWhenSettled c a)
  | .env .rotate => decidableSettled c
  | .env (.deliver _) => isTrue trivial
  | .start _ => isTrue trivial
  | .advance _ _ => isTrue trivial
  | .crash _ => isTrue trivial

end PublicEndorsement.Mbs
