import PublicEndorsement.CertificateProvider
import PublicEndorsement.InteractionSystem

/-!
# Provider instances sharing the backup buckets

The objects are linearizable: each S3 request takes effect at one moment. A
request reported as failed may have taken effect already, may take effect at any
later moment, or may never do so. The history records every effect and every note.
-/

namespace PublicEndorsement.Mbs

open Interaction

/-- A write request, as S3 carries it out when it reaches the object. -/
inductive Effect where
  | put (key : ObjectKey) (content : Bytes) (ifNoneMatch : Bool)
  | delete (key : ObjectKey)
  deriving DecidableEq, Repr

inductive Event (ι : Type) where
  | created (i : ι) (key : ObjectKey)
  | wrote (key : ObjectKey) (content : Bytes)
  | deleted (key : ObjectKey)
  | readFailed (i : ι) (key : ObjectKey)
  | noted (i : ι) (n : Note)
  | installed (i : ι) (bundle : MeasurementBoundCertificate)
  | recorded (i : ι) (event : MbsEvent)

/-- `inFlight` holds the requests already reported as failed that S3 may still
carry out; `history` lists what happened, oldest first. -/
structure World (ι : Type) where
  objects : ObjectKey → Option Bytes
  inFlight : List Effect
  currentCertificate : ι → Option MeasurementBoundCertificate
  history : List (Event ι)

inductive Choice where
  | ok
  | s3Failure (e : SdkException) (tookEffect : Bool)
  | failure (e : Failure)
  | dataKey (k : KmsGeneratedKey)
  | certificate (c : X509CertificateAndPrivateKey)
  | attestation (t : AttestationToken)
  | bytes (b : Bytes)
  | verdict (v : Bool)

variable {ι : Type}

namespace World

def record (w : World ι) (e : Event ι) : World ι := { w with history := w.history ++ [e] }

/-- The `If-None-Match: *` precondition of a request. -/
def admits (w : World ι) : Effect → Bool
  | .put key _ ifNoneMatch => !ifNoneMatch || (w.objects key).isNone
  | .delete _ => true

def carryOut (w : World ι) (eff : Effect) : World ι :=
  if w.admits eff then
    match eff with
    | .put key content _ =>
      { w with
        objects := Function.update w.objects key (some content)
        history := w.history ++ [.wrote key content] }
    | .delete key =>
      { w with
        objects := Function.update w.objects key none
        history := w.history ++ [.deleted key] }
  else w

def postpone (w : World ι) (eff : Effect) : World ι := { w with inFlight := w.inFlight ++ [eff] }

def preconditionFailed : SdkException :=
  .s3 S3KeyBackupStorage.httpStatusPreconditionFailed
    (some S3KeyBackupStorage.awsErrorCodePreconditionFailed)

def request (w : World ι) (eff : Effect) : Choice → Option (Except SdkException Unit × World ι)
  | .ok =>
    if w.admits eff then some (.ok (), w.carryOut eff) else some (.error preconditionFailed, w)
  | .s3Failure e true => some (.error e, w.carryOut eff)
  | .s3Failure e false => some (.error e, w.postpone eff)
  | _ => none

/-- A failed GET is never mistaken for an absent object. -/
def getObject (w : World ι) (i : ι) (key : ObjectKey) :
    Choice → Option (Except SdkException Bytes × World ι)
  | .ok => some (((w.objects key).elim (.error .noSuchKey) .ok), w)
  | .s3Failure .noSuchKey _ => none
  | .s3Failure e _ => some (.error e, w.record (.readFailed i key))
  | _ => none

def putObject (w : World ι) (i : ι) (key : ObjectKey) (content : Bytes) (ifNoneMatch : Bool)
    (choice : Choice) : Option (Except SdkException Unit × World ι) :=
  match w.request (.put key content ifNoneMatch) choice with
  | some (.ok _, w') => some (.ok (), if ifNoneMatch then w'.record (.created i key) else w')
  | other => other

def answer {α : Type} (w : World ι) (value : Choice → Option α) :
    Choice → Option (Except Failure α × World ι)
  | .failure e => some (.error e, w)
  | choice => (value choice).map (fun a => (.ok a, w))

variable [DecidableEq ι]

def install (w : World ι) (i : ι) (bundle : MeasurementBoundCertificate) : World ι :=
  { w with
    currentCertificate := Function.update w.currentCertificate i (some bundle)
    history := w.history ++ [.installed i bundle] }

/-- KMS decryption is a function of the ciphertext whenever KMS answers; the other
ports may answer anything. -/
def exec (lib : Primitives) (i : ι) (o : Call) (choice : Choice) (w : World ι) :
    Option (Reply o × World ι) :=
  match o with
  | .getObject key => w.getObject i key choice
  | .putObject key content ifNoneMatch => w.putObject i key content ifNoneMatch choice
  | .deleteObject key => w.request (.delete key) choice
  | .kmsDecrypt ciphertext => w.answer (fun _ => lib.kmsDecrypt ciphertext) choice
  | .kmsGenerateDataKey => w.answer (fun | .dataKey k => some k | _ => none) choice
  | .certificateFactoryGenerate => w.answer (fun | .certificate c => some c | _ => none) choice
  | .collectBoundToPubkey _ _ => w.answer (fun | .attestation t => some t | _ => none) choice
  | .aeadEncrypt _ _ => w.answer (fun | .bytes b => some b | _ => none) choice
  | .sign _ _ _ => w.answer (fun | .bytes b => some b | _ => none) choice
  | .verify _ _ _ _ => w.answer (fun | .verdict v => some v | _ => none) choice
  | .sleep _ => w.answer (fun _ => some ()) choice
  | .recordEvent event => some ((), w.record (.recorded i event))
  | .setCurrentCertificate bundle => some ((), w.install i bundle)
  | .mark _ => some (w.history.length, w)
  | .note n => some ((), w.record (.noted i n))

def deliver (n : ℕ) (w : World ι) : Option (World ι) :=
  (w.inFlight[n]?).map (fun eff => { w with inFlight := w.inFlight.eraseIdx n }.carryOut eff)

def pristine : World ι where
  objects := fun _ => none
  inFlight := []
  currentCertificate := fun _ => none
  history := []

end World

/-- Any number of provider instances, each calling `reloadCertificate` any number of
times. Each may have its own configuration. -/
def providers [DecidableEq ι] (lib : Primitives) (cfg : ι → ProviderConfig) :
    Machine ι Call Reply (World ι) Choice ℕ where
  exec := World.exec lib
  env := World.deliver
  main := fun i => KmsMeasurementBoundCertificateProvider.invocation lib (cfg i)

end PublicEndorsement.Mbs
