import PublicEndorsement.FallibleTriple
import PublicEndorsement.NitroSecurityModule

/-!
# Data keys of concurrent calls

Calls that run at the same time use their own descriptors only and close them, apart from
descriptor 0, which `close` leaves open. A call that succeeds has made its requests in one order,
each with what the one before has given it, and returns what it got itself. Where the security
module and KMS can be trusted, whatever is returned for a ciphertext is thus the plaintext behind
it: a call that decrypts gets what another one has generated.
-/

namespace PublicEndorsement.Mbs.Nitro

open Interaction Machine

variable {ι : Type}

/-! ## What a call may return -/

def closing (fd : Int) : List Event := if fd > 0 then [⟨.exit fd, ()⟩] else []

/-- A session in which KMS is asked something with the attestation document of a new key. -/
def kmsEvents (fd : Int) (keyPair : KeyPair) (doc : Bytes) (asked : Event) : List Event :=
  [⟨.init, fd⟩, ⟨.generateKeyPair, .ok keyPair⟩,
    ⟨.getAttestationDoc fd none none (some keyPair.publicKey), .ofDoc doc⟩, asked] ++ closing fd

structure Opens (getContent : Bytes → Bytes → Option Bytes) (keyPair : KeyPair)
    (response : KmsResponse) (content plaintext : Bytes) : Prop where
  present : response.ciphertextForRecipient = some content
  nonempty : content ≠ []
  decrypted : getContent keyPair.privateKey content = some plaintext

/-- Results with the events of the calls that return them. A result that is no failure has taken
the requests written here, with these very replies. -/
inductive Obtained (getContent : Bytes → Bytes → Option Bytes) :
    Work → List Event → Result → Prop
  | dataKey {keyId : String} {fd : Int} {keyPair : KeyPair} {doc content : Bytes}
    {response : KmsResponse} {key : KmsGeneratedKey}
    (hopens : Opens getContent keyPair response content key.plaintext)
    (hblob : response.ciphertextBlob = some key.ciphertext) :
    Obtained getContent (.generateDataKey keyId)
      (kmsEvents fd keyPair doc ⟨.generateDataKey ⟨keyId, doc⟩, .ok response⟩) (.dataKey key)
  | plaintext {ciphertext : Bytes} {keyId : String} {fd : Int} {keyPair : KeyPair}
    {doc content plaintext : Bytes} {response : KmsResponse}
    (hopens : Opens getContent keyPair response content plaintext) :
    Obtained getContent (.decrypt ciphertext keyId)
      (kmsEvents fd keyPair doc ⟨.decrypt ⟨ciphertext, keyId, doc⟩, .ok response⟩)
      (.plaintext plaintext)
  | token {publicKey : PublicKey} {userData : Option Bytes} {fd : Int} {token : AttestationToken}
    (hkey : publicKey.encoded.length ≤ AwsAttestationCollector.maxUserDataSize)
    (hdata : ∀ data ∈ userData, data.length ≤ AwsAttestationCollector.maxUserDataSize) :
    Obtained getContent (.collectBoundToPubkey publicKey userData)
      ([⟨.init, fd⟩, ⟨.getAttestationDoc fd userData none (some publicKey.encoded),
        .ofDoc token.bytes⟩] ++ closing fd) (.token token)
  | dataKeyFailed {keyId : String} {events : List Event} :
    Obtained getContent (.generateDataKey keyId) events
      (.failed (.kms "Failed to generate data key from AWS KMS with NSM"))
  | plaintextFailed {ciphertext : Bytes} {keyId : String} {events : List Event} :
    Obtained getContent (.decrypt ciphertext keyId) events
      (.failed (.kms "Failed to decrypt ciphertext using AWS KMS with NSM"))
  | tokenFailed {publicKey : PublicKey} {userData : Option Bytes} {events : List Event} {e : Exn} :
    Obtained getContent (.collectBoundToPubkey publicKey userData) events (.failed e)

namespace Enclave

/-- No call has used the descriptor of another, and what was returned is what the call has got. -/
structure Sound (getContent : Bytes → Bytes → Option Bytes) (work : ι → Work) (s : Enclave ι) :
    Prop where
  foreign : s.foreign = 0
  obtained : ∀ f ∈ s.finished, Obtained getContent (work f.caller) f.events f.result

structure Rely (i : ι) (s s' : Enclave ι) : Prop where
  owner : ∀ fd, s'.owner fd = some i ↔ s.owner fd = some i
  events : s'.events i = s.events i

def Closed (i : ι) (s : Enclave ι) : Prop := ∀ n, s.owner n = some i → n = 0

structure Rest (i : ι) (s : Enclave ι) : Prop where
  closed : s.Closed i
  events : s.events i = []

/-- A call in a session has opened its descriptor, and nothing else but descriptor 0. -/
structure Holds (i : ι) (fd : Int) (s : Enclave ι) : Prop where
  own : s.owner fd.toNat = some i
  only : ∀ n, s.owner n = some i → n = 0 ∨ n = fd.toNat

end Enclave

open Enclave

section Rules

variable (getContent : Bytes → Bytes → Option Bytes) (work : ι → Work)

def nitroProtocol : Protocol ι (Enclave ι) where
  inv := Sound getContent work
  rely := Rely
  rely_refl _ _ := ⟨fun _ => Iff.rfl, rfl⟩
  rely_trans _ _ _ _ h h' :=
    ⟨fun fd => (h'.owner fd).trans (h.owner fd), h'.events.trans h.events⟩

abbrev Ensures [DecidableEq ι] {α : Type} (i : ι) (P : Enclave ι → Prop) (x : Code α)
    (Q : α → Enclave ι → Prop) (E : Exn → Enclave ι → Prop) : Prop :=
  (clients getContent work).Spec (nitroProtocol getContent work) i P x Q E

end Rules

variable {getContent : Bytes → Bytes → Option Bytes} {work : ι → Work} {i : ι} {fd : Int}

section Stable

theorem stable_closed : (nitroProtocol getContent work).Stable i (Closed i) :=
  fun _ _ _ _ hrely h n hn => h n ((hrely.owner n).mp hn)

theorem stable_holds : (nitroProtocol getContent work).Stable i (Holds i fd) :=
  fun _ _ _ _ hrely h => ⟨(hrely.owner _).mpr h.own, fun n hn => h.only n ((hrely.owner n).mp hn)⟩

theorem stable_events (T : List Event → Prop) :
    (nitroProtocol getContent work).Stable i (fun s => T (s.events i)) := by
  intro s s' _ _ hrely h
  rwa [hrely.events]

/-- Inside of a session, after the given events. -/
theorem stable_at (events : List Event) : (nitroProtocol getContent work).Stable i
    (fun s => s.Holds i fd ∧ s.events i = events) :=
  stable_holds.and (stable_events (· = events))

theorem stable_rest : (nitroProtocol getContent work).Stable i (Rest i) :=
  fun s s' hs hs' hrely h =>
    ⟨stable_closed s s' hs hs' hrely h.closed, hrely.events.trans h.events⟩

end Stable

/-! ## The operations -/

variable [DecidableEq ι] {α : Type}

theorem use_of_holds {s : Enclave ι} (h : s.Holds i fd) : s.use i fd = s := if_pos h.own

/-- What a call notes is no concern of the others. -/
theorem guarantee_record {s s' : Enclave ι} (e : Event) (hs : s'.Sound getContent work)
    (howner : ∀ j, j ≠ i → ∀ n, s'.owner n = some j ↔ s.owner n = some j)
    (hevents : s'.events = s.events) :
    (nitroProtocol getContent work).Guarantee i s (s'.record i e) := by
  refine ⟨⟨hs.foreign, hs.obtained⟩, fun j hj => ⟨howner j hj, ?_⟩⟩
  exact (Function.update_of_ne hj _ _).trans (congrFun hevents j)

omit [DecidableEq ι] in
/-- A change of one descriptor that does not concern call `j`. -/
theorem update_owner_iff {owner : ℕ → Option ι} {n : ℕ} {v : Option ι} {j : ι}
    (hold : owner n ≠ some j) (hnew : v ≠ some j) (m : ℕ) :
    Function.update owner n v m = some j ↔ owner m = some j := by
  by_cases hm : m = n
  · subst hm
    rw [Function.update_self]
    exact iff_of_false hnew hold
  · rw [Function.update_of_ne hm]

theorem init_spec {E : Exn → Enclave ι → Prop} :
    Ensures getContent work i (Rest i) (perform .init)
      (fun fd s => fd < 0 ∧ s.Closed i ∨ 0 ≤ fd ∧ s.Holds i fd ∧ s.events i = [⟨.init, fd⟩]) E := by
  refine Spec.perform stable_rest (fun fd => ?_) ?_
  · intro s s' hs hs' hrely h
    exact h.imp (And.imp_right (stable_closed s s' hs hs' hrely))
      (And.imp_right (stable_at [⟨.init, fd⟩] s s' hs hs' hrely))
  · intro s choice fd s' hs hrest hexec
    cases choice with
    | fd n =>
      change (s.init i n).map (fun s' => (n, s'.record i ⟨.init, n⟩)) = some (fd, s') at hexec
      simp only [Enclave.init] at hexec
      split_ifs at hexec with hneg hfree
      · cases hexec
        exact ⟨guarantee_record _ hs (fun _ _ _ => Iff.rfl) rfl, .inl ⟨hneg, hrest.closed⟩⟩
      · cases hexec
        refine ⟨guarantee_record _ ⟨hs.foreign, hs.obtained⟩ (fun j hj => update_owner_iff ?_ ?_)
          rfl, .inr ⟨not_lt.mp hneg, ⟨Function.update_self .., fun m hm => ?_⟩, ?_⟩⟩
        · rw [hfree]
          exact (Option.some_ne_none j).symm
        · exact fun h => hj (Option.some_injective _ h).symm
        · by_cases hmn : m = fd.toNat
          · exact .inr hmn
          · change Function.update s.owner fd.toNat (some i) m = some i at hm
            rw [Function.update_of_ne hmn] at hm
            exact .inl (hrest.closed m hm)
        · change Function.update s.events i (s.events i ++ [⟨.init, fd⟩]) i = _
          rw [Function.update_self, hrest.events]
          rfl
      · cases hexec
    | _ => cases hexec

/-- Calls that ask something in the session of a descriptor. -/
def Call.Asks (fd : Int) : Call → Prop
  | .getAttestationDoc fd' _ _ _ => fd' = fd
  | .generateKeyPair | .generateDataKey _ | .decrypt _ => True
  | .init | .exit _ | .returned _ => False

theorem exec_of_asks {o : Call} (hasks : o.Asks fd) {s s' : Enclave ι} {choice : Choice}
    {r : Reply o} (hholds : s.Holds i fd) (hexec : s.exec i o choice = some (r, s')) :
    s' = s.record i ⟨o, r⟩ := by
  cases o with
  | getAttestationDoc fd' userData nonce publicKey =>
    cases hasks
    cases choice with
    | document docAllocated result attestationDoc outputAllocated =>
      cases hexec
      rw [use_of_holds hholds]
    | _ => cases hexec
  | generateKeyPair | generateDataKey | decrypt =>
    cases choice <;> cases hexec
    rfl
  | init | exit | returned => cases hasks

theorem asks_spec {o : Call} (hasks : o.Asks fd) (events : List Event) :
    Ensures getContent work i (fun s => s.Holds i fd ∧ s.events i = events) (perform o)
      (fun r s => s.Holds i fd ∧ s.events i = events ++ [⟨o, r⟩]) (fun _ => Holds i fd) := by
  refine Spec.perform (stable_at events) (fun r => stable_at (events ++ [⟨o, r⟩])) ?_
  rintro s choice r s' hs ⟨hholds, hevents⟩ hexec
  rw [exec_of_asks hasks hholds hexec]
  refine ⟨guarantee_record _ hs (fun _ _ _ => Iff.rfl) rfl, ⟨hholds.own, hholds.only⟩, ?_⟩
  change Function.update s.events i (s.events i ++ [⟨o, r⟩]) i = _
  rw [Function.update_self, hevents]

theorem exit_spec (T : List Event → Prop) {E : Exn → Enclave ι → Prop} :
    Ensures getContent work i (fun s => s.Holds i fd ∧ T (s.events i ++ [⟨.exit fd, ()⟩]))
      (perform (.exit fd)) (fun _ s => s.Closed i ∧ T (s.events i)) E := by
  refine Spec.perform (stable_holds.and (stable_events fun events => T (events ++ _)))
    (fun _ => stable_closed.and (stable_events T)) ?_
  rintro s choice u s' hs ⟨hholds, hT⟩ hexec
  cases choice with
  | done =>
    cases hexec
    have hexit : s.exit i fd = { s with owner := Function.update s.owner fd.toNat none } := by
      rw [Enclave.exit, use_of_holds hholds]
    rw [hexit]
    refine ⟨guarantee_record _ ⟨hs.foreign, hs.obtained⟩ (fun j hj => update_owner_iff ?_
      (Option.some_ne_none j).symm) rfl, fun n hn => ?_, ?_⟩
    · rw [hholds.own]
      exact fun h => hj (Option.some_injective _ h).symm
    · change Function.update s.owner fd.toNat none n = some i at hn
      by_cases hne : n = fd.toNat
      · rw [hne, Function.update_self] at hn
        cases hn
      · rw [Function.update_of_ne hne] at hn
        exact (hholds.only n hn).resolve_right hne
    · change T (Function.update s.events i (s.events i ++ [⟨.exit fd, ()⟩]) i)
      rwa [Function.update_self]
  | _ => cases hexec

/-! ## Sessions -/

theorem orThrow_spec {P : Enclave ι → Prop} {E : Exn → Enclave ι → Prop} {r : Except Exn α}
    (hP : (nitroProtocol getContent work).Stable i P) (hE : ∀ e s, P s → E e s) :
    Ensures getContent work i P (orThrow r) (fun a s => P s ∧ r = .ok a) E := by
  cases r with
  | ok a => exact Spec.pure hP fun s _ h => ⟨h, rfl⟩
  | error e => exact Spec.throw hP fun s _ h => hE e s h

theorem orNullPointer_spec {P : Enclave ι → Prop} {E : Exn → Enclave ι → Prop} {o : Option α}
    (hP : (nitroProtocol getContent work).Stable i P) (hE : ∀ e s, P s → E e s) :
    Ensures getContent work i P (orNullPointer o) (fun a s => P s ∧ o = some a) E := by
  cases o with
  | some a => exact Spec.pure hP fun s _ h => ⟨h, rfl⟩
  | none => exact Spec.throw hP fun s _ h => hE _ s h

namespace NitroSecurityModule

theorem create_spec :
    Ensures getContent work i (Rest i) create
      (fun fd s => s.Holds i fd ∧ s.events i = [⟨.init, fd⟩]) (fun _ => Closed i) := by
  refine init_spec.bind fun fd => ?_
  split_ifs with hneg
  · refine Spec.ofPre (P := Closed i) (Spec.throw stable_closed fun _ _ h => h) ?_
    rintro s - (⟨-, hclosed⟩ | ⟨hpos, -⟩)
    · exact hclosed
    · exact absurd hneg (not_lt.mpr hpos)
  · refine Spec.ofPre (Spec.pure (stable_at [⟨.init, fd⟩]) fun _ _ h => h) ?_
    rintro s - (⟨hneg', -⟩ | ⟨-, h⟩)
    · exact absurd hneg' hneg
    · exact h

/-- Descriptor 0 is not closed; it stays open for good. -/
theorem close_spec (T : List Event → Prop) {E : Exn → Enclave ι → Prop} :
    Ensures getContent work i (fun s => s.Holds i fd ∧ T (s.events i ++ closing fd)) (close fd)
      (fun _ s => s.Closed i ∧ T (s.events i)) E := by
  unfold close closing
  split_ifs with hpos
  · exact exit_spec T
  · simp only [List.append_nil]
    refine Spec.pure (stable_holds.and (stable_events T)) ?_
    rintro s - ⟨hholds, hT⟩
    refine ⟨fun n hn => (hholds.only n hn).elim id fun hfd => ?_, hT⟩
    rw [hfd]
    omega

theorem withModule_spec {body : Int → Code α} (T : α → List Event → Prop)
    (hbody : ∀ fd, Ensures getContent work i (fun s => s.Holds i fd ∧ s.events i = [⟨.init, fd⟩])
      (body fd) (fun a s => s.Holds i fd ∧ T a (s.events i ++ closing fd)) (fun _ => Holds i fd)) :
    Ensures getContent work i (Rest i) (withModule body) (fun a s => s.Closed i ∧ T a (s.events i))
      (fun _ => Closed i) := by
  refine create_spec.bind fun fd => (hbody fd).outcome.bind fun r => ?_
  cases r with
  | ok a =>
    refine (close_spec (T a)).bind fun _ => ?_
    exact Spec.pure (stable_closed.and (stable_events (T a))) fun _ _ h => h
  | error e =>
    refine ((close_spec fun _ => True).ofPre fun _ _ h => ⟨h, trivial⟩).bind fun _ => ?_
    exact Spec.throw (stable_closed.and (.const _)) fun _ _ h => h.1

/-- The document is the one that the module has given out for this request. -/
theorem getAttestationDocument_spec (events : List Event)
    (userData nonce publicKey : Option Bytes) :
    Ensures getContent work i (fun s => s.Holds i fd ∧ s.events i = events)
      (getAttestationDocument fd userData nonce publicKey)
      (fun doc s => s.Holds i fd ∧ s.events i = events ++
        [⟨.getAttestationDoc fd userData nonce publicKey, ⟨doc, NsmJniResult.success⟩⟩])
      (fun _ => Holds i fd) := by
  refine (asks_spec (o := .getAttestationDoc fd userData nonce publicKey) rfl events).bind ?_
  rintro ⟨doc, statusCode⟩
  split_ifs with hsuccess
  · cases hsuccess
    exact Spec.pure (stable_at _) fun _ _ h => h
  · exact Spec.throw (stable_at _) fun _ _ h => h.1

end NitroSecurityModule

namespace AwsKmsClient

def attested (fd : Int) (r : KeyPair × Bytes) : List Event :=
  [⟨.init, fd⟩, ⟨.generateKeyPair, .ok r.1⟩,
    ⟨.getAttestationDoc fd none none (some r.1.publicKey), .ofDoc r.2⟩]

theorem attestKeyPair_spec :
    Ensures getContent work i (fun s => s.Holds i fd ∧ s.events i = [⟨.init, fd⟩])
      (attestKeyPair fd) (fun r s => s.Holds i fd ∧ s.events i = attested fd r)
      (fun _ => Holds i fd) := by
  refine (asks_spec (o := .generateKeyPair) trivial _).bind fun r => ?_
  refine (orThrow_spec (stable_at _) fun _ _ h => h.1).bindFact fun keyPair hkeyPair => ?_
  subst hkeyPair
  refine (NitroSecurityModule.getAttestationDocument_spec _ _ _ _).bind fun o => ?_
  refine (orNullPointer_spec (stable_at _) fun _ _ h => h.1).bindFact fun doc hdoc => ?_
  subst hdoc
  exact Spec.pure (stable_at _) fun _ _ h => h

theorem openResponse_spec (events : List Event) (keyPair : KeyPair) (response : KmsResponse) :
    Ensures getContent work i (fun s => s.Holds i fd ∧ s.events i = events)
      (openResponse getContent keyPair response)
      (fun plaintext s => (s.Holds i fd ∧ s.events i = events) ∧
        ∃ content, Opens getContent keyPair response content plaintext)
      (fun _ => Holds i fd) := by
  unfold openResponse
  rcases hcontent : response.ciphertextForRecipient with _ | (_ | ⟨b, content⟩)
  · exact Spec.throw (stable_at _) fun _ _ h => h.1
  · exact Spec.throw (stable_at _) fun _ _ h => h.1
  · dsimp only
    unfold decryptCiphertextForRecipient
    cases hopen : getContent keyPair.privateKey (b :: content) with
    | none => exact Spec.throw (stable_at _) fun _ _ h => h.1
    | some plaintext =>
      exact Spec.pure (stable_at _) fun _ _ h =>
        ⟨h, b :: content, hcontent, List.cons_ne_nil _ _, hopen⟩

theorem generateDataKey_spec (keyId : String) :
    Ensures getContent work i (Rest i) (generateDataKey getContent keyId)
      (fun key s => s.Closed i ∧
        Obtained getContent (.generateDataKey keyId) (s.events i) (.dataKey key))
      (fun e s => s.Closed i ∧
        e = .kms "Failed to generate data key from AWS KMS with NSM") := by
  refine Spec.tryCatch (NitroSecurityModule.withModule_spec (fun key events =>
    Obtained getContent (.generateDataKey keyId) events (.dataKey key)) fun fd => ?_)
    fun e => Spec.throw stable_closed fun _ _ h => ⟨h, rfl⟩
  refine attestKeyPair_spec.bind ?_
  rintro ⟨keyPair, doc⟩
  refine (asks_spec (o := .generateDataKey ⟨keyId, doc⟩) trivial _).bind fun r => ?_
  refine (orThrow_spec (stable_at _) fun _ _ h => h.1).bindFact fun response hresponse => ?_
  subst hresponse
  refine (openResponse_spec _ keyPair response).bindFact fun plaintext hopens => ?_
  obtain ⟨content, hopens⟩ := hopens
  refine (orNullPointer_spec (stable_at _) fun _ _ h => h.1).bindFact
    fun ciphertext hciphertext => ?_
  refine Spec.pure (stable_at _) ?_
  rintro s - ⟨hholds, hevents⟩
  refine ⟨hholds, ?_⟩
  rw [hevents]
  change Obtained getContent _ (kmsEvents fd keyPair doc _) _
  exact .dataKey hopens hciphertext

theorem decrypt_spec (ciphertext : Bytes) (keyId : String) :
    Ensures getContent work i (Rest i) (decrypt getContent ciphertext keyId)
      (fun plaintext s => s.Closed i ∧
        Obtained getContent (.decrypt ciphertext keyId) (s.events i) (.plaintext plaintext))
      (fun e s => s.Closed i ∧
        e = .kms "Failed to decrypt ciphertext using AWS KMS with NSM") := by
  refine Spec.tryCatch (NitroSecurityModule.withModule_spec (fun plaintext events =>
    Obtained getContent (.decrypt ciphertext keyId) events (.plaintext plaintext)) fun fd => ?_)
    fun e => Spec.throw stable_closed fun _ _ h => ⟨h, rfl⟩
  refine attestKeyPair_spec.bind ?_
  rintro ⟨keyPair, doc⟩
  refine (asks_spec (o := .decrypt ⟨ciphertext, keyId, doc⟩) trivial _).bind fun r => ?_
  refine (orThrow_spec (stable_at _) fun _ _ h => h.1).bindFact fun response hresponse => ?_
  subst hresponse
  refine (openResponse_spec _ keyPair response).conseq (fun _ _ h => h) ?_ fun _ _ _ h => h
  rintro plaintext s - ⟨⟨hholds, hevents⟩, content, hopens⟩
  refine ⟨hholds, ?_⟩
  rw [hevents]
  change Obtained getContent _ (kmsEvents fd keyPair doc _) _
  exact .plaintext hopens

end AwsKmsClient

namespace AwsAttestationCollector

theorem validateSize_spec (data : Bytes) (description : String) :
    Ensures getContent work i (Rest i) (validateSize data description)
      (fun _ s => s.Rest i ∧ data.length ≤ maxUserDataSize) (fun _ => Closed i) := by
  unfold validateSize
  split_ifs with hsize
  · exact Spec.throw stable_rest fun _ _ h => h.closed
  · exact Spec.pure stable_rest fun _ _ h => ⟨h, not_lt.mp hsize⟩

theorem collectBoundToPubkey_spec (publicKey : PublicKey) (userData : Option Bytes) :
    Ensures getContent work i (Rest i) (collectBoundToPubkey publicKey userData)
      (fun token s => s.Closed i ∧
        Obtained getContent (.collectBoundToPubkey publicKey userData) (s.events i) (.token token))
      (fun _ => Closed i) := by
  refine (validateSize_spec _ _).bindFact fun _ hkey => ?_
  have hsession (hdata : ∀ data ∈ userData, data.length ≤ maxUserDataSize) :
      Ensures getContent work i (Rest i) (NitroSecurityModule.withModule fun fd => do
        let doc ←
          NitroSecurityModule.getAttestationDocument fd userData none (some publicKey.encoded)
        pure (AttestationToken.mk (← orNullPointer doc)))
      (fun token s => s.Closed i ∧
        Obtained getContent (.collectBoundToPubkey publicKey userData) (s.events i) (.token token))
      (fun _ => Closed i) := by
    refine NitroSecurityModule.withModule_spec (fun token events =>
      Obtained getContent (.collectBoundToPubkey publicKey userData) events (.token token))
      fun fd => ?_
    refine (NitroSecurityModule.getAttestationDocument_spec _ _ _ _).bind fun o => ?_
    refine (orNullPointer_spec (stable_at _) fun _ _ h => h.1).bindFact fun doc hdoc => ?_
    subst hdoc
    refine Spec.pure (stable_at _) ?_
    rintro s - ⟨hholds, hevents⟩
    refine ⟨hholds, ?_⟩
    rw [hevents]
    exact .token hkey hdata
  cases userData with
  | some data =>
    refine (validateSize_spec _ _).bindFact fun _ hsize => hsession ?_
    rintro _ ⟨⟩
    exact hsize
  | none => exact hsession (by rintro _ ⟨⟩)

end AwsAttestationCollector

/-! ## Calls at the same time -/

theorem Work.code_spec (w : Work) :
    Ensures getContent work i (Rest i) (w.code getContent)
      (fun result s => s.Closed i ∧ Obtained getContent w (s.events i) result)
      (fun e s => s.Closed i ∧ Obtained getContent w (s.events i) (.failed e)) := by
  have hstable (result : Result) : (nitroProtocol getContent work).Stable i
      (fun s => s.Closed i ∧ Obtained getContent w (s.events i) result) :=
    stable_closed.and (stable_events (Obtained getContent w · result))
  cases w with
  | generateDataKey keyId =>
    refine Spec.bind ((AwsKmsClient.generateDataKey_spec keyId).conseq (fun _ _ h => h)
      (fun _ _ _ h => h) ?_) fun key => Spec.pure (hstable (.dataKey key)) fun _ _ h => h
    rintro e s - ⟨hclosed, rfl⟩
    exact ⟨hclosed, .dataKeyFailed⟩
  | decrypt ciphertext keyId =>
    refine Spec.bind ((AwsKmsClient.decrypt_spec ciphertext keyId).conseq (fun _ _ h => h)
      (fun _ _ _ h => h) ?_) fun bytes => Spec.pure (hstable (.plaintext bytes)) fun _ _ h => h
    rintro e s - ⟨hclosed, rfl⟩
    exact ⟨hclosed, .plaintextFailed⟩
  | collectBoundToPubkey publicKey userData =>
    refine Spec.bind ((AwsAttestationCollector.collectBoundToPubkey_spec publicKey userData).conseq
      (fun _ _ h => h) (fun _ _ _ h => h) fun e s _ h => ⟨h, .tokenFailed⟩)
      fun token => Spec.pure (hstable (.token token)) fun _ _ h => h

theorem returned_spec (result : Result) :
    (clients getContent work).Triple (nitroProtocol getContent work) i
      (fun s => s.Closed i ∧ Obtained getContent (work i) (s.events i) result)
      (Interaction.perform (Call.returned result)) (fun _ => Rest i) := by
  refine Triple.perform (stable_closed.and (stable_events (Obtained getContent (work i) · result)))
    (fun _ => stable_rest) ?_
  rintro s choice u s' hs ⟨hclosed, hobtained⟩ hexec
  cases choice with
  | done =>
    cases hexec
    refine ⟨⟨⟨hs.foreign, fun f hf => ?_⟩, fun j hj => ⟨fun _ => Iff.rfl, ?_⟩⟩, hclosed, ?_⟩
    · rcases List.mem_append.mp hf with hf | hf
      · exact hs.obtained f hf
      · cases List.mem_singleton.mp hf
        exact hobtained
    · exact Function.update_of_ne hj _ _
    · exact Function.update_self ..
  | _ => cases hexec

theorem Work.program_spec (i : ι) :
    (clients getContent work).Triple (nitroProtocol getContent work) i (Rest i)
      ((work i).program getContent) (fun _ => Rest i) := by
  refine Triple.bind (Work.code_spec (work i)) fun r => ?_
  cases r with
  | ok result => exact returned_spec result
  | error e => exact returned_spec (.failed e)

def afterCalls (getContent : Bytes → Bytes → Option Bytes) (work : ι → Work)
    (schedule : List (Action ι Choice Empty)) : Config ι Call Reply (Enclave ι) :=
  (clients getContent work).run Enclave.initial schedule

theorem run_sound (getContent : Bytes → Bytes → Option Bytes) (work : ι → Work)
    (schedule : List (Action ι Choice Empty)) :
    (afterCalls getContent work schedule).shared.Sound getContent work ∧
    ∀ i, (afterCalls getContent work schedule).control i = .idle →
      (afterCalls getContent work schedule).shared.Rest i :=
  run_rest (fun _ => stable_rest) Enclave.initial (R := nitroProtocol getContent work)
    (M := clients getContent work) ⟨rfl, by rintro f ⟨⟩⟩
    (fun i => ⟨by rintro n ⟨⟩, rfl⟩) Work.program_spec (fun e => e.elim) schedule

/-! ## Whom the clients trust -/

/-- What the clients cannot see. KMS knows its keys by ids, ARNs and aliases, and an alias may have
named several of them; `opens` has the key and the plaintext behind a ciphertext. -/
structure Parties (Key : Type) where
  isPair : (publicKey privateKey : Bytes) → Prop
  envelops : (ciphertext publicKey content : Bytes) → Prop
  attestedKey : (document : Bytes) → Option Bytes
  names : (keyId : String) → Key → Prop
  opens : (ciphertext : Bytes) → Option (Key × Bytes)

variable {Key : Type}

/-- The content is the plaintext behind the ciphertext, for the key in the document. -/
def Parties.Discloses (p : Parties Key) (keyId : String) (ciphertext document content : Bytes) :
    Prop :=
  ∃ key plaintext publicKey, p.names keyId key ∧ p.opens ciphertext = some (key, plaintext) ∧
    p.attestedKey document = some publicKey ∧ p.envelops content publicKey plaintext

def Enclave.Saw (s : Enclave ι) (e : Event) : Prop := ∃ f ∈ s.finished, e ∈ f.events

/-- What has to be assumed about the libraries, the security module and KMS: BouncyCastle decrypts
what was encrypted for a key, the generator makes keys that belong together, a document of the
module attests the key it was asked for, and a response of KMS discloses to that key the plaintext
that belongs to its ciphertext, or to the one that was sent. -/
structure Parties.Trusted (p : Parties Key) (getContent : Bytes → Bytes → Option Bytes)
    (s : Enclave ι) : Prop where
  getContent : ∀ ciphertext publicKey privateKey content, p.isPair publicKey privateKey →
    p.envelops ciphertext publicKey content → getContent privateKey ciphertext = some content
  generateKeyPair : ∀ k, s.Saw ⟨.generateKeyPair, .ok k⟩ → p.isPair k.publicKey k.privateKey
  getAttestationDoc : ∀ fd userData nonce publicKey doc,
    s.Saw ⟨.getAttestationDoc fd userData nonce (some publicKey), .ofDoc doc⟩ →
    p.attestedKey doc = some publicKey
  generateDataKey : ∀ request response ciphertext content,
    s.Saw ⟨.generateDataKey request, .ok response⟩ → response.ciphertextBlob = some ciphertext →
    response.ciphertextForRecipient = some content → content ≠ [] →
    p.Discloses request.keyId ciphertext request.attestationDocument content
  decrypt : ∀ request response content, s.Saw ⟨.decrypt request, .ok response⟩ →
    response.ciphertextForRecipient = some content → content ≠ [] →
    p.Discloses request.keyId request.ciphertextBlob request.attestationDocument content

def Work.dataKey : Work → Result → Option (String × KmsGeneratedKey)
  | .generateDataKey keyId, .dataKey key => some (keyId, key)
  | .decrypt ciphertext keyId, .plaintext plaintext => some (keyId, ⟨plaintext, ciphertext⟩)
  | _, _ => none

namespace Parties.Trusted

omit [DecidableEq ι]

variable {p : Parties Key} {s : Enclave ι} {f : Finished ι}

/-- What KMS discloses in a session is the plaintext that the call decrypts. -/
theorem opens_of_discloses (h : p.Trusted getContent s) (hf : f ∈ s.finished) {fd : Int}
    {keyPair : KeyPair} {doc content plaintext ciphertext : Bytes} {keyId : String} {e : Event}
    (hevents : f.events = kmsEvents fd keyPair doc e)
    (hcontent : getContent keyPair.privateKey content = some plaintext)
    (hdiscloses : p.Discloses keyId ciphertext doc content) :
    ∃ key, p.names keyId key ∧ p.opens ciphertext = some (key, plaintext) := by
  obtain ⟨key, plaintext', publicKey, hnames, hopens, hattested, henvelops⟩ := hdiscloses
  have hpair := h.generateKeyPair keyPair ⟨f, hf, by rw [hevents]; exact .tail _ (.head _)⟩
  have hdoc := h.getAttestationDoc fd none none keyPair.publicKey doc
    ⟨f, hf, by rw [hevents]; exact .tail _ (.tail _ (.head _))⟩
  -- the document attests the key of this session, so the content is encrypted for it
  cases hattested.symm.trans hdoc
  cases hcontent.symm.trans (h.getContent _ _ _ _ hpair henvelops)
  exact ⟨key, hnames, hopens⟩

theorem opens_of_obtained (h : p.Trusted getContent s) (hf : f ∈ s.finished) {w : Work}
    (hobtained : Obtained getContent w f.events f.result) {keyId : String} {key : KmsGeneratedKey}
    (hkey : w.dataKey f.result = some (keyId, key)) :
    ∃ k, p.names keyId k ∧ p.opens key.ciphertext = some (k, key.plaintext) := by
  generalize hevents : f.events = events, f.result = result at hobtained hkey
  have hasked : ∀ {fd keyPair doc} {e : Event}, events = kmsEvents fd keyPair doc e → s.Saw e := by
    rintro fd keyPair doc e rfl
    exact ⟨f, hf, by rw [hevents]; exact .tail _ (.tail _ (.tail _ (.head _)))⟩
  cases hobtained with
  | dataKey hopens hblob =>
    cases hkey
    exact h.opens_of_discloses hf hevents hopens.decrypted
      (h.generateDataKey _ _ _ _ (hasked rfl) hblob hopens.present hopens.nonempty)
  | plaintext hopens =>
    cases hkey
    exact h.opens_of_discloses hf hevents hopens.decrypted
      (h.decrypt _ _ _ (hasked rfl) hopens.present hopens.nonempty)
  | token => cases hkey
  | dataKeyFailed => cases hkey
  | plaintextFailed => cases hkey
  | tokenFailed => cases hkey

end Parties.Trusted

/-- Nobody uses a descriptor of another call, and a call that is done has left none open but
descriptor 0. Whatever is returned was obtained by the call itself, with a document for its own
key. If the others can be trusted, all that is returned about a ciphertext agrees: its plaintext,
and the key of KMS that the key ids name. -/
theorem data_keys_consistent (getContent : Bytes → Bytes → Option Bytes) (work : ι → Work)
    (schedule : List (Action ι Choice Empty)) :
    (afterCalls getContent work schedule).shared.foreign = 0 ∧
    (∀ i, (afterCalls getContent work schedule).control i = .idle →
      ∀ fd, (afterCalls getContent work schedule).shared.owner fd = some i → fd = 0) ∧
    (∀ f ∈ (afterCalls getContent work schedule).shared.finished,
      Obtained getContent (work f.caller) f.events f.result) ∧
    ∀ {Key : Type} (p : Parties Key),
      p.Trusted getContent (afterCalls getContent work schedule).shared →
      ∀ f ∈ (afterCalls getContent work schedule).shared.finished,
      ∀ f' ∈ (afterCalls getContent work schedule).shared.finished,
      ∀ keyId key keyId' key', (work f.caller).dataKey f.result = some (keyId, key) →
        (work f'.caller).dataKey f'.result = some (keyId', key') →
        key.ciphertext = key'.ciphertext →
        key.plaintext = key'.plaintext ∧ ∃ k, p.names keyId k ∧ p.names keyId' k := by
  obtain ⟨hsound, hrest⟩ := run_sound getContent work schedule
  refine ⟨hsound.foreign, fun i hidle => (hrest i hidle).closed, hsound.obtained, ?_⟩
  intro Key p htrusted f hf f' hf' keyId key keyId' key' hkey hkey' hciphertext
  obtain ⟨k, hnames, hopens⟩ := htrusted.opens_of_obtained hf (hsound.obtained f hf) hkey
  obtain ⟨k', hnames', hopens'⟩ := htrusted.opens_of_obtained hf' (hsound.obtained f' hf') hkey'
  rw [hciphertext] at hopens
  obtain ⟨rfl, hplaintext⟩ := Prod.mk.inj (Option.some.inj (hopens.symm.trans hopens'))
  exact ⟨hplaintext, k, hnames, hnames'⟩

/-! ## Two calls about one key -/

def demoGetContent (privateKey ciphertext : Bytes) : Option Bytes :=
  if privateKey.isPrefixOf ciphertext then some (ciphertext.drop privateKey.length) else none

def demoParties : Parties Unit where
  isPair publicKey privateKey := publicKey = privateKey
  envelops ciphertext publicKey content := ciphertext = publicKey ++ content
  attestedKey document := some (document.drop 1)
  names keyId _ := keyId = "alias/backup" ∨ keyId = "arn:aws:kms:us-east-1:1:key/2"
  opens ciphertext := if ciphertext = [9] then some ((), [7]) else none

def demoWork : Bool → Work
  | false => .generateDataKey "alias/backup"
  | true => .decrypt [9] "arn:aws:kms:us-east-1:1:key/2"

def demoSchedule : List (Action Bool Choice Empty) :=
  [.start false, .start true, .advance true (.fd 3), .advance false (.fd 4),
    .advance true (.keyPair (.ok ⟨[1], [1]⟩)), .advance false (.keyPair (.ok ⟨[2], [2]⟩)),
    .advance false (.document true 0 [0, 2] true), .advance true (.document true 0 [0, 1] true),
    .advance false (.response (.ok ⟨some [9], some [2, 7]⟩)),
    .advance true (.response (.ok ⟨none, some [1, 7]⟩)),
    .advance true .done, .advance false .done, .advance false .done, .advance true .done]

def demoFinished : List (Finished Bool) :=
  [⟨false, kmsEvents 4 ⟨[2], [2]⟩ [0, 2]
      ⟨.generateDataKey ⟨"alias/backup", [0, 2]⟩, .ok ⟨some [9], some [2, 7]⟩⟩,
      .dataKey ⟨[7], [9]⟩⟩,
    ⟨true, kmsEvents 3 ⟨[1], [1]⟩ [0, 1]
      ⟨.decrypt ⟨[9], "arn:aws:kms:us-east-1:1:key/2", [0, 1]⟩, .ok ⟨none, some [1, 7]⟩⟩,
      .plaintext [7]⟩]

theorem finished_demoSchedule :
    (afterCalls demoGetContent demoWork demoSchedule).shared.finished = demoFinished := rfl

theorem saw_demoSchedule {e : Event}
    (h : (afterCalls demoGetContent demoWork demoSchedule).shared.Saw e) :
    e ∈ demoFinished.flatMap Finished.events := by
  obtain ⟨f, hf, he⟩ := h
  exact List.mem_flatMap.mpr ⟨f, hf, he⟩

theorem demoParties_trusted :
    demoParties.Trusted demoGetContent
      (afterCalls demoGetContent demoWork demoSchedule).shared where
  getContent := by
    rintro _ publicKey _ content rfl rfl
    simp [demoGetContent]
  generateKeyPair k h := by
    have hmem := saw_demoSchedule h
    simp [demoFinished, kmsEvents, closing] at hmem
    rcases hmem with rfl | rfl <;> rfl
  getAttestationDoc fd userData nonce publicKey doc h := by
    have hmem := saw_demoSchedule h
    simp [demoFinished, kmsEvents, closing, NsmJniResult.ofDoc] at hmem
    rcases hmem with ⟨⟨-, -, -, rfl⟩, rfl⟩ | ⟨⟨-, -, -, rfl⟩, rfl⟩ <;> rfl
  generateDataKey request response ciphertext content h hblob hcontent _ := by
    have hmem := saw_demoSchedule h
    simp [demoFinished, kmsEvents, closing] at hmem
    obtain ⟨rfl, rfl⟩ := hmem
    cases hblob
    cases hcontent
    exact ⟨(), [7], [2], .inl rfl, rfl, rfl, rfl⟩
  decrypt request response content h hcontent _ := by
    have hmem := saw_demoSchedule h
    simp [demoFinished, kmsEvents, closing] at hmem
    obtain ⟨rfl, rfl⟩ := hmem
    cases hcontent
    exact ⟨(), [7], [1], .inr rfl, rfl, rfl, rfl⟩

theorem demo_data_keys_consistent :
    (afterCalls demoGetContent demoWork demoSchedule).shared.finished = demoFinished ∧
    ∀ f ∈ (afterCalls demoGetContent demoWork demoSchedule).shared.finished,
      ∀ keyId key, (demoWork f.caller).dataKey f.result = some (keyId, key) →
        key.ciphertext = [9] →
        key.plaintext = [7] ∧
          ∃ k, demoParties.names keyId k ∧ demoParties.names "alias/backup" k := by
  refine ⟨finished_demoSchedule, fun f hf keyId key hkey hciphertext => ?_⟩
  obtain ⟨-, -, -, hagree⟩ := data_keys_consistent demoGetContent demoWork demoSchedule
  exact hagree demoParties demoParties_trusted f hf _ List.mem_cons_self keyId key "alias/backup"
    ⟨[7], [9]⟩ hkey rfl hciphertext

end PublicEndorsement.Mbs.Nitro
