import PublicEndorsement.ProviderPorts

/-!
# A reload installs a certificate or changes nothing

Whatever the ports do, a call of `reloadCertificate` that throws has not touched the
certificate in use, and one that returns has installed the bundle decoded from the backup
it read last, after the probe of its key. All of it is read off the exchanges of one
call; the certificate in use is what the history of all calls installed last.
-/

namespace PublicEndorsement.Mbs.Ports

open Interaction
open KmsMeasurementBoundCertificateProvider (probe isTransient)

abbrev Event := Exchange Action Answer

def asked (port : Port) (outcome : Except Failure (Value port)) : Event := ⟨.ask port, outcome⟩

def installed (bundle : MeasurementBoundCertificate) : Event := ⟨.setCurrentCertificate bundle, ()⟩

def recorded (event : MbsEvent) : Event := ⟨.recordEvent event, ()⟩

/-- Neither is a certificate installed nor a success recorded. -/
def isQuiet : Event → Bool
  | ⟨.setCurrentCertificate _, _⟩ => false
  | ⟨.recordEvent .success, _⟩ => false
  | _ => true

def Quiet (added : List Event) : Prop := ∀ e ∈ added, isQuiet e = true

theorem quiet_append {added more : List Event} :
    Quiet (added ++ more) ↔ Quiet added ∧ Quiet more := List.forall_mem_append

/-! ## Code that leaves the certificate alone -/

/-- The code is quiet, and what it returns satisfies `F` together with its exchanges. -/
def Leaves {α : Type} (x : Code α) (F : α → List Event → Prop) : Prop :=
  Fallible.Emits x (fun r added => Quiet added ∧ ∀ a, r = .ok a → F a added)

namespace Leaves

variable {α β : Type} {x : Code α} {F G : α → List Event → Prop}

theorem pure {a : α} (h : F a []) : Leaves (Pure.pure a) F := by
  refine Fallible.Emits.pure ⟨by simp [Quiet], ?_⟩
  rintro _ ⟨⟩
  exact h

theorem throw (e : Failure) : Leaves (MonadExcept.throw e) F := by
  refine Fallible.Emits.throw ⟨by simp [Quiet], ?_⟩
  rintro _ ⟨⟩

theorem ask (port : Port) :
    Leaves (Ports.ask port) (fun a added => added = [asked port (.ok a)]) := by
  refine Fallible.Emits.bind (Q := fun r added => ∃ outcome, r = .ok outcome ∧
    added = [asked port outcome]) (Fallible.Emits.perform fun r => ⟨r, rfl, rfl⟩) ?_ ?_
  · rintro e added ⟨_, herror, -⟩
    cases herror
  · rintro outcome added ⟨_, ⟨⟩, rfl⟩
    refine Fallible.Emits.ofOutcome ⟨by simp [Quiet, isQuiet, asked], ?_⟩
    rintro a rfl
    rfl

theorem bind {f : α → Code β} {G : β → List Event → Prop} (hx : Leaves x F)
    (hf : ∀ a added, F a added → Leaves (f a) (fun b more => G b (added ++ more))) :
    Leaves (x >>= f) G := by
  refine Fallible.Emits.bind hx ?_ ?_
  · rintro e added ⟨hquiet, -⟩
    exact ⟨hquiet, by simp⟩
  · rintro a added ⟨hquiet, hF⟩
    refine (hf a added (hF a rfl)).mono fun r more hmore => ?_
    exact ⟨quiet_append.mpr ⟨hquiet, hmore.1⟩, hmore.2⟩

theorem tryCatch {h : Failure → Code α} (hx : Leaves x F)
    (hok : ∀ a added, F a added → G a added)
    (hh : ∀ e added, Leaves (h e) (fun a more => G a (added ++ more))) :
    Leaves (MonadExcept.tryCatch x h) G := by
  refine Fallible.Emits.tryCatch hx ?_ ?_
  · rintro a added ⟨hquiet, hF⟩
    exact ⟨hquiet, fun b hb => by cases hb; exact hok a added (hF a rfl)⟩
  · rintro e added ⟨hquiet, -⟩
    refine (hh e added).mono fun r more hmore => ?_
    exact ⟨quiet_append.mpr ⟨hquiet, hmore.1⟩, hmore.2⟩

/-- Nothing is said about the result. -/
theorem forget (hx : Leaves x F) : Leaves x (fun _ _ => True) :=
  hx.mono fun _ _ h => ⟨h.1, fun _ _ => trivial⟩

end Leaves

def probing (certificate : X509Certificate) (privateKey : PrivateKey) (signature : Bytes) :
    List Event :=
  [asked (.sign certificate.sigAlgName privateKey probe) (.ok signature),
    asked (.verify certificate.sigAlgName certificate.publicKey probe signature) (.ok true)]

theorem isKeyMatchingCertificate_leaves (certificate : X509Certificate) (privateKey : PrivateKey) :
    Leaves (isKeyMatchingCertificate certificate privateKey) (fun isMatching added =>
      isMatching = true → ∃ signature, added = probing certificate privateKey signature) := by
  refine Leaves.tryCatch (F := fun isMatching added =>
    isMatching = true → ∃ signature, added = probing certificate privateKey signature) ?_
    (fun _ _ h => h) fun e added => ?_
  · refine (Leaves.ask _).bind ?_
    rintro signature _ rfl
    refine (Leaves.ask _).mono fun r added hadded => ⟨hadded.1, ?_⟩
    rintro isMatching hr rfl
    exact ⟨signature, by rw [hadded.2 true hr]; rfl⟩
  · cases e with
    | generalSecurity message => exact Leaves.pure (fun h => by cases h)
    | _ => exact Leaves.throw _

theorem decrypt_leaves (ciphertext key : Bytes) :
    Leaves (decrypt ciphertext key) (fun plaintext added => key.length = 32 ∧
      added = [asked (.aeadDecrypt key ciphertext) (.ok plaintext)]) := by
  unfold decrypt
  split_ifs with hlen
  · exact Leaves.throw _
  · exact (Leaves.ask _).mono fun r added h => ⟨h.1, fun a hr => ⟨not_not.mp hlen, h.2 a hr⟩⟩

def decoding (keyBackup : KeyBackup) (dataKey privateKeyBytes : Bytes)
    (certificate : X509Certificate) (privateKey : PrivateKey) : List Event :=
  [asked (.generateCertificate keyBackup.certBytes) (.ok certificate),
    asked (.aeadDecrypt dataKey keyBackup.aeadEncryptedPrivateKey) (.ok privateKeyBytes),
    asked (.generatePrivate certificate.publicKey.algorithm privateKeyBytes) (.ok privateKey)]

theorem decodeKeyMaterial_leaves (keyBackup : KeyBackup) (dataKey : Bytes) :
    Leaves (decodeKeyMaterial keyBackup dataKey) (fun m added => dataKey.length = 32 ∧
      m.2.2 = ⟨keyBackup.attestationDocBytes⟩ ∧
      ∃ privateKeyBytes, added = decoding keyBackup dataKey privateKeyBytes m.1 m.2.1) := by
  refine Leaves.tryCatch (F := fun m added => dataKey.length = 32 ∧
    m.2.2 = ⟨keyBackup.attestationDocBytes⟩ ∧
    ∃ privateKeyBytes, added = decoding keyBackup dataKey privateKeyBytes m.1 m.2.1) ?_
    (fun _ _ h => h) fun e added => ?_
  · refine (Leaves.ask _).bind ?_
    rintro certificate _ rfl
    refine (decrypt_leaves _ _).bind ?_
    rintro privateKeyBytes _ ⟨hlen, rfl⟩
    refine (Leaves.ask _).bind ?_
    rintro privateKey _ rfl
    exact Leaves.pure ⟨hlen, rfl, privateKeyBytes, rfl⟩
  · cases e with
    | generalSecurity message => exact Leaves.throw _
    | _ => exact Leaves.throw _

/-- The exchanges from a backup to the bundle it holds: KMS decrypts the data key, the key
material is decoded with it, and the probe verifies. -/
def Decoded (keyBackup : KeyBackup) (bundle : MeasurementBoundCertificate) (added : List Event) :
    Prop :=
  ∃ dataKey privateKeyBytes signature, dataKey.length = 32 ∧
    bundle.attestationToken = ⟨keyBackup.attestationDocBytes⟩ ∧
    added = asked (.kmsDecrypt keyBackup.kmsEncryptedDataKey) (.ok dataKey) ::
      (decoding keyBackup dataKey privateKeyBytes bundle.certificate bundle.privateKey ++
        probing bundle.certificate bundle.privateKey signature)

theorem toMeasurementBoundCertificate_leaves (keyBackup : KeyBackup) :
    Leaves (toMeasurementBoundCertificate keyBackup) (Decoded keyBackup) := by
  refine (Leaves.ask _).bind ?_
  rintro dataKey _ rfl
  refine (decodeKeyMaterial_leaves keyBackup dataKey).bind ?_
  rintro ⟨certificate, privateKey, token⟩ _ ⟨hlen, htoken, privateKeyBytes, rfl⟩
  refine (isKeyMatchingCertificate_leaves certificate privateKey).bind ?_
  intro isMatching added hmatching
  cases isMatching with
  | false => exact Leaves.throw _
  | true =>
    obtain ⟨signature, rfl⟩ := hmatching rfl
    refine Leaves.pure ⟨dataKey, privateKeyBytes, signature, hlen, htoken, ?_⟩
    simp

section Generation

variable (userDataBoundToAttestation : Bytes)

theorem encrypt_leaves (plaintext key : Bytes) :
    Leaves (encrypt plaintext key) (fun _ _ => True) := by
  unfold encrypt
  split_ifs with hlen
  · exact Leaves.throw _
  · exact (Leaves.ask _).forget

theorem generateAndStoreKeyBackup_leaves :
    Leaves (generateAndStoreKeyBackup userDataBoundToAttestation) (fun _ _ => True) := by
  refine (Leaves.ask _).bind fun certAndKey _ _ => ?_
  refine (Leaves.ask _).bind fun token _ _ => ?_
  refine (Leaves.ask _).bind fun dataKey _ _ => ?_
  refine (encrypt_leaves _ _).bind fun aeadEncryptedPrivateKey _ _ => ?_
  refine (Leaves.ask _).bind fun pem _ _ => ?_
  exact (Leaves.ask _).forget

theorem keyBackupExists_leaves (site : Site) :
    Leaves (keyBackupExists site) (fun _ _ => True) := by
  refine Leaves.tryCatch (F := fun _ _ => True) ?_ (fun _ _ h => h) fun e added => ?_
  · exact (Leaves.ask _).bind fun _ _ _ => Leaves.pure trivial
  · cases e with
    | keyBackupNotFound message => exact Leaves.pure trivial
    | _ => exact Leaves.throw _

theorem generateMissingKeyBackup_leaves :
    Leaves (generateMissingKeyBackup userDataBoundToAttestation) (fun _ _ => True) := by
  refine (keyBackupExists_leaves _).bind fun found _ _ => ?_
  cases found with
  | true => exact Leaves.pure trivial
  | false =>
    refine (Leaves.ask _).bind fun _ _ _ => ?_
    refine (keyBackupExists_leaves _).bind fun found _ _ => ?_
    cases found with
    | true => exact (Leaves.ask _).forget
    | false =>
      refine (generateAndStoreKeyBackup_leaves userDataBoundToAttestation).bind fun _ _ _ => ?_
      exact (Leaves.ask _).forget

/-! ## One call -/

/-- The exchanges that end with the installation of a bundle: after quiet ones, a backup is
read, its bundle is decoded, and nothing comes between this and the installation. -/
def Loaded (bundle : MeasurementBoundCertificate) (added : List Event) : Prop :=
  ∃ before keyBackup decoded, Quiet before ∧ Decoded keyBackup bundle decoded ∧
    added = before ++ asked (.getKeyBackup .load) (.ok keyBackup) :: decoded ++ [installed bundle]

theorem Loaded.after {bundle : MeasurementBoundCertificate} {before added : List Event}
    (h : Loaded bundle added) (hbefore : Quiet before) : Loaded bundle (before ++ added) := by
  obtain ⟨between, keyBackup, decoded, hbetween, hdecoded, rfl⟩ := h
  refine ⟨before ++ between, keyBackup, decoded, quiet_append.mpr ⟨hbefore, hbetween⟩, hdecoded, ?_⟩
  simp

/-- Quiet exchanges and an exception, or the installation of a bundle and a return. -/
def AllOrNothing (r : Except Failure Unit) (added : List Event) : Prop :=
  match r with
  | .ok () => ∃ bundle, Loaded bundle added
  | .error _ => Quiet added

theorem AllOrNothing.after {r : Except Failure Unit} {before added : List Event}
    (h : AllOrNothing r added) (hbefore : Quiet before) : AllOrNothing r (before ++ added) := by
  cases r with
  | ok u =>
    obtain ⟨bundle, hloaded⟩ := h
    exact ⟨bundle, hloaded.after hbefore⟩
  | error e => exact quiet_append.mpr ⟨hbefore, h⟩

theorem loadExistingKeyBackup_emits :
    Fallible.Emits loadExistingKeyBackup AllOrNothing := by
  refine Fallible.Emits.bind (Leaves.ask _) (fun _ _ h => h.1) fun keyBackup _ hread => ?_
  obtain rfl := hread.2 keyBackup rfl
  refine Fallible.Emits.bind (toMeasurementBoundCertificate_leaves keyBackup)
    (fun _ _ h => quiet_append.mpr ⟨hread.1, h.1⟩) fun bundle decoded hdecoded => ?_
  refine Fallible.Emits.perform fun _ => ⟨bundle, [], keyBackup, decoded, by simp [Quiet], ?_, ?_⟩
  · exact hdecoded.2 bundle rfl
  · simp [installed]

theorem reloadCertificateOnce_emits :
    Fallible.Emits (reloadCertificateOnce userDataBoundToAttestation) AllOrNothing := by
  refine Fallible.Emits.bind (generateMissingKeyBackup_leaves userDataBoundToAttestation)
    (fun _ _ h => h.1) fun _ before hbefore => ?_
  exact loadExistingKeyBackup_emits.mono fun r added h => h.after hbefore.1

/-- The first attempt is quiet when it fails, so the second one starts afresh. -/
theorem reloadCertificateWithRetryOnTransientError_emits :
    Fallible.Emits (reloadCertificateWithRetryOnTransientError userDataBoundToAttestation)
      AllOrNothing := by
  refine Fallible.Emits.tryCatch (reloadCertificateOnce_emits userDataBoundToAttestation)
    (fun _ _ h => h) fun e before hbefore => ?_
  split_ifs with htransient
  · refine Fallible.Emits.bind (Leaves.ask _) ?_ fun _ slept hslept => ?_
    · exact fun _ _ h => quiet_append.mpr ⟨hbefore, h.1⟩
    · refine (reloadCertificateOnce_emits userDataBoundToAttestation).mono fun r added h => ?_
      exact (h.after hslept.1).after hbefore
  · exact Fallible.Emits.throw (by simpa [AllOrNothing] using hbefore)

theorem recordFailureEvent_leaves (failure : Failure) :
    Leaves (recordFailureEvent failure) (fun _ _ => True) := by
  have hrecord : ∀ event, event ≠ .success → Leaves (recordEvent event) (fun _ _ => True) := by
    intro event hevent
    refine Fallible.Emits.perform fun _ => ⟨?_, fun _ _ => trivial⟩
    cases event <;> simp_all [Quiet, isQuiet]
  cases failure with
  | storageAlreadyLocked message => exact hrecord _ (by decide)
  | kms message => exact hrecord _ (by decide)
  | bundleCorrupted message => exact hrecord _ (by decide)
  | keyBackupIncomplete message => exact hrecord _ (by decide)
  | keyBackupPartiallyWritten message => exact hrecord _ (by decide)
  | _ => exact Leaves.pure trivial

def Reloaded (r : Except Failure Unit) (added : List Event) : Prop :=
  match r with
  | .ok () => ∃ bundle loaded, Loaded bundle loaded ∧ added = loaded ++ [recorded .success]
  | .error _ => Quiet added

theorem reloadCertificate_emits :
    Fallible.Emits (reloadCertificate userDataBoundToAttestation) Reloaded := by
  refine Fallible.Emits.bind (Q := AllOrNothing) (Fallible.Emits.tryCatch
    (reloadCertificateWithRetryOnTransientError_emits userDataBoundToAttestation)
    (fun _ _ h => h) fun e before hbefore => ?_) (fun _ _ h => h) fun _ loaded hloaded => ?_
  · refine Fallible.Emits.bind (recordFailureEvent_leaves e)
      (fun _ _ h => quiet_append.mpr ⟨hbefore, h.1⟩) fun _ more hmore => ?_
    refine Fallible.Emits.throw ?_
    rw [List.append_nil]
    exact quiet_append.mpr ⟨hbefore, hmore.1⟩
  · obtain ⟨bundle, hbundle⟩ := hloaded
    exact Fallible.Emits.perform fun _ => ⟨bundle, loaded, hbundle, rfl⟩

end Generation

/-! ## The certificate in use -/

def install (current : Option MeasurementBoundCertificate) :
    Event → Option MeasurementBoundCertificate
  | ⟨.setCurrentCertificate bundle, _⟩ => some bundle
  | _ => current

def currentCertificate (history : List Event) : Option MeasurementBoundCertificate :=
  history.foldl install none

structure TrustPackage where
  bundles : List MeasurementBoundCertificate
  crossSignedCertificates : List X509Certificate

/-- `getActiveTrustPackage`, which may be called at any point of the history. -/
def getActiveTrustPackage (history : List Event) : Except Failure TrustPackage :=
  match currentCertificate history with
  | none => .error (.unchecked "Measurement-bound certificate has not been initialized yet")
  | some cert => .ok ⟨[cert], []⟩

theorem currentCertificate_append_of_quiet {history added : List Event} (h : Quiet added) :
    currentCertificate (history ++ added) = currentCertificate history := by
  rw [currentCertificate, List.foldl_append, ← currentCertificate]
  induction added with
  | nil => rfl
  | cons e added ih =>
    obtain ⟨he, hadded⟩ := List.forall_mem_cons.mp h
    have hkept : install (currentCertificate history) e = currentCertificate history := by
      obtain ⟨action, reply⟩ := e
      cases action with
      | setCurrentCertificate bundle => cases he
      | _ => rfl
    rw [List.foldl_cons, hkept]
    exact ih hadded

@[simp] theorem currentCertificate_installed (history : List Event)
    (bundle : MeasurementBoundCertificate) :
    currentCertificate (history ++ [installed bundle]) = some bundle := by
  simp [currentCertificate, installed, install]

@[simp] theorem currentCertificate_recorded (history : List Event) (event : MbsEvent) :
    currentCertificate (history ++ [recorded event]) = currentCertificate history := by
  simp [currentCertificate, recorded, install]

theorem isSome_currentCertificate_append {history : List Event}
    (h : (currentCertificate history).isSome = true) (added : List Event) :
    (currentCertificate (history ++ added)).isSome = true := by
  induction added using List.reverseRecOn with
  | nil => rwa [List.append_nil]
  | append_singleton added e ih =>
    rw [← List.append_assoc, currentCertificate, List.foldl_append, ← currentCertificate]
    obtain ⟨action, reply⟩ := e
    cases action with
    | setCurrentCertificate bundle => rfl
    | _ => exact ih

theorem getActiveTrustPackage_isOk (history : List Event) :
    (getActiveTrustPackage history).isOk = (currentCertificate history).isSome := by
  unfold getActiveTrustPackage
  cases currentCertificate history with
  | none => rfl
  | some cert => rfl

def Probed (bundle : MeasurementBoundCertificate) (history : List Event) : Prop :=
  ∃ signature, ∀ e ∈ probing bundle.certificate bundle.privateKey signature, e ∈ history

theorem Probed.append_left {bundle : MeasurementBoundCertificate} {history : List Event}
    (h : Probed bundle history) (more : List Event) : Probed bundle (history ++ more) := by
  obtain ⟨signature, hmem⟩ := h
  exact ⟨signature, fun e he => List.mem_append_left _ (hmem e he)⟩

theorem Decoded.quiet {keyBackup : KeyBackup} {bundle : MeasurementBoundCertificate}
    {added : List Event} (h : Decoded keyBackup bundle added) : Quiet added := by
  obtain ⟨dataKey, privateKeyBytes, signature, -, -, rfl⟩ := h
  simp [Quiet, decoding, probing, asked, isQuiet]

theorem Decoded.probed {keyBackup : KeyBackup} {bundle : MeasurementBoundCertificate}
    {added : List Event} (h : Decoded keyBackup bundle added) : Probed bundle added := by
  obtain ⟨dataKey, privateKeyBytes, signature, -, -, rfl⟩ := h
  exact ⟨signature, fun e he => by simp [he]⟩

/-- All that a load does before the installation is quiet and holds the probe. -/
theorem Loaded.split {bundle : MeasurementBoundCertificate} {added : List Event}
    (h : Loaded bundle added) :
    ∃ before, Quiet before ∧ Probed bundle before ∧ added = before ++ [installed bundle] := by
  obtain ⟨before, keyBackup, decoded, hbefore, hdecoded, rfl⟩ := h
  refine ⟨before ++ asked (.getKeyBackup .load) (.ok keyBackup) :: decoded, ?_, ?_, rfl⟩
  · refine quiet_append.mpr ⟨hbefore, ?_⟩
    refine List.forall_mem_cons.mpr ⟨?_, hdecoded.quiet⟩
    simp [asked, isQuiet]
  · obtain ⟨signature, hmem⟩ := hdecoded.probed
    exact ⟨signature, fun e he => List.mem_append_right _ (List.mem_cons_of_mem _ (hmem e he))⟩

/-- At any point of a call, the certificate in use is the one from before, or one whose
probe is part of the call so far. -/
theorem Reloaded.currentCertificate_of_prefix {r : Except Failure Unit} {added part : List Event}
    (h : Reloaded r added) (hpart : part <+: added) (history : List Event) :
    currentCertificate (history ++ part) = currentCertificate history ∨
      ∃ bundle, currentCertificate (history ++ part) = some bundle ∧ Probed bundle part := by
  have hquiet : ∀ {before : List Event}, Quiet before → part <+: before →
      currentCertificate (history ++ part) = currentCertificate history :=
    fun hbefore hearlier => currentCertificate_append_of_quiet
      (fun e he => hbefore e (hearlier.subset he))
  cases r with
  | error e => exact .inl (hquiet h hpart)
  | ok u =>
    obtain ⟨bundle, loaded, hloaded, rfl⟩ := h
    obtain ⟨before, hbefore, hprobed, rfl⟩ := hloaded.split
    rcases List.prefix_concat_iff.mp hpart with rfl | hpart
    · refine .inr ⟨bundle, ?_, (hprobed.append_left _).append_left _⟩
      rw [← List.append_assoc, currentCertificate_recorded, ← List.append_assoc,
        currentCertificate_installed]
    · rcases List.prefix_concat_iff.mp hpart with rfl | hpart
      · refine .inr ⟨bundle, ?_, hprobed.append_left _⟩
        rw [← List.append_assoc, currentCertificate_installed]
      · exact .inl (hquiet hbefore hpart)

def isSuccess : Event → Bool
  | ⟨.recordEvent .success, _⟩ => true
  | _ => false

theorem countP_isSuccess_of_quiet {added : List Event} (h : Quiet added) :
    added.countP isSuccess = 0 := by
  refine List.countP_eq_zero.mpr fun e he hsuccess => ?_
  have hquiet := h e he
  obtain ⟨action, reply⟩ := e
  cases action with
  | recordEvent event =>
    cases event with
    | success => cases hquiet
    | _ => cases hsuccess
  | _ => cases hsuccess

/-! ## Sequences of calls -/

section Calls

variable (env : Environment Action Answer) (userDataBoundToAttestation : Bytes)

def historyAfter : ℕ → List Event
  | 0 => []
  | n + 1 =>
    ((ExceptT.run (reloadCertificate userDataBoundToAttestation)).run env (historyAfter n)).2

def outcomeAfter (n : ℕ) : Except Failure Unit :=
  ((ExceptT.run (reloadCertificate userDataBoundToAttestation)).run env
    (historyAfter env userDataBoundToAttestation n)).1

theorem historyAfter_succ (n : ℕ) :
    ∃ added, historyAfter env userDataBoundToAttestation (n + 1) =
        historyAfter env userDataBoundToAttestation n ++ added ∧
      Reloaded (outcomeAfter env userDataBoundToAttestation n) added :=
  reloadCertificate_emits userDataBoundToAttestation env _

/-- At no point is a bundle in use whose key has not passed the probe. -/
theorem probed_currentCertificate (n : ℕ) {part : List Event}
    (hpart : part <+: historyAfter env userDataBoundToAttestation n)
    {bundle : MeasurementBoundCertificate} (h : currentCertificate part = some bundle) :
    Probed bundle part := by
  induction n generalizing part with
  | zero =>
    rw [List.prefix_nil.mp hpart] at h
    cases h
  | succ n ih =>
    obtain ⟨added, hadded, hreloaded⟩ := historyAfter_succ env userDataBoundToAttestation n
    rw [hadded] at hpart
    rcases List.prefix_or_prefix_of_prefix hpart (List.prefix_append _ added) with
      hpart | ⟨more, rfl⟩
    · exact ih hpart h
    · have hmore : more <+: added := (List.prefix_append_right_inj _).mp hpart
      rcases hreloaded.currentCertificate_of_prefix hmore _ with hkept | ⟨bundle', hbundle, hprobed⟩
      · rw [hkept] at h
        exact (ih (List.prefix_refl _) h).append_left more
      · rw [hbundle] at h
        cases h
        obtain ⟨signature, hmem⟩ := hprobed
        exact ⟨signature, fun e he => List.mem_append_right _ (hmem e he)⟩

/-- Whatever the ports do, a call that throws leaves the certificate in use as it was, at
every point of the call, and a call that returns has installed the bundle decoded from the
backup it read last, with its key probed, and has recorded its success once. So a package
that can be had once can be had from then on, and its key matches its certificate. -/
theorem reloadCertificate_atomic :
    (∀ n, ∃ added, historyAfter env userDataBoundToAttestation (n + 1) =
        historyAfter env userDataBoundToAttestation n ++ added ∧
      match outcomeAfter env userDataBoundToAttestation n with
      | .error _ => ∀ part, part <+: added →
          currentCertificate (historyAfter env userDataBoundToAttestation n ++ part) =
            currentCertificate (historyAfter env userDataBoundToAttestation n)
      | .ok () => ∃ bundle loaded, Loaded bundle loaded ∧ added = loaded ++ [recorded .success] ∧
          currentCertificate (historyAfter env userDataBoundToAttestation (n + 1)) = some bundle ∧
          added.countP isSuccess = 1) ∧
    (∀ n earlier later, earlier <+: later →
      later <+: historyAfter env userDataBoundToAttestation n →
      (getActiveTrustPackage earlier).isOk = true → (getActiveTrustPackage later).isOk = true) ∧
    (∀ n part, part <+: historyAfter env userDataBoundToAttestation n →
      ∀ package, getActiveTrustPackage part = .ok package →
        ∀ bundle ∈ package.bundles, Probed bundle part) := by
  refine ⟨fun n => ?_, ?_, ?_⟩
  · obtain ⟨added, hadded, hreloaded⟩ := historyAfter_succ env userDataBoundToAttestation n
    refine ⟨added, hadded, ?_⟩
    cases houtcome : outcomeAfter env userDataBoundToAttestation n with
    | error e =>
      rw [houtcome] at hreloaded
      intro part hpart
      exact currentCertificate_append_of_quiet fun e he => hreloaded e (hpart.subset he)
    | ok u =>
      rw [houtcome] at hreloaded
      obtain ⟨bundle, loaded, hloaded, rfl⟩ := hreloaded
      refine ⟨bundle, loaded, hloaded, rfl, ?_, ?_⟩
      · obtain ⟨before, -, -, rfl⟩ := hloaded.split
        rw [hadded, ← List.append_assoc, currentCertificate_recorded, ← List.append_assoc,
          currentCertificate_installed]
      · obtain ⟨before, hbefore, -, rfl⟩ := hloaded.split
        rw [List.countP_append, List.countP_append, countP_isSuccess_of_quiet hbefore]
        rfl
  · rintro n earlier later ⟨more, rfl⟩ - hok
    rw [getActiveTrustPackage_isOk] at hok ⊢
    exact isSome_currentCertificate_append hok more
  · intro n part hpart package hpackage bundle hbundle
    unfold getActiveTrustPackage at hpackage
    split at hpackage
    · cases hpackage
    · rename_i cert hcert
      cases hpackage
      rw [List.mem_singleton.mp hbundle]
      exact probed_currentCertificate env userDataBoundToAttestation n hpart hcert

end Calls

def servingPorts : (port : Port) → Except Failure (Value port)
  | .getKeyBackup _ => .ok ⟨[], [], [], []⟩
  | .kmsDecrypt _ => .ok (List.replicate 32 0)
  | .generateCertificate _ => .ok ⟨some [], ⟨"EC", []⟩, "SHA256withECDSA", 0⟩
  | .aeadDecrypt _ ciphertext => .ok ciphertext
  | .generatePrivate algorithm encoded => .ok ⟨algorithm, encoded⟩
  | .sign _ key _ => .ok key.encoded
  | .verify _ key _ signature => .ok (key.encoded = signature)
  | _ => .error .interrupted

def servingEnvironment : Environment Action Answer := fun _ action =>
  match action with
  | .ask port => servingPorts port
  | .recordEvent _ => ()
  | .setCurrentCertificate _ => ()

example : (outcomeAfter servingEnvironment [] 0).isOk = true ∧
    (getActiveTrustPackage (historyAfter servingEnvironment [] 1)).isOk = true := by
  decide

end PublicEndorsement.Mbs.Ports
