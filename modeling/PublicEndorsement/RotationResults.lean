import PublicEndorsement.RotationSpec

/-!
# What is installed while keys are rotated

If the operator rotates at settled moments only, every installed certificate comes
with the private key and the attestation document of the same `putKeyBackup` call.
A rotation between the third and the fourth read of a load breaks this: the probe
compares key and certificate, and nothing compares the attestation document.
-/

namespace PublicEndorsement.Mbs.Rotation

open Interaction OrderedPublication Machine RotatingWorld
open KmsMeasurementBoundCertificateProvider

theorem inv_pristine {ι : Type} [DecidableEq ι] {lib : Primitives} {crypto : Cryptography} :
    (RotatingWorld.pristine : RotatingWorld ι).Inv lib crypto := by
  have hempty : ∀ e : Event ι, e ∉ (RotatingWorld.pristine : RotatingWorld ι).events := by
    intro e h
    simp [mem_events_iff, RotatingWorld.pristine, World.pristine] at h
  refine ⟨⟨.unclaimed, rfl, fun _ _ => rfl, fun h => h.elim, ?_, Nat.zero_le 1⟩, ?_, ?_, ?_⟩
  · intro eff heff
    cases heff
  · intro history h
    cases h
  · intro g g' j j' kb kb' _ hput
    exact absurd (mem_events_iff_put.mpr ⟨g, hput⟩) (hempty _)
  · exact fun i bundle h => absurd h (hempty _)

/-- Every installed bundle was stored by one `putKeyBackup`, in every run in which the
ports answer as assumed and rotations happen at settled moments. -/
theorem installed_from_one_backup {ι : Type} [DecidableEq ι] (lib : Primitives)
    (crypto : Cryptography) (cfg : ι → ProviderConfig) (schedule : List (Action ι Choice Outside))
    (hgenuine : (rotating lib cfg).Along (Admits fun _ => Genuine lib crypto)
      (initial RotatingWorld.pristine) schedule)
    (hsettled : (rotating lib cfg).Along RotatesWhenSettled (initial RotatingWorld.pristine)
      schedule)
    (i : ι) (bundle : MeasurementBoundCertificate)
    (h : .installed i bundle ∈
      ((rotating lib cfg).run RotatingWorld.pristine schedule).shared.events) :
    ∃ j keyBackup, .noted j (.putKeyBackup keyBackup) ∈
      ((rotating lib cfg).run RotatingWorld.pristine schedule).shared.events ∧
        decode lib keyBackup = some bundle := by
  have hinv : (rotationProtocol lib crypto).inv
      ((rotating lib cfg).run RotatingWorld.pristine schedule).shared :=
    run_safe_along (M := rotating lib cfg) RotatingWorld.pristine inv_pristine
      (fun i => invocation_spec (cfg i)) (fun c e s hok hs henv => outside_respects hok hs henv)
      schedule hgenuine hsettled
  obtain ⟨g, j, keyBackup, hput, hdecode⟩ := hinv.installs i bundle h
  exact ⟨j, keyBackup, mem_events_iff_put.mpr ⟨g, hput⟩, hdecode⟩

section Demo

/-- Keys are their own encodings, and nothing is really encrypted. -/
def demoLib : Primitives where
  writePem := id
  generateCertificate := fun bytes => some ⟨some bytes, ⟨"EC", bytes⟩, "SHA256withECDSA", 0⟩
  aeadDecrypt := fun _ ciphertext => some ciphertext
  generatePrivate := fun algorithm bytes => some ⟨algorithm, bytes⟩
  kmsDecrypt := fun _ => some (List.replicate 32 0)

def demoCrypto : Cryptography where
  signature := fun _ key _ signature => signature = key.encoded
  keyPair := fun publicKey privateKey => publicKey.encoded = privateKey.encoded

def demoCfg : Fin 3 → ProviderConfig := fun _ => ⟨⟨"public", "private"⟩, [0], []⟩

def demoGenuine (o : Call) (choice : Choice) (s : RotatingWorld (Fin 3)) : Bool :=
  match o, choice with
  | .aeadEncrypt plaintext _, .bytes ciphertext => ciphertext = plaintext
  | .sign _ key _, .bytes signature => signature = key.encoded
  | .verify _ publicKey _ signature, .verdict true => publicKey.encoded = signature
  | .certificateFactoryGenerate, .certificate pair => s.events.all fun
    | .noted _ (.putKeyBackup keyBackup) => keyBackup.certBytes ≠ pair.privateKey.encoded
    | _ => true
  | _, _ => true

theorem genuine_of_demoGenuine (o : Call) (choice : Choice) (s : RotatingWorld (Fin 3))
    (h : demoGenuine o choice s = true) : Genuine demoLib demoCrypto o choice s := by
  unfold Genuine
  split
  · rename_i plaintext key ciphertext
    intro key' decrypted hdecrypted
    have hsame : ciphertext = plaintext := by simpa [demoGenuine] using h
    exact (Option.some.inj hdecrypted).symm.trans hsame
  · simpa [demoGenuine, demoCrypto] using h
  · rename_i sigAlgName publicKey data signature
    intro key hkey
    have hsame : publicKey.encoded = signature := by simpa [demoGenuine] using h
    exact hsame.trans hkey
  · rename_i pair
    rintro j keyBackup hmem ⟨certificate, privateKey, hcert, hkey, hpair⟩
    cases hcert
    cases hkey
    have hall := List.all_eq_true.mp h _ hmem
    simp only [decide_eq_true_eq] at hall
    exact hall hpair
  · trivial

def oks (i : Fin 3) (n : ℕ) : List (Action (Fin 3) Choice Outside) :=
  List.replicate n (.advance i .ok)

def demoGenerate (i : Fin 3) (n : UInt8) : List (Action (Fin 3) Choice Outside) :=
  .start i :: oks i 13 ++
    [.advance i (.certificate ⟨⟨some [n], ⟨"EC", [n]⟩, "SHA256withECDSA", 0⟩, ⟨"EC", [n]⟩⟩),
      .advance i (.attestation ⟨[n]⟩), .advance i (.dataKey ⟨List.replicate 32 0, [n]⟩),
      .advance i (.bytes [n])] ++ oks i 6

def demoProbe (i : Fin 3) (n : UInt8) : List (Action (Fin 3) Choice Outside) :=
  [.advance i .ok, .advance i (.bytes [n]), .advance i (.verdict true), .advance i .ok]

/-- Rotation when nobody is inside, with a second instance after the third read of its check. -/
def settledSchedule : List (Action (Fin 3) Choice Outside) :=
  demoGenerate 0 1 ++ oks 0 6 ++ demoProbe 0 1 ++ .start 1 :: oks 1 4 ++ [.env .rotate] ++
    demoGenerate 2 2 ++ oks 2 6 ++ demoProbe 2 2

/-- The second instance has made three reads of its load when the keys are rotated. -/
def mixedSchedule : List (Action (Fin 3) Choice Outside) :=
  demoGenerate 0 1 ++ .start 1 :: oks 1 10 ++ [.env .rotate] ++ demoGenerate 2 2 ++ oks 1 2 ++
    demoProbe 1 1

def demoBundle (n m : UInt8) : MeasurementBoundCertificate :=
  ⟨⟨some [n], ⟨"EC", [n]⟩, "SHA256withECDSA", 0⟩, ⟨"EC", [n]⟩, ⟨[m]⟩⟩

def installed? : Event (Fin 3) → Option (Fin 3 × MeasurementBoundCertificate)
  | .installed i bundle => some (i, bundle)
  | _ => none

def put? : Event (Fin 3) → Option KeyBackup
  | .noted _ (.putKeyBackup keyBackup) => some keyBackup
  | _ => none

theorem installed_mem_of_filterMap {events : List (Event (Fin 3))} {i : Fin 3}
    {bundle : MeasurementBoundCertificate} (h : (i, bundle) ∈ events.filterMap installed?) :
    .installed i bundle ∈ events := by
  obtain ⟨e, he, hsome⟩ := List.mem_filterMap.mp h
  cases e <;> cases hsome
  exact he

theorem genuine_of_demo {schedule : List (Action (Fin 3) Choice Outside)}
    (h : (rotating demoLib demoCfg).Along
      (Admits fun _ o choice s => demoGenuine o choice s = true)
      (initial RotatingWorld.pristine) schedule) :
    (rotating demoLib demoCfg).Along (Admits fun _ => Genuine demoLib demoCrypto)
      (initial RotatingWorld.pristine) schedule :=
  h.mono fun _ _ ha => ha.mono fun _ => genuine_of_demoGenuine

theorem settledSchedule_installs :
    .installed 2 (demoBundle 2 2) ∈
        ((rotating demoLib demoCfg).run RotatingWorld.pristine settledSchedule).shared.events ∧
      ∃ j keyBackup, .noted j (.putKeyBackup keyBackup) ∈
        ((rotating demoLib demoCfg).run RotatingWorld.pristine settledSchedule).shared.events ∧
          decode demoLib keyBackup = some (demoBundle 2 2) := by
  have hinstalled : .installed 2 (demoBundle 2 2) ∈
      ((rotating demoLib demoCfg).run RotatingWorld.pristine settledSchedule).shared.events :=
    installed_mem_of_filterMap (by decide +kernel)
  exact ⟨hinstalled, installed_from_one_backup demoLib demoCrypto demoCfg settledSchedule
    (genuine_of_demo (by decide +kernel)) (by decide +kernel) 2 (demoBundle 2 2) hinstalled⟩

/-- With genuine answers throughout, a rotation before the fourth read lets an instance
install the old certificate and key with the new attestation document. -/
theorem rotation_mixes_backups :
    (rotating demoLib demoCfg).Along (Admits fun _ => Genuine demoLib demoCrypto)
        (initial RotatingWorld.pristine) mixedSchedule ∧
      ¬ ∀ i bundle, .installed i bundle ∈
          ((rotating demoLib demoCfg).run RotatingWorld.pristine mixedSchedule).shared.events →
        ∃ j keyBackup, .noted j (.putKeyBackup keyBackup) ∈
          ((rotating demoLib demoCfg).run RotatingWorld.pristine mixedSchedule).shared.events ∧
            decode demoLib keyBackup = some bundle := by
  refine ⟨genuine_of_demo (by decide +kernel), fun h => ?_⟩
  have hinstalled : .installed 1 (demoBundle 1 2) ∈
      ((rotating demoLib demoCfg).run RotatingWorld.pristine mixedSchedule).shared.events :=
    installed_mem_of_filterMap (by decide +kernel)
  have hnone : ∀ keyBackup ∈
      (((rotating demoLib demoCfg).run RotatingWorld.pristine mixedSchedule).shared.events.filterMap
        put?), decode demoLib keyBackup ≠ some (demoBundle 1 2) := by
    decide +kernel
  obtain ⟨j, keyBackup, hnoted, hdecode⟩ := h 1 (demoBundle 1 2) hinstalled
  exact hnone keyBackup (List.mem_filterMap.mpr ⟨_, hnoted, rfl⟩) hdecode

end Demo
end PublicEndorsement.Mbs.Rotation
