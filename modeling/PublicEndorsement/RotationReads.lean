import PublicEndorsement.RotationCalls

/-!
# Reading a key backup under rotation

The four reads of `getKeyBackup` may meet different generations, in order. In a load the
last two meet the same one, since no rotation falls between them. If what was
read decodes to a matching certificate and key, the first and the third read met
the same generation too, hence all four did.
-/

namespace PublicEndorsement.Mbs.Rotation

open Interaction OrderedPublication Machine RotatingWorld S3KeyBackupStorage

variable {ι : Type} {s s' : RotatingWorld ι}

/-- The content, if any, is the one a backup of generation `g` has under this key. -/
def Seen (s : RotatingWorld ι) (g : ℕ) (key : ObjectKey) (v : Option Bytes) : Prop :=
  ∀ content, v = some content →
    ∃ j keyBackup, s.Put g j keyBackup ∧ keyBackup.parts.lookup key = some content

/-- The reads, latest first, met generations in order, none of them after `g`. -/
def Met (s : RotatingWorld ι) : ℕ → List (ObjectKey × Option Bytes) → Prop
  | _, [] => True
  | g, (key, v) :: earlier => ∃ g' ≤ g, Seen s g' key v ∧ Met s g' earlier

def MetAll (cert dataKey privateKey attestationDoc : Option Bytes) (s : RotatingWorld ι) : Prop :=
  ∃ g, Seen s g .attestationDoc attestationDoc ∧ Seen s g .aesEncryptedPrivateKey privateKey ∧
    Met s g [(.kmsEncryptedDataKey, dataKey), (.cert, cert)]

variable [DecidableEq ι] {lib : Primitives} {crypto : Cryptography} {cfg : ι → ProviderConfig}
variable {i : ι} {P : RotatingWorld ι → Prop}

/-- An object that is there belongs to the backup of the current generation. -/
theorem seen_current (hs : s.Inv lib crypto) {key : ObjectKey} (hkey : key ≠ .lock) :
    Seen s s.past.length key (s.world.objects key) := by
  obtain ⟨p, hp⟩ := hs.tracks
  intro content hcontent
  rw [hp.stored_eq key hkey, stored] at hcontent
  have hnoted : ∀ j keyBackup, (j, keyBackup) ∈ p.started →
      s.Put s.past.length j keyBackup := by
    intro j keyBackup hmem
    rw [← (phase_logs _ hp.phase_eq).2, mem_started_iff] at hmem
    exact put_iff.mpr (.inr ⟨rfl, hmem⟩)
  cases p with
  | unclaimed => cases hcontent
  | claimed j => cases hcontent
  | publishing j keyBackup n =>
    refine ⟨j, keyBackup, hnoted j keyBackup (List.mem_singleton.mpr rfl), ?_⟩
    rw [← List.take_append_drop n keyBackup.parts, List.lookup_append]
    rw [Phase.written] at hcontent
    rw [hcontent]
    rfl
  | published j keyBackup =>
    exact ⟨j, keyBackup, hnoted j keyBackup (List.mem_singleton.mpr rfl), hcontent⟩

theorem Seen.drift {g : ℕ} {key : ObjectKey} {v : Option Bytes} (h : Seen s g key v)
    (hdrift : Drift i s s') : Seen s' g key v := by
  intro content hcontent
  obtain ⟨j, keyBackup, hput, hlookup⟩ := h content hcontent
  exact ⟨j, keyBackup, hdrift.puts g j keyBackup hput, hlookup⟩

theorem Met.drift {g : ℕ} {reads : List (ObjectKey × Option Bytes)} (h : Met s g reads) {g' : ℕ}
    (hle : g ≤ g') (hdrift : Drift i s s') : Met s' g' reads := by
  induction reads generalizing g g' with
  | nil => trivial
  | cons read earlier ih =>
    obtain ⟨g₁, h₁, hseen, hearlier⟩ := h
    exact ⟨g₁, h₁.trans hle, hseen.drift hdrift, ih hearlier le_rfl⟩

section Load

def Reading (reads : List (ObjectKey × Option Bytes)) (s : RotatingWorld ι) : Prop :=
  Met s s.past.length reads

theorem lasting_reading (reads : List (ObjectKey × Option Bytes)) :
    Lasting lib crypto i (Reading reads) :=
  fun _ _ _ _ hdrift h => Met.drift h hdrift.past.length_le hdrift

theorem lasting_metAll (cert dataKey privateKey attestationDoc : Option Bytes) :
    Lasting lib crypto i (MetAll cert dataKey privateKey attestationDoc) := by
  rintro s s' - - hdrift ⟨g, hdoc, hkey, hmet⟩
  exact ⟨g, hdoc.drift hdrift, hkey.drift hdrift, hmet.drift le_rfl hdrift⟩

def ReadPrivateKey (i : ι) (cert dataKey privateKey : Option Bytes) (s : RotatingWorld ι) : Prop :=
  s.midLoad i = true ∧
    Seen s s.past.length .aesEncryptedPrivateKey privateKey ∧
    Reading [(.kmsEncryptedDataKey, dataKey), (.cert, cert)] s

theorem stable_readPrivateKey (cert dataKey privateKey : Option Bytes) :
    (rotationProtocol lib crypto).Stable i (ReadPrivateKey i cert dataKey privateKey) := by
  rintro s s' hs hs' hrely ⟨hlast, hseen, hreading⟩
  refine ⟨hrely.midLoad.trans hlast, ?_, lasting_reading _ s s' hs hs' hrely.toDrift hreading⟩
  rw [hrely.reading hlast]
  exact hseen.drift hrely.toDrift

/-- Reading one object more; the world is the same after a GET. -/
theorem reading_getObject (reads : List (ObjectKey × Option Bytes)) (hs : s.Inv lib crypto)
    {key : ObjectKey} (hkey : key ≠ .lock) (h : Reading reads s)
    (r : Reply (.getObject key)) :
    let s' := s.afterCall i (.getObject key) r s.world
    Seen s' s'.past.length key (s.world.objects key) ∧ Reading reads s' := by
  have hdrift : Drift i s (s.afterCall i (.getObject key) r s.world) :=
    drift_afterCall rfl (World.Rely.refl i s.world)
  exact ⟨(seen_current hs hkey).drift hdrift, Met.drift h le_rfl hdrift⟩

theorem assemble_eq_ok {cert dataKey privateKey attestationDoc : Option Bytes}
    {keyBackup : KeyBackup}
    (h : assemble cert dataKey privateKey attestationDoc = .ok keyBackup) :
    cert = some keyBackup.certBytes ∧ dataKey = some keyBackup.kmsEncryptedDataKey ∧
      privateKey = some keyBackup.aeadEncryptedPrivateKey ∧
      attestationDoc = some keyBackup.attestationDocBytes := by
  cases cert <;> cases dataKey <;> cases privateKey <;> cases attestationDoc <;>
    simp [assemble] at h
  subst h
  exact ⟨rfl, rfl, rfl, rfl⟩

def ReadBackup (keyBackup : KeyBackup) : RotatingWorld ι → Prop :=
  MetAll (some keyBackup.certBytes) (some keyBackup.kmsEncryptedDataKey)
    (some keyBackup.aeadEncryptedPrivateKey) (some keyBackup.attestationDocBytes)

/-- The reads of the check, which may meet anything. -/
theorem getKeyBackup_runs (props : KeyBackupBucketProperties) :
    Runs (genuine lib crypto cfg) (rotationProtocol lib crypto) i (getKeyBackup props) := by
  have hread : ∀ key, Ensures lib crypto cfg i (fun _ => True) (tryGetS3Object props key)
      (fun _ _ => True) (fun _ _ => True) := fun key =>
    tryGetS3Object_spec props key (.const True) (fun _ => .const True) (fun _ _ _ _ => trivial)
      (fun _ _ => trivial)
  refine (hread .cert).bind fun cert => (hread .kmsEncryptedDataKey).bind fun dataKey => ?_
  refine (hread .aesEncryptedPrivateKey).bind fun privateKey => ?_
  refine (hread .attestationDoc).bind fun attestationDoc => Spec.ofOutcome (.const True) ?_
  intro s _ _
  cases assemble cert dataKey privateKey attestationDoc <;> trivial

def Loading (i : ι) (reads : List (ObjectKey × Option Bytes)) (s : RotatingWorld ι) : Prop :=
  s.loading i = true ∧ Reading reads s

theorem stable_loading (reads : List (ObjectKey × Option Bytes)) :
    (rotationProtocol lib crypto).Stable i (Loading i reads) :=
  fun s s' hs hs' hrely h => ⟨hrely.loading.trans h.1,
    lasting_reading reads s s' hs hs' hrely.toDrift h.2⟩

theorem loading_afterCall_getObject {key : ObjectKey} (r : Reply (.getObject key))
    (h : s.loading i = true) :
    (s.afterCall i (.getObject key) r s.world).loading i = true := by
  simpa [RotatingWorld.afterCall, loadsAfter] using h

/-- The reads of the final load, with no lock held. -/
theorem getKeyBackup_spec (props : KeyBackupBucketProperties) :
    Ensures lib crypto cfg i (Loading i []) (getKeyBackup props) ReadBackup (fun _ _ => True) := by
  have hE : ∀ (message : String) (s : RotatingWorld ι), True := fun _ _ => trivial
  refine (tryGetS3Object_spec (Q := fun cert => Loading i [(.cert, cert)]) props .cert
    (stable_loading _) (fun _ => stable_loading _) ?_ hE).bind fun cert => ?_
  · intro s r hs h
    obtain ⟨hseen, -⟩ := reading_getObject (i := i) [] hs (by decide) trivial r
    exact ⟨loading_afterCall_getObject r h.1, _, le_rfl, hseen, trivial⟩
  refine (tryGetS3Object_spec (Q := fun dataKey => Loading i [(.kmsEncryptedDataKey, dataKey),
      (.cert, cert)]) props .kmsEncryptedDataKey (stable_loading _) (fun _ => stable_loading _) ?_
      hE).bind fun dataKey => ?_
  · intro s r hs h
    obtain ⟨hseen, hearlier⟩ := reading_getObject (i := i) _ hs (by decide) h.2 r
    exact ⟨loading_afterCall_getObject r h.1, _, le_rfl, hseen, hearlier⟩
  refine (tryGetS3Object_spec (Q := ReadPrivateKey i cert dataKey) props .aesEncryptedPrivateKey
    (stable_loading _) (fun _ => stable_readPrivateKey _ _ _) ?_ hE).bind fun privateKey => ?_
  · intro s r hs h
    refine ⟨?_, reading_getObject _ hs (by decide) h.2 r⟩
    simp [RotatingWorld.midLoad, RotatingWorld.afterCall, loadsAfter, Call.reads, h.1]
  refine (tryGetS3Object_spec (Q := MetAll cert dataKey privateKey) props .attestationDoc
    (stable_readPrivateKey _ _ _) (fun _ => (lasting_metAll _ _ _ _).stable) ?_ hE).bind
    fun attestationDoc => ?_
  · rintro s r hs ⟨-, hkey, hearlier⟩
    obtain ⟨hdoc, hmet⟩ := reading_getObject (i := i) _ hs (by decide) hearlier r
    have hdrift : Drift i s (s.afterCall i (.getObject .attestationDoc) r s.world) :=
      drift_afterCall rfl (World.Rely.refl i s.world)
    exact ⟨_, hdoc, hkey.drift hdrift, hmet⟩
  apply Spec.ofOutcome (lasting_metAll _ _ _ _).stable
  intro s hs hmet
  cases hassemble : assemble cert dataKey privateKey attestationDoc with
  | error e => trivial
  | ok keyBackup =>
    obtain ⟨rfl, rfl, rfl, rfl⟩ := assemble_eq_ok hassemble
    exact hmet

/-- What decoded and passed the probe is one certificate with its private key. -/
theorem fits_of_decode {keyBackup : KeyBackup} {bundle : MeasurementBoundCertificate}
    (hdecode : KmsMeasurementBoundCertificateProvider.decode lib keyBackup = some bundle)
    (hpair : crypto.keyPair bundle.certificate.publicKey bundle.privateKey) :
    ∃ key privateKeyBytes,
      lib.aeadDecrypt key keyBackup.aeadEncryptedPrivateKey = some privateKeyBytes ∧
      Fits lib crypto keyBackup.certBytes privateKeyBytes := by
  unfold KmsMeasurementBoundCertificateProvider.decode at hdecode
  obtain ⟨key, -, hdecode⟩ := Option.bind_eq_some_iff.mp hdecode
  obtain ⟨certificate, hcert, hdecode⟩ := Option.bind_eq_some_iff.mp hdecode
  split_ifs at hdecode with hlength
  · cases hdecode
  · obtain ⟨privateKeyBytes, hbytes, hdecode⟩ := Option.bind_eq_some_iff.mp hdecode
    obtain ⟨privateKey, hkey, hbundle⟩ := Option.bind_eq_some_iff.mp hdecode
    cases hbundle
    exact ⟨key, privateKeyBytes, hbytes, certificate, privateKey, hcert, hkey, hpair⟩

/-- A backup that was read part by part, decodes and passes the probe is one that was
handed to `putKeyBackup` as a whole. -/
theorem ReadBackup.put (hs : s.Inv lib crypto) {keyBackup : KeyBackup}
    {bundle : MeasurementBoundCertificate} (h : ReadBackup keyBackup s)
    (hdecode : KmsMeasurementBoundCertificateProvider.decode lib keyBackup = some bundle)
    (hpair : crypto.keyPair bundle.certificate.publicKey bundle.privateKey) :
    ∃ g j, s.Put g j keyBackup := by
  obtain ⟨g₃, hdoc, hkey, g₂, h₂₃, hdata, g₁, h₁₂, hcert, -⟩ := h
  obtain ⟨j₁, kb₁, hput₁, hcert⟩ := hcert _ rfl
  obtain ⟨j₂, kb₂, hput₂, hdata⟩ := hdata _ rfl
  obtain ⟨j₃, kb₃, hput₃, hkey⟩ := hkey _ rfl
  obtain ⟨j₄, kb₄, hput₄, hdoc⟩ := hdoc _ rfl
  have hcert : kb₁.certBytes = keyBackup.certBytes := Option.some.inj hcert
  have hdata : kb₂.kmsEncryptedDataKey = keyBackup.kmsEncryptedDataKey := Option.some.inj hdata
  have hkey : kb₃.aeadEncryptedPrivateKey = keyBackup.aeadEncryptedPrivateKey :=
    Option.some.inj hkey
  have hdoc : kb₄.attestationDocBytes = keyBackup.attestationDocBytes := Option.some.inj hdoc
  -- a private key of a later generation would not fit the certificate
  have hsame : g₁ = g₃ := by
    rcases (h₁₂.trans h₂₃).lt_or_eq with hlt | heq
    · obtain ⟨key, privateKeyBytes, hbytes, hfits⟩ := fits_of_decode hdecode hpair
      rw [← hkey] at hbytes
      rw [← hcert] at hfits
      exact absurd hfits (hs.apart g₁ g₃ j₁ j₃ kb₁ kb₃ hlt hput₁ hput₃ key privateKeyBytes hbytes)
    · exact heq
  obtain rfl : g₂ = g₁ := le_antisymm (h₂₃.trans hsame.ge) h₁₂
  subst hsame
  cases hs.put_unique hput₁ hput₂
  cases hs.put_unique hput₁ hput₃
  cases hs.put_unique hput₁ hput₄
  refine ⟨g₂, j₁, ?_⟩
  have hwhole : kb₁ = keyBackup := by
    cases kb₁
    cases keyBackup
    cases hcert
    cases hdata
    cases hkey
    cases hdoc
    rfl
  rwa [hwhole] at hput₁

end Load

section UnderTheLock

/-- While `P` lasts the artifacts are the ones of `contents`. -/
theorem getKeyBackup_known (props : KeyBackupBucketProperties)
    (contents : ObjectKey → Option Bytes) (hP : Lasting lib crypto i P)
    (hcontents : ∀ s, s.Inv lib crypto → P s → ∀ key, key ≠ .lock →
      s.world.objects key = contents key)
    {Q : KeyBackup → RotatingWorld ι → Prop} {E : Failure → RotatingWorld ι → Prop}
    (hlost : ∀ message s, E (.keyBackupAccessFailed message) s)
    (h : ∀ s, s.Inv lib crypto → P s → onOutcome Q E (assemble (contents .cert)
      (contents .kmsEncryptedDataKey) (contents .aesEncryptedPrivateKey)
      (contents .attestationDoc)) s) :
    Ensures lib crypto cfg i P (getKeyBackup props) Q E := by
  have hread : ∀ key, key ≠ .lock → Ensures lib crypto cfg i P (tryGetS3Object props key)
      (fun v s => P s ∧ v = contents key) E := by
    intro key hkey
    refine tryGetS3Object_spec props key hP.stable (fun v => hP.stable.and (.const _)) ?_ hlost
    intro s r hs hp
    exact ⟨(hP.passes hs rfl (.inl rfl) hp).2, hcontents s hs hp key hkey⟩
  refine (hread .cert (by decide)).bindFact fun cert hcert => ?_
  refine (hread .kmsEncryptedDataKey (by decide)).bindFact fun dataKey hdata => ?_
  refine (hread .aesEncryptedPrivateKey (by decide)).bindFact fun privateKey hkey => ?_
  refine (hread .attestationDoc (by decide)).bindFact fun attestationDoc hdoc => ?_
  subst hcert hdata hkey hdoc
  exact Spec.ofOutcome hP.stable h

end UnderTheLock
end PublicEndorsement.Mbs.Rotation
