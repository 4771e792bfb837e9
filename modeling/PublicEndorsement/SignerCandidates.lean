import PublicEndorsement.TracedComputation
import PublicEndorsement.TsaVerifier

/-!
# Candidates for the signer of a token

A token may come with several certificates that match the id of its signer, and with
others that cannot even be read. The verifier accepts the token exactly when one of the
candidates is acceptable, wherever it stands among them, and otherwise throws one
exception that carries what was wrong with each of them.
-/

namespace PublicEndorsement.Pes.Tsa

variable {Token Holder : Type}

def PublicKey.IsStrong : PublicKey → Prop
  | .rsa modulusBits => 2048 ≤ modulusBits
  | .ec fieldSize => 256 ≤ fieldSize
  | .other _ => False

def TrustAnchor.publicKey (anchor : TrustAnchor) : Option PublicKey :=
  match anchor.trustedCert with
  | some cert => some cert.publicKey
  | none => anchor.caPublicKey

def Library.readable (lib : Library Token Holder) (bag : List Holder) : List X509Certificate :=
  bag.filterMap (fun holder => (lib.getCertificate holder).toOption)

/-- A path of approved certificates with strong keys, from the signer to the anchor. -/
structure CertPathResult.IsApproved (path : CertPathResult) (signer : X509Certificate) : Prop where
  signer_strong : signer.publicKey.IsStrong
  algorithms : ∀ cert ∈ path.certPath, cert.sigAlgOid ∈ approvedSignatureAlgorithms
  strong : ∀ cert ∈ path.certPath, cert.publicKey.IsStrong
  anchor_strong : ∀ key, path.trustAnchor.publicKey = some key → key.IsStrong

/-- The signature validates under the candidate, by approved algorithms, and an approved
path leads from it to a configured anchor that is valid when the token was made. -/
structure Acceptable (lib : Library Token Holder) (v : TsaTimestampVerifierImpl) (token : Token)
    (candidate : Holder) : Prop where
  digests : ∀ signer ∈ lib.signers token, signer.digestAlg ∈ approvedHashAlgorithms.map Prod.fst
  encryptions : ∀ signer ∈ lib.signers token,
    signer.encryptionAlg ∈ approvedCmsEncryptionAlgorithms
  signature : lib.validateToken token candidate = .ok ()
  chain : ∃ bag signer path, lib.certificates token = .ok bag ∧
    lib.getCertificate candidate = .ok signer ∧
    lib.buildPath (v.trustAnchors.filter (isTrustAnchorValidAt · (lib.genTime token))) signer
      (lib.readable bag) (lib.genTime token) = .ok path ∧
    path.trustAnchor ∈ v.trustAnchors ∧
    isTrustAnchorValidAt path.trustAnchor (lib.genTime token) = true ∧ path.IsApproved signer

/-- What is documented of the conversion of a certificate and of the PKIX builder: a
certificate that cannot be converted is reported by a `CertificateException`, and a path
that is built ends in one of the given anchors. -/
structure Library.Documented (lib : Library Token Holder) : Prop where
  conversion : ∀ holder e, lib.getCertificate holder = .error e →
    ∃ message, e = .certificate message
  anchor : ∀ anchors signer certs date path, lib.buildPath anchors signer certs date = .ok path →
    path.trustAnchor ∈ anchors

namespace TsaTimestampVerifierImpl

variable (lib : Library Token Holder) (v : TsaTimestampVerifierImpl) (token : Token)

/-! ## One candidate -/

theorem validatePublicKey_iff (key : PublicKey) :
    validatePublicKey key = .ok () ↔ key.IsStrong := by
  unfold validatePublicKey PublicKey.IsStrong minRsaKeyBits minEcFieldBits
  cases key with
  | rsa bits =>
    by_cases h : bits < 2048
    · simp [h, throw, throwThe, MonadExceptOf.throw]
    · simp [h, pure, Except.pure, not_lt.mp h]
  | ec bits =>
    by_cases h : bits < 256
    · simp [h, throw, throwThe, MonadExceptOf.throw]
    · simp [h, pure, Except.pure, not_lt.mp h]
  | other algorithm => simp [throw, throwThe, MonadExceptOf.throw]

theorem validatePathCertificate_iff (cert : X509Certificate) :
    validatePathCertificate cert = .ok () ↔
      cert.sigAlgOid ∈ approvedSignatureAlgorithms ∧ cert.publicKey.IsStrong := by
  unfold validatePathCertificate
  by_cases h : cert.sigAlgOid ∈ approvedSignatureAlgorithms
  · simp [h, validatePublicKey_iff]
  · simp [h, throw, throwThe, MonadExceptOf.throw]

theorem validateAnchor_iff (anchor : TrustAnchor) :
    validateAnchor anchor = .ok () ↔ ∀ key, anchor.publicKey = some key → key.IsStrong := by
  unfold validateAnchor TrustAnchor.publicKey
  cases anchor.trustedCert with
  | some cert => simp [validatePublicKey_iff]
  | none =>
    cases anchor.caPublicKey with
    | some key => simp [validatePublicKey_iff]
    | none => simp [pure, Except.pure]

theorem checkSigner_iff (signer : SignerInfo) :
    checkSigner signer = .ok () ↔ signer.digestAlg ∈ approvedHashAlgorithms.map Prod.fst ∧
      signer.encryptionAlg ∈ approvedCmsEncryptionAlgorithms := by
  unfold checkSigner
  by_cases hdigest : signer.digestAlg ∈ approvedHashAlgorithms.map Prod.fst
  · by_cases hencryption : signer.encryptionAlg ∈ approvedCmsEncryptionAlgorithms
    · simp only [hdigest, hencryption, not_true_eq_false, if_false, and_self, iff_true]
      rfl
    · simp [hdigest, hencryption, throw, throwThe, MonadExceptOf.throw]
  · simp [hdigest, throw, throwThe, MonadExceptOf.throw]

theorem verifyTokenSignature_iff (candidate : Holder) :
    verifyTokenSignature lib token candidate = .ok () ↔
      (∀ signer ∈ lib.signers token, signer.digestAlg ∈ approvedHashAlgorithms.map Prod.fst ∧
        signer.encryptionAlg ∈ approvedCmsEncryptionAlgorithms) ∧
      lib.validateToken token candidate = .ok () := by
  unfold verifyTokenSignature
  rw [except_bind_eq_ok]
  simp only [← checkSigner_iff, ← except_forM_eq_ok, Unique.exists_iff,
    List.forM_eq_forM]
  refine and_congr_right fun _ => ?_
  cases lib.validateToken token candidate with
  | ok u => simp [pure, Except.pure]
  | error e => simp [throw, throwThe, MonadExceptOf.throw]

/-- Certificates that cannot be read are skipped. -/
theorem readCertificates_eq (hlib : lib.Documented) (bag : List Holder) :
    readCertificates lib bag = .ok (lib.readable bag) := by
  unfold Library.readable
  induction bag with
  | nil => rfl
  | cons holder bag ih =>
    rw [readCertificates]
    cases hcert : lib.getCertificate holder with
    | ok cert => simp [hcert, ih, bind, Except.bind, pure, Except.pure, Except.toOption]
    | error e =>
      obtain ⟨message, rfl⟩ := hlib.conversion holder e hcert
      simp [hcert, ih, Except.toOption]

theorem validateCertificateChain_iff (hlib : lib.Documented) (candidate : Holder)
    (bag : List Holder) (anchors : List TrustAnchor) (date : ℤ) :
    validateCertificateChain lib candidate bag anchors date = .ok () ↔
      ∃ signer path, lib.getCertificate candidate = .ok signer ∧
        lib.buildPath (anchors.filter (isTrustAnchorValidAt · date)) signer (lib.readable bag)
          date = .ok path ∧
        path.trustAnchor ∈ anchors ∧ isTrustAnchorValidAt path.trustAnchor date = true ∧
        path.IsApproved signer := by
  unfold validateCertificateChain
  by_cases hnone : anchors.filter (isTrustAnchorValidAt · date) = []
  · -- no path can end in an anchor that is not there
    simp only [hnone, if_true]
    refine iff_of_false (by simp [throw, throwThe, MonadExceptOf.throw]) ?_
    rintro ⟨signer, path, -, hpath, -⟩
    exact absurd (hlib.anchor _ _ _ _ path hpath) List.not_mem_nil
  simp only [hnone, if_false, except_bind_eq_ok, readCertificates_eq lib hlib, Except.ok.injEq,
    validatePublicKey_iff, List.forM_eq_forM, except_forM_eq_ok, validatePathCertificate_iff,
    validateAnchor_iff, Unique.exists_iff, PUnit.default_eq_unit]
  constructor
  · rintro ⟨signer, hsigner, _, rfl, path, hpath, hstrong, hcerts, hanchor⟩
    have hmem := List.mem_filter.mp (hlib.anchor _ _ _ _ path hpath)
    exact ⟨signer, path, hsigner, hpath, hmem.1, hmem.2, hstrong, fun cert hcert =>
      (hcerts cert hcert).1, fun cert hcert => (hcerts cert hcert).2, hanchor⟩
  · rintro ⟨signer, path, hsigner, hpath, -, -, happroved⟩
    exact ⟨signer, hsigner, _, rfl, path, hpath, happroved.signer_strong, fun cert hcert =>
      ⟨happroved.algorithms cert hcert, happroved.strong cert hcert⟩, happroved.anchor_strong⟩

def checkCandidate (candidate : Holder) : Except JavaException Unit := do
  verifyTokenSignature lib token candidate
  v.verifyCertificateChain lib token candidate

theorem checkCandidate_iff (hlib : lib.Documented) (candidate : Holder) :
    v.checkCandidate lib token candidate = .ok () ↔ Acceptable lib v token candidate := by
  have hchain : v.verifyCertificateChain lib token candidate = .ok () ↔
      ∃ bag, lib.certificates token = .ok bag ∧ validateCertificateChain lib candidate bag
        v.trustAnchors (lib.genTime token) = .ok () := by
    unfold verifyCertificateChain
    simp only [← except_bind_eq_ok]
    split
    · simp_all [pure, Except.pure]
    · simp_all [throw, throwThe, MonadExceptOf.throw]
  rw [checkCandidate, except_bind_eq_ok, Unique.exists_iff, verifyTokenSignature_iff, hchain]
  simp only [validateCertificateChain_iff lib hlib]
  constructor
  · rintro ⟨⟨halgorithms, hsignature⟩, bag, hbag, signer, path, hpath⟩
    exact ⟨fun signer h => (halgorithms signer h).1, fun signer h => (halgorithms signer h).2,
      hsignature, bag, signer, path, hbag, hpath⟩
  · rintro ⟨hdigests, hencryptions, hsignature, bag, signer, path, hbag, hpath⟩
    exact ⟨⟨fun signer h => ⟨hdigests signer h, hencryptions signer h⟩, hsignature⟩, bag, hbag,
      signer, path, hpath⟩

def IsTsa (e : JavaException) : Prop := ∃ message causes, e = .tsa message causes

theorem checkSigner_onlyThrows (signer : SignerInfo) : OnlyThrows IsTsa (checkSigner signer) := by
  unfold checkSigner
  split_ifs
  · exact .ok ()
  · exact .error ⟨_, _, rfl⟩
  · exact .error ⟨_, _, rfl⟩

/-- Whatever is thrown while a candidate is checked arrives as a `TsaException`. -/
theorem checkCandidate_onlyThrows (candidate : Holder) :
    OnlyThrows IsTsa (v.checkCandidate lib token candidate) := by
  refine OnlyThrows.bind (OnlyThrows.bind (OnlyThrows.forM checkSigner_onlyThrows _) fun _ => ?_)
    fun _ => ?_
  · split
    · exact .ok ()
    · exact .error ⟨_, _, rfl⟩
  · unfold verifyCertificateChain
    simp only
    split
    · exact .ok ()
    · exact .error ⟨_, _, rfl⟩

/-! ## All candidates -/

theorem tryVerifyCandidate_of_ok {candidate : Holder}
    (h : v.checkCandidate lib token candidate = .ok ()) :
    v.tryVerifyCandidate lib token candidate = .ok none := by
  rw [checkCandidate] at h
  rw [tryVerifyCandidate, h]
  rfl

/-- The failure of a candidate is kept: the checks throw nothing but what is caught. -/
theorem tryVerifyCandidate_of_error {candidate : Holder} {e : JavaException}
    (h : v.checkCandidate lib token candidate = .error e) :
    v.tryVerifyCandidate lib token candidate = .ok (some e) := by
  obtain ⟨message, causes, rfl⟩ := v.checkCandidate_onlyThrows lib token candidate e h
  rw [checkCandidate] at h
  rw [tryVerifyCandidate, h]
  rfl

def FailsWith (candidate : Holder) (failure : JavaException) : Prop :=
  v.checkCandidate lib token candidate = .error failure

/-- The candidates are tried in turn, and the failures before the first one that passes
are of no consequence. -/
theorem verifyCandidates_cases (failures : List JavaException) (candidates : List Holder) :
    (∃ candidate ∈ candidates, v.checkCandidate lib token candidate = .ok ()) ∧
        v.verifyCandidates lib token failures candidates = .ok () ∨
      ∃ more, List.Forall₂ (v.FailsWith lib token) candidates more ∧
        v.verifyCandidates lib token failures candidates =
          .error (combineExceptions (failures ++ more)) := by
  induction candidates generalizing failures with
  | nil => exact .inr ⟨[], .nil, by rw [List.append_nil]; rfl⟩
  | cons candidate candidates ih =>
    rw [verifyCandidates]
    cases hcheck : v.checkCandidate lib token candidate with
    | ok u =>
      rw [v.tryVerifyCandidate_of_ok lib token hcheck]
      exact .inl ⟨⟨candidate, List.mem_cons_self, hcheck⟩, rfl⟩
    | error e =>
      rw [v.tryVerifyCandidate_of_error lib token hcheck]
      rcases ih (failures ++ [e]) with ⟨⟨passing, hmem, hpasses⟩, hresult⟩ | ⟨more, hall, hresult⟩
      · exact .inl ⟨⟨passing, List.mem_cons_of_mem _ hmem, hpasses⟩, hresult⟩
      · refine .inr ⟨e :: more, .cons hcheck hall, ?_⟩
        rw [List.append_cons]
        exact hresult

/-- The exception carries all of these failures: it is the only one, or it has them as its
cause and its suppressed exceptions. -/
def Carries (e : JavaException) (failures : List JavaException) : Prop :=
  failures = [e] ∨ ∃ message, e = .tsa message failures

theorem carries_combineExceptions {failures : List JavaException} (h : failures ≠ []) :
    Carries (combineExceptions failures) failures := by
  match failures with
  | [] => exact absurd rfl h
  | [e] => exact .inl rfl
  | _ :: _ :: _ => exact .inr ⟨_, rfl⟩

theorem isTsa_combineExceptions {failures : List JavaException} (hne : failures ≠ [])
    (h : ∀ e ∈ failures, IsTsa e) : IsTsa (combineExceptions failures) := by
  match failures with
  | [] => exact absurd rfl hne
  | [e] => exact h e List.mem_cons_self
  | _ :: _ :: _ => exact ⟨_, _, rfl⟩

theorem isTsa_of_failsWith {candidates : List Holder} {failures : List JavaException}
    (h : List.Forall₂ (v.FailsWith lib token) candidates failures) : ∀ e ∈ failures, IsTsa e := by
  induction h with
  | nil => simp
  | cons hfirst _ ih =>
    exact List.forall_mem_cons.mpr ⟨v.checkCandidate_onlyThrows lib token _ _ hfirst, ih⟩

theorem failsWith_of_mem {candidates : List Holder} {failures : List JavaException}
    (h : List.Forall₂ (v.FailsWith lib token) candidates failures) :
    ∀ candidate ∈ candidates, v.checkCandidate lib token candidate ≠ .ok () := by
  induction h with
  | nil => simp
  | cons hfirst _ ih =>
    refine List.forall_mem_cons.mpr ⟨fun hok => ?_, ih⟩
    cases hok.symm.trans hfirst

theorem verifyToken_of_candidates {first : Holder} {rest : List Holder}
    (h : lib.signerCertificates token = .ok (first :: rest)) :
    v.verifyToken lib token = v.verifyCandidates lib token [] (first :: rest) := by
  rw [verifyToken, extractSignerCertificates, h]
  rfl

/-- A token is accepted exactly when one of the certificates that match its signer is
acceptable. When none is, one `TsaException` is thrown, and it carries the failure of each. -/
theorem verifyToken_accepts_iff (lib : Library Token Holder) (hlib : lib.Documented)
    (v : TsaTimestampVerifierImpl) (token : Token) :
    (v.verifyToken lib token = .ok () ↔
      ∃ candidates, lib.signerCertificates token = .ok candidates ∧
        ∃ candidate ∈ candidates, Acceptable lib v token candidate) ∧
    (v.verifyToken lib token ≠ .ok () →
      ∃ message causes, v.verifyToken lib token = .error (.tsa message causes) ∧
        ∀ candidates, lib.signerCertificates token = .ok candidates →
          ∃ failures, List.Forall₂ (v.FailsWith lib token) candidates failures ∧
            Carries (.tsa message causes) failures) := by
  simp only [← checkCandidate_iff lib v token hlib]
  cases hcandidates : lib.signerCertificates token with
  | error e =>
    have hthrown : v.verifyToken lib token =
        .error (.tsa "Failed to extract signer certificates from TSA token" [e]) := by
      rw [verifyToken, extractSignerCertificates, hcandidates]
      rfl
    simp [hthrown]
  | ok candidates =>
    simp only [Except.ok.injEq, exists_eq_left', forall_eq']
    cases candidates with
    | nil =>
      have hthrown : v.verifyToken lib token =
          .error (.tsa "TSA token did not include signer certificate" []) := by
        rw [verifyToken, extractSignerCertificates, hcandidates]
        rfl
      rw [hthrown]
      exact ⟨by simp, fun _ => ⟨_, _, rfl, [], .nil, .inr ⟨_, rfl⟩⟩⟩
    | cons first rest =>
      rw [v.verifyToken_of_candidates lib token hcandidates]
      rcases v.verifyCandidates_cases lib token [] (first :: rest) with ⟨hpasses, hresult⟩ |
        ⟨failures, hall, hresult⟩
      · exact ⟨iff_of_true hresult hpasses, fun h => absurd hresult h⟩
      · have hne : failures ≠ [] := by
          rintro rfl
          cases hall
        have hcarries := carries_combineExceptions hne
        obtain ⟨message, causes, hcombined⟩ := isTsa_combineExceptions hne
          (v.isTsa_of_failsWith lib token hall)
        rw [List.nil_append, hcombined] at hresult
        rw [hcombined] at hcarries
        rw [hresult]
        refine ⟨iff_of_false (by simp) ?_,
          fun _ => ⟨message, causes, rfl, failures, hall, hcarries⟩⟩
        rintro ⟨candidate, hmem, hpasses⟩
        exact v.failsWith_of_mem lib token hall candidate hmem hpasses

end TsaTimestampVerifierImpl

/-- Of three certificates, one cannot be read and one makes the builder fail. -/
def candidateLibrary : Library Unit ℕ where
  messageImprintAlg _ := idSha256
  messageImprintDigest _ := []
  genTime _ := 500
  signers _ := [⟨idSha256, rsaEncryption⟩]
  certificates _ := .ok [0, 1, 2]
  signerCertificates _ := .ok [0, 1, 2]
  validateToken _ _ := .ok ()
  getEncoded _ := .ok []
  parseToken _ := .ok none
  validateResponse _ _ := .ok ()
  getCertificate holder := if holder = 0 then .error (.certificate "malformed")
    else .ok ⟨[holder.toUInt8], .rsa 2048, sha256WithRSAEncryption, 0, 1000⟩
  buildPath anchors target _ _ := match anchors with
    | [] => .error (.checked "no anchors")
    | anchor :: _ => if target.encoded = [1] then .error (.unchecked "no path")
      else .ok ⟨[target], anchor⟩
  messageDigest _ := none
  printInstant := toString

theorem candidateLibrary_documented : candidateLibrary.Documented where
  conversion holder e h := by
    simp only [candidateLibrary] at h
    split_ifs at h
    cases h
    exact ⟨_, rfl⟩
  anchor anchors signer certs date path h := by
    simp only [candidateLibrary] at h
    split at h
    · cases h
    · split_ifs at h
      cases h
      exact List.mem_cons_self

def candidateVerifier : TsaTimestampVerifierImpl :=
  ⟨0, [⟨none, some (.ec 256)⟩], by simp⟩

/-- The last of the three candidates is acceptable. -/
theorem candidateLibrary_accepts :
    candidateLibrary.Documented ∧
      ∃ candidates, candidateLibrary.signerCertificates () = .ok candidates ∧
        ∃ candidate ∈ candidates, Acceptable candidateLibrary candidateVerifier () candidate :=
  ⟨candidateLibrary_documented,
    (TsaTimestampVerifierImpl.verifyToken_accepts_iff candidateLibrary candidateLibrary_documented
      candidateVerifier ()).1.mp rfl⟩

end PublicEndorsement.Pes.Tsa
