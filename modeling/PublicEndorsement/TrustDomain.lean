import PublicEndorsement.JwksFetch
import PublicEndorsement.StatementClaims

/-!
# The trust domain of the service

`PesModule` writes a trust domain, made from the instance metadata, into the SPIFFE ID of
the root certificate, and `TrustDomainExtractor` reads it back from there. The encoder
takes any text, the decoder goes through `java.net.URI`.

* `JavaUri.newUri` parses a SPIFFE ID, and `getHost` is its authority if that is a host
  name of RFC 2396 (`JavaUri.IsHostname`);
* `PesModule.RoundTrips` says that the trust domain is read back as it was written, also
  where the audience of a token is validated;
* `PesModule.roundTrips_iff` says for which metadata it is.
-/

namespace PublicEndorsement.Pes

open Mbs Oidc

/-! ## URIs -/

namespace JavaUri

def isAlpha (c : UInt16) : Bool := charBetween 'a' 'z' c || charBetween 'A' 'Z' c

def isAlphanum (c : UInt16) : Bool := isAlpha c || charBetween '0' '9' c

def isHex (c : UInt16) : Bool :=
  charBetween '0' '9' c || charBetween 'a' 'f' c || charBetween 'A' 'F' c

def isUnreserved (c : UInt16) : Bool := isAlphanum c || (text "-_.!~*'()").contains c

def isRegName (c : UInt16) : Bool := isUnreserved c || (text "$,;:@&=+").contains c

def isPathChar (c : UInt16) : Bool := isUnreserved c || (text ":@&=+$,;/").contains c

def isUric (c : UInt16) : Bool := isUnreserved c || (text ";/?:@&=+$,[]").contains c

def isSpaceChar (c : UInt16) : Bool :=
  let n := c.toNat
  n == 0x20 || n == 0xA0 || n == 0x1680 || (0x2000 ≤ n && n ≤ 0x200A) || n == 0x2028 ||
    n == 0x2029 || n == 0x202F || n == 0x205F || n == 0x3000

def isISOControl (c : UInt16) : Bool := c.toNat ≤ 0x1F || (0x7F ≤ c.toNat && c.toNat ≤ 0x9F)

/-- Visible characters outside of ASCII need not be escaped. -/
def isOther (c : UInt16) : Bool := 128 < c.toNat && !isSpaceChar c && !isISOControl c

def percent : UInt16 := 0x25
def slash : UInt16 := 0x2F
def questionMark : UInt16 := 0x3F
def numberSign : UInt16 := 0x23

def legal (allowed : UInt16 → Bool) : Utf16 → Bool
  | [] => true
  | [c] => c ≠ percent && (allowed c || isOther c)
  | [c, d] => c ≠ percent && (allowed c || isOther c) && legal allowed [d]
  | c :: d :: e :: rest =>
    if c = percent then isHex d && isHex e && legal allowed rest
    else (allowed c || isOther c) && legal allowed (d :: e :: rest)

def legalTail (tail : Utf16) : Bool :=
  let path := tail.takeWhile (fun c => c ≠ questionMark && c ≠ numberSign)
  let rest := tail.dropWhile (fun c => c ≠ questionMark && c ≠ numberSign)
  legal isPathChar path &&
    if rest.head? = some questionMark then
      legal isUric (rest.tail.takeWhile (fun c => c ≠ numberSign)) &&
        legal isUric (rest.tail.dropWhile (fun c => c ≠ numberSign)).tail
    else legal isUric rest.tail

def isDelimiter (c : UInt16) : Bool := c = slash || c = questionMark || c = numberSign

def spiffeScheme : Utf16 := text "spiffe://"

structure Uri where
  authority : Utf16
  deriving DecidableEq, Repr

/-- The constructor, on a text that begins with the scheme of a SPIFFE ID. An authority
with brackets in it counts as illegal here. -/
def newUri (s : Utf16) : Except OidcExn Uri :=
  let rest := s.drop spiffeScheme.length
  let authority := rest.takeWhile (fun c => !isDelimiter c)
  let tail := rest.dropWhile (fun c => !isDelimiter c)
  if rest ≠ [] && legal isRegName authority && legalTail tail then .ok ⟨authority⟩
  else .error .uriSyntax

/-- `domainlabel`: letters, digits and hyphens, with no hyphen at either end. -/
def isDomainLabel (label : Utf16) : Bool :=
  label.all (fun c => isAlphanum c || charBetween '-' '-' c) &&
    label.head?.any isAlphanum && label.getLast?.any isAlphanum

/-- `toplabel`: a label that begins with a letter. -/
def isTopLabel (label : Utf16) : Bool := isDomainLabel label && label.head?.any isAlpha

/-- The labels between the dots, the last first; a dot at the end does not count. -/
def labelsFromTop (s : Utf16) : List Utf16 :=
  match (s.splitOn Claim.dot).reverse with
  | [] :: labels => labels
  | labels => labels

def isHostname (s : Utf16) : Bool :=
  match labelsFromTop s with
  | [] => false
  | top :: labels => isTopLabel top && labels.all isDomainLabel

def Uri.getHost (uri : Uri) : Option Utf16 :=
  if isHostname uri.authority then some uri.authority else none

/-- `hostname = *( domainlabel "." ) toplabel [ "." ]`. -/
def IsHostname (s : Utf16) : Prop :=
  ∃ labels top, (∀ label ∈ labels, isDomainLabel label = true) ∧ isTopLabel top = true ∧
    (s = [Claim.dot].intercalate (labels ++ [top]) ∨
      s = [Claim.dot].intercalate (labels ++ [top]) ++ [Claim.dot])

end JavaUri

/-! ## The decoder -/

inductive SanItem where
  | null
  | integer (n : ℤ)
  | string (s : Utf16)
  | object (className : Utf16)
  deriving DecidableEq, Repr

def SanItem.className : SanItem → Utf16
  | .null => text "null"
  | .integer _ => text "java.lang.Integer"
  | .string _ => text "java.lang.String"
  | .object name => name

abbrev San := List SanItem

/-- `X509Certificate.getSubjectAlternativeNames`, which may be null. -/
abbrev SanReader := X509Certificate → Except OidcExn (Option (List San))

namespace TrustDomainExtractor

def uniformResourceIdentifier : ℤ := 6

def isUriSan : San → Bool
  | .integer tag :: _ :: _ => tag = uniformResourceIdentifier
  | _ => false

def extractTrustDomainFromHost (host : Utf16) : Except OidcExn Utf16 :=
  if !(text "pes.").isPrefixOf host then
    .error (.base (.illegalArgument (text ("SPIFFE ID trust domain does not start with expected" ++
      " prefix. Expected prefix: 'pes.', Actual host/trust domain: '") ++ host ++ text "'")))
  else .ok host

def extractTrustDomainFromSpiffeId (spiffeId : Utf16) : Except OidcExn Utf16 :=
  if !JavaUri.spiffeScheme.isPrefixOf spiffeId then
    .error (.base (.illegalArgument (text ("SPIFFE ID URI does not start with expected scheme." ++
      " Expected prefix: 'spiffe://', Actual URI: '") ++ spiffeId ++ text "'")))
  else do
    let uri ← JavaUri.newUri spiffeId
    match uri.getHost with
    | some (c :: host) => extractTrustDomainFromHost (c :: host)
    | _ => .error (.base (.illegalArgument (text ("SPIFFE ID URI does not contain a valid" ++
        " host/trust domain. Actual SPIFFE ID: '") ++ spiffeId ++ text "'")))

def tryParseTrustDomain (san : San) : Except OidcExn Utf16 :=
  match san.getD 1 .null with
  | .string spiffeId => extractTrustDomainFromSpiffeId spiffeId
  | item => .error (.base (.illegalArgument (text ("URI SAN value is not a String. Expected:" ++
      " String, Actual: ") ++ item.className)))

def extract (getSubjectAlternativeNames : SanReader) (rootCertificate : X509Certificate) :
    Except OidcExn Utf16 := do
  let sans ← getSubjectAlternativeNames rootCertificate
  match (sans.getD []).find? isUriSan with
  | some san => tryParseTrustDomain san
  | none => .error (.base (.illegalArgument (text
      ("Root certificate SAN does not contain a valid" ++ " SPIFFE ID trust domain."))))

end TrustDomainExtractor

namespace OidcAudienceValidator

def notExtracted : OidcExn → OidcExn
  | .certificateParsing | .uriSyntax | .audienceValidation _ | .base (.illegalArgument _) =>
    .base (.illegalState (text "Failed to extract trust domain from active root certificate"))
  | e => e

/-- The trust domain of the first bundle; without one, the access to the list throws. -/
def resolveTrustDomain (getSubjectAlternativeNames : SanReader)
    (getActiveTrustPackage : Except Exn (List MeasurementBoundCertificate)) :
    Except OidcExn Utf16 :=
  Except.mapError notExtracted do
    let bundles ← getActiveTrustPackage.mapError .base
    match bundles with
    | [] => .error (.base (.other (text "Index 0 out of bounds for length 0")))
    | bundle :: _ => TrustDomainExtractor.extract getSubjectAlternativeNames bundle.certificate

end OidcAudienceValidator

/-! ## The encoder -/

structure AwsInstanceMetadata where
  region : Utf16
  accountId : Utf16
  environment : Utf16
  domain : Utf16
  deriving DecidableEq, Repr

namespace PesModule

open JavaUri TrustDomainExtractor OidcAudienceValidator

def constructTrustDomain (env domain : Utf16) : Utf16 :=
  if env = text "prod" then
    let cleanedDomain := if (text "aws.").isPrefixOf domain then domain.drop (text "aws.").length
      else domain
    text "pes." ++ cleanedDomain
  else text "pes." ++ env ++ text "." ++ domain

def spiffePath (operatorRole : Utf16) : Utf16 :=
  text "/operator/pcit.goog/" ++ operatorRole ++
    text "/publisher/google.com/pcit-release-bot/workload/public-endorsement-service"

def spiffeId (metadata : AwsInstanceMetadata) : Utf16 :=
  spiffeScheme ++ constructTrustDomain metadata.environment metadata.domain ++
    spiffePath metadata.accountId

/-- The subject alternative name that `provideMbsCertificateFactory` gives to certificates. -/
def uriSan (metadata : AwsInstanceMetadata) : San :=
  [.integer uniformResourceIdentifier, .string (spiffeId metadata)]

def RoundTrips (metadata : AwsInstanceMetadata) : Prop :=
  ∀ (getSubjectAlternativeNames : SanReader) (bundle : MeasurementBoundCertificate)
    (bundles : List MeasurementBoundCertificate),
    getSubjectAlternativeNames bundle.certificate = .ok (some [uriSan metadata]) →
    extract getSubjectAlternativeNames bundle.certificate =
        .ok (constructTrustDomain metadata.environment metadata.domain) ∧
      resolveTrustDomain getSubjectAlternativeNames (.ok (bundle :: bundles)) =
        .ok (constructTrustDomain metadata.environment metadata.domain)

end PesModule

/-! ## Host names -/

namespace JavaUri

def isHostChar (c : UInt16) : Bool :=
  isAlphanum c || charBetween '-' '-' c || c = Claim.dot

theorem isDomainLabel_isHostChar {label : Utf16} (h : isDomainLabel label = true) :
    ∀ c ∈ label, isAlphanum c = true ∨ charBetween '-' '-' c = true := by
  intro c hc
  simp only [isDomainLabel, Bool.and_eq_true, List.all_eq_true, Bool.or_eq_true] at h
  exact h.1.1 c hc

theorem dot_notMem {label : Utf16} (h : isDomainLabel label = true) : Claim.dot ∉ label := by
  intro hmem
  rcases isDomainLabel_isHostChar h _ hmem with hdot | hdot
  · exact absurd hdot (by decide)
  · exact absurd hdot (by decide)

theorem ne_nil_of_isDomainLabel {label : Utf16} (h : isDomainLabel label = true) : label ≠ [] := by
  rintro rfl
  exact absurd h (by decide)

theorem labelsFromTop_concat {s last : Utf16} {parts : List Utf16}
    (h : s.splitOn Claim.dot = parts ++ [last]) :
    labelsFromTop s = if last = [] then parts.reverse else last :: parts.reverse := by
  unfold labelsFromTop
  rw [h, List.reverse_append]
  cases last with
  | nil => rfl
  | cons c last => rfl

theorem isHostname_of_labels {s top : Utf16} {labels : List Utf16}
    (hfromTop : labelsFromTop s = top :: labels.reverse) (htop : isTopLabel top = true)
    (hlabels : ∀ label ∈ labels, isDomainLabel label = true) : isHostname s = true := by
  simp only [isHostname, hfromTop, htop, Bool.true_and, List.all_eq_true, List.mem_reverse]
  exact hlabels

theorem isDomainLabel_of_isTopLabel {label : Utf16} (h : isTopLabel label = true) :
    isDomainLabel label = true := by
  simp only [isTopLabel, Bool.and_eq_true] at h
  exact h.1

/-- The pieces of a host name are its labels, with an empty one for a dot at the end. -/
theorem IsHostname.splitOn {s : Utf16} (h : IsHostname s) :
    ∃ labels top, (∀ label ∈ labels, isDomainLabel label = true) ∧ isTopLabel top = true ∧
      (s.splitOn Claim.dot = labels ++ [top] ∨ s.splitOn Claim.dot = labels ++ [top] ++ [[]]) := by
  obtain ⟨labels, top, hlabels, htop, hs⟩ := h
  have hnodot : ∀ label ∈ labels ++ [top], Claim.dot ∉ label := by
    intro label hlabel
    rcases List.mem_append.mp hlabel with hmem | hmem
    · exact dot_notMem (hlabels label hmem)
    · rw [List.mem_singleton.mp hmem]
      exact dot_notMem (isDomainLabel_of_isTopLabel htop)
  refine ⟨labels, top, hlabels, htop, ?_⟩
  rcases hs with rfl | rfl
  · left
    exact List.splitOn_intercalate Claim.dot hnodot (by simp)
  · right
    rw [← intercalate_concat_nil Claim.dot (by simp)]
    apply List.splitOn_intercalate Claim.dot ?_ (by simp)
    intro label hlabel
    rcases List.mem_append.mp hlabel with hmem | hmem
    · exact hnodot label hmem
    · simp [List.mem_singleton.mp hmem]

theorem isHostname_iff (s : Utf16) : isHostname s = true ↔ IsHostname s := by
  constructor
  · intro h
    obtain ⟨parts, last, hsplit⟩ : ∃ parts last, s.splitOn Claim.dot = parts ++ [last] := by
      rcases List.eq_nil_or_concat (s.splitOn Claim.dot) with hnil | ⟨parts, last, heq⟩
      · exact absurd hnil (splitOn_ne_nil _ _)
      · exact ⟨parts, last, by rw [heq, List.concat_eq_append]⟩
    have hs : s = [Claim.dot].intercalate (parts ++ [last]) := by
      rw [← hsplit, List.intercalate_splitOn]
    rw [isHostname, labelsFromTop_concat hsplit] at h
    by_cases hlast : last = []
    · rw [if_pos hlast] at h
      cases hparts : parts.reverse with
      | nil => simp [hparts] at h
      | cons top labels =>
        rw [hparts] at h
        simp only [Bool.and_eq_true, List.all_eq_true] at h
        have hdomain : parts = labels.reverse ++ [top] := by
          rw [← List.reverse_reverse parts, hparts, List.reverse_cons]
        refine ⟨labels.reverse, top, by simpa using h.2, h.1, .inr ?_⟩
        rw [hs, hlast, intercalate_concat_nil _ (by simp [hdomain]), hdomain]
    · rw [if_neg hlast] at h
      simp only [Bool.and_eq_true, List.all_eq_true, List.mem_reverse] at h
      exact ⟨parts, last, h.2, h.1, .inl hs⟩
  · intro h
    obtain ⟨labels, top, hlabels, htop, hsplit⟩ := h.splitOn
    apply isHostname_of_labels ?_ htop hlabels
    rcases hsplit with hsplit | hsplit
    · have hne := ne_nil_of_isDomainLabel (isDomainLabel_of_isTopLabel htop)
      rw [labelsFromTop_concat hsplit, if_neg hne]
    · rw [labelsFromTop_concat hsplit, if_pos rfl, List.reverse_append]
      rfl

theorem IsHostname.forall_isHostChar {s : Utf16} (h : IsHostname s) :
    ∀ c ∈ s, isHostChar c = true := by
  obtain ⟨labels, top, hlabels, htop, hsplit⟩ := h.splitOn
  have hparts : ∀ part ∈ s.splitOn Claim.dot, ∀ c ∈ part, isHostChar c = true := by
    intro part hpart c hc
    have hlabel : isDomainLabel part = true := by
      by_cases hmem : part ∈ labels
      · exact hlabels part hmem
      · have htopPart : part = top := by
          rcases hsplit with hsplit | hsplit
          · simpa [hsplit, hmem] using hpart
          · have hne : part ≠ [] := List.ne_nil_of_mem hc
            simpa [hsplit, hmem, hne] using hpart
        rw [htopPart]
        exact isDomainLabel_of_isTopLabel htop
    rcases isDomainLabel_isHostChar hlabel c hc with h | h
    · simp [isHostChar, h]
    · simp [isHostChar, h]
  intro c hc
  by_cases hdot : c = Claim.dot
  · simp [isHostChar, hdot]
  · exact (forall_mem_splitOn Claim.dot _ s).mp hparts c hc hdot

theorem legal_of_forall {allowed : UInt16 → Bool} {s : Utf16}
    (h : ∀ c ∈ s, allowed c = true ∧ c ≠ percent) : legal allowed s = true := by
  fun_induction legal allowed s with
  | case1 => rfl
  | case2 c => simp [h c]
  | case3 c d ih =>
    have hd := ih (fun x hx => h x (List.mem_cons_of_mem c hx))
    simp [h c, hd]
  | case4 d e rest ih => exact absurd rfl (h percent List.mem_cons_self).2
  | case5 c d e rest hpercent ih =>
    have hrest := ih (fun x hx => h x (List.mem_cons_of_mem c hx))
    simp [h c, hrest]

theorem eq_of_charBetween {first : Char} {c u : UInt16} (hu : u.toNat = first.toNat)
    (h : charBetween first first c = true) : c = u := by
  simp only [charBetween, Bool.and_eq_true, decide_eq_true_eq] at h
  apply UInt16.toNat_inj.mp
  omega

/-- The characters of a host name need no escape and end no part of a URI. -/
theorem isHostChar_spec {c : UInt16} (h : isHostChar c = true) :
    isRegName c = true ∧ c ≠ percent ∧ isDelimiter c = false := by
  refine ⟨?_, ?_, ?_⟩
  · simp only [isHostChar, Bool.or_eq_true, decide_eq_true_eq] at h
    rcases h with (hletter | hhyphen) | hdot
    · simp [isRegName, isUnreserved, hletter]
    · rw [eq_of_charBetween (u := 0x2D) rfl hhyphen]
      decide
    · rw [hdot]
      decide
  · rintro rfl
    exact absurd h (by decide)
  · by_contra hdelimiter
    simp only [isDelimiter, Bool.not_eq_false, Bool.or_eq_true, decide_eq_true_eq] at hdelimiter
    rcases hdelimiter with (rfl | rfl) | rfl
    · exact absurd h (by decide)
    · exact absurd h (by decide)
    · exact absurd h (by decide)

end JavaUri

namespace PesModule

open JavaUri TrustDomainExtractor OidcAudienceValidator

theorem constructTrustDomain_pes (env domain : Utf16) :
    (text "pes.").isPrefixOf (constructTrustDomain env domain) = true := by
  unfold constructTrustDomain
  by_cases hprod : env = text "prod"
  · simp [hprod]
  · simp [hprod, List.append_assoc]

theorem isHostname_nil : isHostname [] = false := by decide

theorem newUri_eq_ok_iff {rest : Utf16} {uri : Uri} :
    newUri (spiffeScheme ++ rest) = .ok uri ↔
      rest ≠ [] ∧ legal isRegName uri.authority = true ∧
        legalTail (rest.dropWhile (fun c => !isDelimiter c)) = true ∧
        uri.authority = rest.takeWhile (fun c => !isDelimiter c) := by
  unfold newUri
  rw [List.drop_left]
  dsimp only
  split_ifs with hlegal
  · simp only [Bool.and_eq_true, decide_eq_true_eq] at hlegal
    constructor
    · rintro ⟨⟩
      exact ⟨hlegal.1.1, hlegal.1.2, hlegal.2, rfl⟩
    · rintro ⟨-, -, -, hauthority⟩
      rw [← hauthority]
  · simp only [Bool.and_eq_true, decide_eq_true_eq, not_and] at hlegal
    constructor
    · rintro ⟨⟩
    · rintro ⟨hne, hauthority, htail, heq⟩
      rw [heq] at hauthority
      exact absurd htail (hlegal ⟨hne, hauthority⟩)

/-- A SPIFFE ID yields its authority if that is a host name, and the rest is legal. -/
theorem extract_eq_ok_iff {rest host : Utf16} :
    extractTrustDomainFromSpiffeId (spiffeScheme ++ rest) = .ok host ↔
      newUri (spiffeScheme ++ rest) = .ok ⟨host⟩ ∧ isHostname host = true ∧
        (text "pes.").isPrefixOf host = true := by
  have hscheme : spiffeScheme.isPrefixOf (spiffeScheme ++ rest) = true := by simp
  simp only [extractTrustDomainFromSpiffeId, hscheme, Bool.not_true, Bool.false_eq_true, if_false,
    except_bind_eq_ok]
  constructor
  · rintro ⟨⟨authority⟩, huri, hhost⟩
    by_cases hname : isHostname authority = true
    · simp only [Uri.getHost, hname, if_true] at hhost
      cases authority with
      | nil => simp [isHostname_nil] at hname
      | cons c authority =>
        simp only [extractTrustDomainFromHost] at hhost
        split_ifs at hhost with hpes
        cases hhost
        exact ⟨huri, hname, by simpa using hpes⟩
    · simp [Uri.getHost, hname] at hhost
  · rintro ⟨huri, hname, hpes⟩
    refine ⟨⟨host⟩, huri, ?_⟩
    cases host with
    | nil => simp [isHostname_nil] at hname
    | cons c host => simp [Uri.getHost, hname, extractTrustDomainFromHost, hpes]

/-- A SPIFFE ID is read as its trust domain when that is a host name and the rest of the
text is legal, and never otherwise. -/
theorem extract_spiffeId_iff (metadata : AwsInstanceMetadata) :
    extractTrustDomainFromSpiffeId (spiffeId metadata) =
        .ok (constructTrustDomain metadata.environment metadata.domain) ↔
      IsHostname (constructTrustDomain metadata.environment metadata.domain) ∧
        legalTail (spiffePath metadata.accountId) = true := by
  have hpes := constructTrustDomain_pes metadata.environment metadata.domain
  unfold spiffeId
  generalize constructTrustDomain metadata.environment metadata.domain = trustDomain at *
  rw [List.append_assoc, extract_eq_ok_iff, newUri_eq_ok_iff]
  have hslash : (spiffePath metadata.accountId).head? = some slash := rfl
  have hboundary : ∀ c, (spiffePath metadata.accountId).head? = some c →
      (!isDelimiter c) = false := by
    intro c hc
    rw [hslash] at hc
    cases hc
    decide
  -- Where the authority is the trust domain, the path is what is left.
  have hrest (hauthority : (trustDomain ++ spiffePath metadata.accountId).takeWhile
      (fun c => !isDelimiter c) = trustDomain) :
      (trustDomain ++ spiffePath metadata.accountId).dropWhile (fun c => !isDelimiter c) =
        spiffePath metadata.accountId := by
    have hsplit := List.takeWhile_append_dropWhile (p := fun c => !isDelimiter c)
      (l := trustDomain ++ spiffePath metadata.accountId)
    rw [hauthority] at hsplit
    exact List.append_cancel_left hsplit
  constructor
  · rintro ⟨⟨-, -, htail, hauthority⟩, hhost, -⟩
    rw [hrest hauthority.symm] at htail
    exact ⟨(isHostname_iff _).mp hhost, htail⟩
  · rintro ⟨hhost, htail⟩
    have hchars := hhost.forall_isHostChar
    have hauthority : (trustDomain ++ spiffePath metadata.accountId).takeWhile
        (fun c => !isDelimiter c) = trustDomain := by
      apply Regex.takeWhile_append_boundary ?_ hboundary
      intro c hc
      rw [(isHostChar_spec (hchars c hc)).2.2]
      rfl
    rw [hrest hauthority]
    have hne : trustDomain ++ spiffePath metadata.accountId ≠ [] := by
      intro hnil
      rw [(List.append_eq_nil_iff.mp hnil).2] at hslash
      cases hslash
    refine ⟨⟨hne, legal_of_forall ?_, htail, hauthority.symm⟩, (isHostname_iff _).mpr hhost, hpes⟩
    intro c hc
    have hspec := isHostChar_spec (hchars c hc)
    exact ⟨hspec.1, hspec.2.1⟩

/-- The certificate gives away what its only name holds. -/
theorem extract_of_uriSan {getSubjectAlternativeNames : SanReader} {certificate : X509Certificate}
    {metadata : AwsInstanceMetadata}
    (h : getSubjectAlternativeNames certificate = .ok (some [uriSan metadata])) :
    extract getSubjectAlternativeNames certificate =
      extractTrustDomainFromSpiffeId (spiffeId metadata) := by
  simp [extract, h, bind, Except.bind, isUriSan, uriSan, tryParseTrustDomain]

theorem RoundTrips.extract_spiffeId {metadata : AwsInstanceMetadata} (h : RoundTrips metadata) :
    extractTrustDomainFromSpiffeId (spiffeId metadata) =
      .ok (constructTrustDomain metadata.environment metadata.domain) := by
  let reader : SanReader := fun _ => .ok (some [uriSan metadata])
  let bundle : MeasurementBoundCertificate := ⟨⟨none, ⟨"", []⟩, "", 0⟩, ⟨"", []⟩, ⟨[]⟩⟩
  have hsan : reader bundle.certificate = .ok (some [uriSan metadata]) := rfl
  rw [← extract_of_uriSan hsan]
  exact (h reader bundle [] hsan).1

/-- The trust domain is read back exactly when it is a host name and the account id leaves
the SPIFFE ID a legal URI. -/
theorem roundTrips_iff (metadata : AwsInstanceMetadata) :
    RoundTrips metadata ↔
      IsHostname (constructTrustDomain metadata.environment metadata.domain) ∧
        legalTail (spiffePath metadata.accountId) = true := by
  rw [← extract_spiffeId_iff]
  constructor
  · intro h
    exact h.extract_spiffeId
  · intro h reader bundle bundles hsan
    have hextract := extract_of_uriSan hsan
    rw [h] at hextract
    refine ⟨hextract, ?_⟩
    simp [resolveTrustDomain, bind, Except.bind, Except.mapError, hextract]

def isPlainPathChar (c : UInt16) : Bool :=
  isPathChar c && c ≠ percent && c ≠ questionMark && c ≠ numberSign

/-- An account id of letters and digits is legal. -/
theorem legalTail_spiffePath {accountId : Utf16} (h : ∀ c ∈ accountId, isAlphanum c = true) :
    legalTail (spiffePath accountId) = true := by
  have hfixed : (text "/operator/pcit.goog/" ++ text ("/publisher/google.com/pcit-release-bot" ++
      "/workload/public-endorsement-service")).all isPlainPathChar = true := by
    decide +kernel
  have hletter {c : UInt16} (hc : isAlphanum c = true) : isPlainPathChar c = true := by
    have hpercent : c ≠ percent := by rintro rfl; exact absurd hc (by decide)
    have hquestion : c ≠ questionMark := by rintro rfl; exact absurd hc (by decide)
    have hnumber : c ≠ numberSign := by rintro rfl; exact absurd hc (by decide)
    simp [isPlainPathChar, isPathChar, isUnreserved, hc, hpercent, hquestion, hnumber]
  have hchars : ∀ c ∈ spiffePath accountId, isPathChar c = true ∧ c ≠ percent ∧
      (c ≠ questionMark && c ≠ numberSign) = true := by
    intro c hc
    have hplain : isPlainPathChar c = true := by
      by_cases haccount : c ∈ accountId
      · exact hletter (h c haccount)
      · apply List.all_eq_true.mp hfixed c
        simpa [spiffePath, haccount] using hc
    simpa [isPlainPathChar, and_assoc] using hplain
  have hlegal : legal isPathChar (spiffePath accountId) = true :=
    legal_of_forall fun c hc => ⟨(hchars c hc).1, (hchars c hc).2.1⟩
  have htake := List.takeWhile_eq_self_iff.mpr fun c hc => (hchars c hc).2.2
  have hdrop := List.dropWhile_eq_nil_iff.mpr fun c hc => (hchars c hc).2.2
  unfold legalTail
  rw [htake, hdrop]
  dsimp only
  rw [hlegal]
  rfl

/-- An underscore is not part of a host name. -/
def underscoreMetadata : AwsInstanceMetadata where
  region := text "us-east-1"
  accountId := text "123456789012"
  environment := text "my_env"
  domain := text "example.com"

theorem underscore_not_extracted :
    extractTrustDomainFromSpiffeId (spiffeId underscoreMetadata) =
      .error (.base (.illegalArgument (text ("SPIFFE ID URI does not contain a valid" ++
        " host/trust domain. Actual SPIFFE ID: '") ++ spiffeId underscoreMetadata ++ text "'"))) ∧
    ¬ RoundTrips underscoreMetadata := by
  have hthrown : extractTrustDomainFromSpiffeId (spiffeId underscoreMetadata) =
      .error (.base (.illegalArgument (text ("SPIFFE ID URI does not contain a valid" ++
        " host/trust domain. Actual SPIFFE ID: '") ++ spiffeId underscoreMetadata ++
        text "'"))) := by
    decide +kernel
  refine ⟨hthrown, ?_⟩
  intro hround
  have hback := hround.extract_spiffeId
  rw [hthrown] at hback
  cases hback

end PesModule
end PublicEndorsement.Pes
