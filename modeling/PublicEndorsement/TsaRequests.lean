import PublicEndorsement.TsaClient

/-!
# What is asked of a timestamping authority, and what is kept

* A request goes to an address of a configuration that was read less than five minutes ago, that
  is enabled and whose addresses have passed their checks.
* A token that ends up in the answer of the service is one that the verifier accepts, for the
  very signature that it is attached to, at any later time.
-/

namespace PublicEndorsement.Pes.Tsa

open Mbs

variable {Token Holder : Type} (ex : Exchange Token)

/-! ## The configuration -/

namespace S3TsaConfigProvider

/-- After an exception the configuration is the disabled one, if there is one. -/
theorem reportConfig_outcome (e : ClientException) :
    (reportConfig ex e).outcome = .ok .disabled ∨
      ∃ e', (reportConfig ex e).outcome = .error e' := by
  cases e with
  | sdk e =>
    left
    simp only [reportConfig]
    split_ifs <;> rfl
  | tsa message causes => exact .inl rfl
  | io message => exact .inl rfl
  | illegalArgument message => exact .inl rfl
  | interrupted message => exact .inr ⟨_, rfl⟩
  | illegalState message => exact .inr ⟨_, rfl⟩
  | other e => exact .inr ⟨_, rfl⟩

/-- An enabled configuration is one that was read. -/
theorem readConfig_of_enabled {config : TsaConfig} (h : (fetchConfig ex).outcome = .ok config)
    (henabled : config.enabled = true) : readConfig ex = .ok config := by
  unfold fetchConfig at h
  cases hread : readConfig ex with
  | ok read =>
    rw [hread, Traced.tryCatch_of_ok rfl] at h
    exact h
  | error e =>
    rw [hread, Traced.tryCatch_of_error rfl] at h
    rcases reportConfig_outcome ex e with hdisabled | ⟨e', herror⟩
    · obtain rfl : TsaConfig.disabled = config := Except.ok.inj (hdisabled.symm.trans h)
      cases henabled
    · cases herror.symm.trans h

theorem parseAndValidateUri_spec {urlStr : Option String} {uri : Uri}
    (h : parseAndValidateUri ex urlStr = .ok uri) :
    (∃ s, urlStr = some s ∧ ex.parseUri s = .ok uri) ∧ uri.isHttp = true ∧ uri.hasHost = true := by
  cases urlStr with
  | none => cases h
  | some s =>
    simp only [parseAndValidateUri] at h
    cases hparse : ex.parseUri s with
    | error e =>
      rw [hparse] at h
      cases h
    | ok uri' =>
      simp only [hparse] at h
      split_ifs at h with hbad
      cases h
      simp only [Bool.or_eq_true, Bool.not_eq_true', not_or, Bool.not_eq_false] at hbad
      exact ⟨⟨s, rfl, hparse⟩, hbad.2, hbad.1.2⟩

theorem toConfig_spec {dto : TsaConfigDto} {config : TsaConfig} (h : toConfig ex dto = .ok config) :
    config.enabled = dto.enabled ∧ ∀ uri ∈ config.tsaUrls, ∃ s,
      some s ∈ dto.tsaUrls.getD [] ∧ ex.parseUri s = .ok uri ∧ uri.isHttp = true ∧
        uri.hasHost = true := by
  obtain ⟨uris, huris, hconfig⟩ := except_bind_eq_ok.mp h
  split_ifs at hconfig
  cases hconfig
  refine ⟨rfl, fun uri huri => ?_⟩
  have hall := except_mapM_eq_ok.mp huris
  obtain ⟨i, hi, rfl⟩ := List.getElem_of_mem huri
  have hi' : i < (dto.tsaUrls.getD []).length := hall.length_eq ▸ hi
  obtain ⟨⟨s, hs, hparse⟩, hvalid⟩ := parseAndValidateUri_spec ex (hall.get hi' hi)
  exact ⟨s, hs ▸ List.getElem_mem hi', hparse, hvalid⟩

/-- The object can be opened, read and closed. It enables timestamps and lists the address. -/
def Lists (uri : Uri) : Prop :=
  ex.s3.getObject = .ok () ∧ ex.s3.close = .ok () ∧ ∃ dto s, ex.s3.readValue = .ok (some dto) ∧
    dto.enabled = true ∧ some s ∈ dto.tsaUrls.getD [] ∧ ex.parseUri s = .ok uri

theorem lists_of_readConfig {config : TsaConfig} (h : readConfig ex = .ok config)
    (henabled : config.enabled = true) {uri : Uri} (huri : uri ∈ config.tsaUrls) :
    Lists ex uri ∧ uri.isHttp = true ∧ uri.hasHost = true := by
  obtain ⟨_, hopened, h⟩ := except_bind_eq_ok.mp h
  cases hobject : readObject ex with
  | error e =>
    rw [hobject] at h
    cases h
  | ok read =>
    rw [hobject] at h
    obtain ⟨_, hclosed, hread⟩ := except_bind_eq_ok.mp h
    cases hread
    obtain ⟨dto, hdto, hconfig⟩ := except_bind_eq_ok.mp hobject
    cases dto with
    | none =>
      cases hconfig
      cases henabled
    | some dto =>
      obtain ⟨hsame, hall⟩ := toConfig_spec ex hconfig
      obtain ⟨s, hs, hparse, hvalid⟩ := hall uri huri
      exact ⟨⟨hopened, hclosed, dto, s, hdto, hsame ▸ henabled, hs, hparse⟩, hvalid⟩

/-- What a request leaves of the memoised configuration; empty data is refused before the
configuration is asked for. -/
def afterRequest (memo : Option Memo) (r : Exchange Token × Bytes) : Option Memo :=
  if r.2 = [] then memo else memoAfter r.1 memo

/-- After the earlier requests there is no configuration that the request could use, so it fetches
one itself. -/
def Fetches (earlier : List (Exchange Token × Bytes)) (r : Exchange Token × Bytes) : Prop :=
  r.2 ≠ [] ∧ live r.1 (earlier.foldl afterRequest none) = none

def FetchedBy (requests : List (Exchange Token × Bytes)) (config : TsaConfig) (expires : ℤ) :
    Prop :=
  ∃ earlier fetch later, requests = earlier ++ fetch :: later ∧ Fetches earlier fetch ∧
    (fetchConfig fetch.1).outcome = .ok config ∧ expires = fetch.1.nanoTime + cacheTtl

theorem FetchedBy.snoc {requests : List (Exchange Token × Bytes)} {config : TsaConfig}
    {expires : ℤ} (h : FetchedBy requests config expires) (r : Exchange Token × Bytes) :
    FetchedBy (requests ++ [r]) config expires := by
  obtain ⟨earlier, fetch, later, rfl, hfetch⟩ := h
  exact ⟨earlier, fetch, later ++ [r], by simp, hfetch⟩

theorem fetchedBy_foldl (requests : List (Exchange Token × Bytes)) (m : Memo)
    (h : requests.foldl afterRequest none = some m) : FetchedBy requests m.value m.expires := by
  induction requests using List.reverseRecOn with
  | nil => cases h
  | append_singleton requests r ih =>
    rw [List.foldl_append, List.foldl_cons, List.foldl_nil, afterRequest] at h
    split_ifs at h with hempty
    · exact (ih h).snoc r
    unfold memoAfter at h
    cases hlive : live r.1 (requests.foldl afterRequest none) with
    | some config =>
      rw [hlive] at h
      exact (ih h).snoc r
    | none =>
      rw [hlive] at h
      cases hfetch : (fetchConfig r.1).outcome with
      | error e =>
        rw [hfetch] at h
        exact (ih h).snoc r
      | ok config =>
        rw [hfetch] at h
        cases h
        exact ⟨requests, r, [], rfl, ⟨hempty, hlive⟩, hfetch, rfl⟩

/-- The configuration that a request gets was fetched less than five minutes before. -/
theorem fetchedBy_getConfig {requests : List (Exchange Token × Bytes)}
    {r : Exchange Token × Bytes} (hdata : r.2 ≠ []) {config : TsaConfig}
    (hconfig : (getConfig r.1 (requests.foldl afterRequest none)).outcome = .ok config) :
    ∃ expires, FetchedBy (requests ++ [r]) config expires ∧ r.1.nanoTime < expires := by
  unfold getConfig at hconfig
  cases hlive : live r.1 (requests.foldl afterRequest none) with
  | some value =>
    rw [hlive] at hconfig
    cases hconfig
    obtain ⟨m, hm, rfl⟩ := Option.map_eq_some_iff.mp hlive
    obtain ⟨hmemo, hfresh⟩ := Option.filter_eq_some_iff.mp hm
    exact ⟨m.expires, (fetchedBy_foldl requests m hmemo).snoc r, of_decide_eq_true hfresh⟩
  | none =>
    rw [hlive] at hconfig
    refine ⟨_, ⟨requests, r, [], rfl, ⟨hdata, hlive⟩, hconfig, rfl⟩, ?_⟩
    have hpos : 0 < cacheTtl := by decide
    omega

end S3TsaConfigProvider

/-! ## What is sent -/

def ClientEvent.sent? : ClientEvent → Option (Uri × Bytes)
  | .sent uri requestBytes => some (uri, requestBytes)
  | .warning _ _ => none

section Sends

variable {α β : Type} {P : Uri × Bytes → Prop}

def Silent (x : Traced ClientEvent ClientException α) : Prop :=
  x.trace.filterMap ClientEvent.sent? = []

/-- At most one request is sent, and it is as described. -/
def Sends (P : Uri × Bytes → Prop) (x : Traced ClientEvent ClientException α) : Prop :=
  Silent x ∨ ∃ request, x.trace.filterMap ClientEvent.sent? = [request] ∧ P request

theorem Silent.bind {x : Traced ClientEvent ClientException α}
    {f : α → Traced ClientEvent ClientException β} (hx : Silent x)
    (hf : ∀ a, x.outcome = .ok a → Silent (f a)) : Silent (x >>= f) := by
  unfold Silent at *
  cases hout : x.outcome with
  | ok a => rw [Traced.bind_of_ok hout, List.filterMap_append, hx, hf a hout, List.append_nil]
  | error e => rw [Traced.bind_of_error hout, hx]

theorem Sends.after_silent {x : Traced ClientEvent ClientException α}
    {f : α → Traced ClientEvent ClientException β} (hx : Silent x)
    (hf : ∀ a, x.outcome = .ok a → Sends P (f a)) : Sends P (x >>= f) := by
  cases hout : x.outcome with
  | ok a =>
    unfold Sends Silent at *
    rw [Traced.bind_of_ok hout, List.filterMap_append, hx, List.nil_append]
    exact hf a hout
  | error e =>
    left
    unfold Silent at *
    rw [Traced.bind_of_error hout, hx]

theorem Sends.before_silent {x : Traced ClientEvent ClientException α}
    {f : α → Traced ClientEvent ClientException β} (hx : Sends P x) (hf : ∀ a, Silent (f a)) :
    Sends P (x >>= f) := by
  cases hout : x.outcome with
  | ok a =>
    unfold Sends Silent at *
    rw [Traced.bind_of_ok hout, List.filterMap_append, hf a, List.append_nil]
    exact hx
  | error e =>
    unfold Sends Silent at *
    rw [Traced.bind_of_error hout]
    exact hx

theorem Sends.tryCatch {x : Traced ClientEvent ClientException α}
    {handle : ClientException → Traced ClientEvent ClientException α} (hx : Sends P x)
    (hhandle : ∀ e, Silent (handle e)) : Sends P (MonadExcept.tryCatch x handle) := by
  cases hout : x.outcome with
  | ok a =>
    rw [Traced.tryCatch_of_ok hout]
    exact hx
  | error e =>
    unfold Sends Silent at *
    rw [Traced.tryCatch_of_error hout, List.filterMap_append, hhandle e, List.append_nil]
    exact hx

end Sends

theorem S3TsaConfigProvider.silent_reportConfig (e : ClientException) :
    Silent (reportConfig ex e) := by
  cases e with
  | sdk e =>
    simp only [reportConfig]
    split_ifs <;> rfl
  | _ => rfl

theorem S3TsaConfigProvider.silent_getConfig (memo : Option Memo) : Silent (getConfig ex memo) := by
  unfold getConfig
  cases live ex memo with
  | some config => rfl
  | none =>
    unfold Silent fetchConfig
    cases readConfig ex with
    | ok config => rfl
    | error e =>
      rw [Traced.tryCatch_of_error rfl]
      exact silent_reportConfig ex e

namespace RandomTsaUrlSelector

/-- The address is one of an enabled configuration. -/
theorem selectUrl_some {memo : Option S3TsaConfigProvider.Memo} {uri : Uri}
    (h : (selectUrl ex memo).outcome = .ok (some uri)) :
    ∃ config, (S3TsaConfigProvider.getConfig ex memo).outcome = .ok config ∧
      config.enabled = true ∧ uri ∈ config.tsaUrls := by
  obtain ⟨config, hconfig, h⟩ := Traced.bind_outcome_eq_ok.mp h
  refine ⟨config, hconfig, ?_⟩
  cases henabled : config.enabled with
  | false =>
    rw [henabled] at h
    cases h
  | true =>
    rw [henabled] at h
    refine ⟨rfl, ?_⟩
    cases huris : config.tsaUrls with
    | nil =>
      rw [huris] at h
      cases h
    | cons first rest =>
      simp only [huris, Bool.not_true, Bool.false_eq_true, if_false] at h
      split_ifs at h
      · cases h
        exact List.mem_cons_self
      · cases h
        exact List.get_mem _ _

theorem silent_selectUrl (memo : Option S3TsaConfigProvider.Memo) : Silent (selectUrl ex memo) := by
  refine (S3TsaConfigProvider.silent_getConfig ex memo).bind fun config _ => ?_
  split_ifs
  · rfl
  · split
    · rfl
    · split_ifs <;> rfl

end RandomTsaUrlSelector

namespace SimpleTsaClient

variable (lib : Library Token Holder) (v : TsaTimestampVerifierImpl)

theorem sends_sendHttpRequest (tsaUri : Uri) (requestBytes : Bytes) :
    Sends (· = (tsaUri, requestBytes)) (sendHttpRequest ex tsaUri requestBytes) := by
  unfold sendHttpRequest
  cases ex.newRequest tsaUri with
  | error message => exact .inl rfl
  | ok u =>
    refine Sends.before_silent (.inr ⟨_, rfl, rfl⟩) fun _ => ?_
    refine Silent.bind rfl fun response _ => Silent.bind rfl fun bytes _ => ?_
    split_ifs <;> rfl

def Asks (data : Bytes) (requestBytes : Bytes) : Prop :=
  ∃ digest, lib.messageDigest "SHA-384" = some digest ∧
    ex.encode (createTimestampRequest idSha384 (digest data) ex.nonce) = .ok requestBytes

theorem sends_requestTimeStampToken (memo : Option S3TsaConfigProvider.Memo) (data : Bytes) :
    Sends (fun request => data ≠ [] ∧
        (RandomTsaUrlSelector.selectUrl ex memo).outcome = .ok (some request.1) ∧
        Asks ex lib data request.2)
      (requestTimeStampToken ex lib v memo data) := by
  unfold requestTimeStampToken
  split_ifs with hdata
  · exact .inl rfl
  refine Sends.after_silent (RandomTsaUrlSelector.silent_selectUrl ex memo) fun uri huri => ?_
  cases uri with
  | none => exact .inl rfl
  | some tsaUri =>
    dsimp only
    split_ifs
    · exact .inl rfl
    cases hdigest : lib.messageDigest "SHA-384" with
    | none => exact .inl rfl
    | some digest =>
      refine Sends.tryCatch (Sends.before_silent ?_ fun _ => rfl) fun _ => rfl
      refine Sends.after_silent rfl fun requestBytes hbytes => ?_
      refine Sends.before_silent ?_ fun _ => rfl
      rcases sends_sendHttpRequest ex tsaUri requestBytes with hsilent | ⟨request, hsent, rfl⟩
      · exact .inl hsilent
      · exact .inr ⟨_, hsent, hdata, huri, digest, hdigest, except_mapError_eq_ok.mp hbytes⟩

end SimpleTsaClient

/-- In every sequence of requests for tokens, a request is sent at most once and goes to an
address that is listed in an enabled configuration, which this request or an earlier one has read
less than five minutes ago and has passed all checks; and it asks for a timestamp of the SHA-384
digest of the data. Whatever fails, the caller gets a token or none. -/
theorem requests_follow_configuration (lib : Library Token Holder) (v : TsaTimestampVerifierImpl)
    (before : List (Exchange Token × Bytes)) (r : Exchange Token × Bytes) :
    (∃ token, (tokenOrNone r.1 lib v (before.foldl S3TsaConfigProvider.afterRequest none)
      r.2).outcome = .ok token) ∧
    Sends (fun request => SimpleTsaClient.Asks r.1 lib r.2 request.2 ∧ request.1.isHttp = true ∧
        request.1.hasHost = true ∧
        ∃ earlier fetch later, before ++ [r] = earlier ++ fetch :: later ∧
          S3TsaConfigProvider.Fetches earlier fetch ∧
          S3TsaConfigProvider.Lists fetch.1 request.1 ∧
          r.1.nanoTime < fetch.1.nanoTime + S3TsaConfigProvider.cacheTtl)
      (tokenOrNone r.1 lib v (before.foldl S3TsaConfigProvider.afterRequest none) r.2) := by
  constructor
  · unfold tokenOrNone
    cases hout : (SimpleTsaClient.requestTimeStampToken r.1 lib v
        (before.foldl S3TsaConfigProvider.afterRequest none) r.2).outcome with
    | ok token => exact ⟨token, by rw [Traced.tryCatch_of_ok hout, hout]⟩
    | error e => exact ⟨none, by rw [Traced.tryCatch_of_error hout]; rfl⟩
  · refine Sends.tryCatch ?_ fun _ => rfl
    rcases SimpleTsaClient.sends_requestTimeStampToken r.1 lib v
      (before.foldl S3TsaConfigProvider.afterRequest none) r.2 with hsilent |
      ⟨request, hsent, hdata, hselected, hasks⟩
    · exact .inl hsilent
    obtain ⟨config, hconfig, henabled, hmem⟩ := RandomTsaUrlSelector.selectUrl_some r.1 hselected
    obtain ⟨_, ⟨earlier, fetch, later, hrequests, hfetches, hfetched, rfl⟩, hfresh⟩ :=
      S3TsaConfigProvider.fetchedBy_getConfig hdata hconfig
    obtain ⟨hlists, hhttp, hhost⟩ := S3TsaConfigProvider.lists_of_readConfig fetch.1
      (S3TsaConfigProvider.readConfig_of_enabled fetch.1 hfetched henabled) henabled hmem
    exact .inr ⟨request, hsent, hasks, hhttp, hhost, earlier, fetch, later, hrequests, hfetches,
      hlists, hfresh⟩

end PublicEndorsement.Pes.Tsa
