import PublicEndorsement.GuardedSystem

/-!
# The cache of the OIDC signing keys

`OidcJwksKeyFetcher` keeps the key set of the issuer for as long as the issuer allows. A
key id that it does not know makes it fetch the set again, once the cached one is older
than a minute. What a fetch delivers is up to the issuer. Times are in milliseconds.
-/

namespace PublicEndorsement.Pes.Oidc

def minRefreshInterval : ℕ := 60000

/-- A key set that a fetch has delivered, and for how many seconds it may be kept. -/
structure Jwks (Key : Type) where
  keys : List (String × Key)
  maxAgeSecs : ℕ

structure JwksData (Key : Type) where
  keys : List (String × Key)
  maxAgeSecs : ℕ
  fetchedAt : ℕ

structure CacheEntry (Key : Type) where
  data : JwksData Key
  created : ℕ

variable {Key : Type}

/-- `JwksExpiry` lets a value expire when its age has reached what the issuer allows, and
neither an update nor a read changes that. -/
def CacheEntry.isExpired (now : ℕ) (e : CacheEntry Key) : Bool :=
  decide (e.created + e.data.maxAgeSecs * 1000 ≤ now)

def present (now : ℕ) (entry : Option (CacheEntry Key)) : Option (JwksData Key) :=
  (entry.filter (fun e => !e.isExpired now)).map CacheEntry.data

def Jwks.toData (now : ℕ) (jwks : Jwks Key) : JwksData Key := ⟨jwks.keys, jwks.maxAgeSecs, now⟩

def shouldAttemptRefresh (now : ℕ) (data : JwksData Key) : Bool :=
  decide (data.fetchedAt + minRefreshInterval < now)

/-! ## One call at a time -/

inductive CallResult (Key : Type) where
  | returned (key : Option Key)
  | thrown

/-- A call and the outcomes of the fetches it may come to make, none if the fetch fails. -/
structure KeyCall (Key : Type) where
  time : ℕ
  keyId : String
  firstFetch : Option (Jwks Key)
  secondFetch : Option (Jwks Key)

structure Got (Key : Type) where
  data : Option (JwksData Key)
  entry : Option (CacheEntry Key)
  delivered : Option (JwksData Key)

def cacheGet (now : ℕ) (fetch : Option (Jwks Key)) (entry : Option (CacheEntry Key)) : Got Key :=
  match present now entry with
  | some data => ⟨some data, entry, none⟩
  | none =>
    match fetch with
    | none => ⟨none, none, none⟩
    | some jwks => ⟨some (jwks.toData now), some ⟨jwks.toData now, now⟩, some (jwks.toData now)⟩

/-- What a call leaves behind; `delivered` is what its last successful fetch has stored. -/
structure Served (Key : Type) where
  result : CallResult Key
  entry : Option (CacheEntry Key)
  delivered : Option (JwksData Key)

def getKey (call : KeyCall Key) (entry : Option (CacheEntry Key)) : Served Key :=
  let got := cacheGet call.time call.firstFetch entry
  match got.data with
  | none => ⟨.thrown, got.entry, got.delivered⟩
  | some data =>
    match data.keys.lookup call.keyId with
    | some key => ⟨.returned (some key), got.entry, got.delivered⟩
    | none =>
      if shouldAttemptRefresh call.time data then
        -- The entry is invalidated before anything is known about the fetch.
        let gotAgain := cacheGet call.time call.secondFetch none
        let delivered := gotAgain.delivered.or got.delivered
        match gotAgain.data with
        | none => ⟨.thrown, gotAgain.entry, delivered⟩
        | some data => ⟨.returned (data.keys.lookup call.keyId), gotAgain.entry, delivered⟩
      else ⟨.returned none, got.entry, got.delivered⟩

/-! ## Calls that interleave -/

/-- Where a call stands. `again` tells the second `get` from the first. -/
inductive CallPhase (Key : Type) where
  | get (again : Bool)
  | loading (again : Bool)
  | check (data : JwksData Key)
  | invalidate (data : JwksData Key)
  | done (result : CallResult Key)

def afterGet (keyId : String) (again : Bool) (data : JwksData Key) : CallPhase Key :=
  match data.keys.lookup keyId, again with
  | some key, _ => .done (.returned (some key))
  | none, false => .check data
  | none, true => .done (.returned none)

inductive FetchEvent where
  | started (time : ℕ)
  | completed (time : ℕ)
  | failed (time : ℕ)
  deriving DecidableEq, Repr

/-- The fetcher with the calls that are under way. While one of them loads, no other may
touch the cache. -/
structure Fetcher (ι Key : Type) where
  now : ℕ
  entry : Option (CacheEntry Key)
  loading : Option ι
  phase : ι → CallPhase Key
  history : List FetchEvent

inductive FetcherAction (ι Key : Type) where
  | tick (duration : ℕ)
  | get (c : ι)
  | loaded (fetch : Option (Jwks Key))
  | check (c : ι)
  | invalidate (c : ι)

namespace Fetcher

variable {ι : Type} [DecidableEq ι] (keyIds : ι → String)

def create (now : ℕ) : Fetcher ι Key := ⟨now, none, none, fun _ => .get false, []⟩

def setPhase (c : ι) (p : CallPhase Key) (s : Fetcher ι Key) : Fetcher ι Key :=
  { s with phase := Function.update s.phase c p }

def resume (c : ι) (again : Bool) (data : JwksData Key) (s : Fetcher ι Key) : Fetcher ι Key :=
  s.setPhase c (afterGet (keyIds c) again data)

def enabled (s : Fetcher ι Key) : FetcherAction ι Key → Bool
  | .tick _ => true
  | .get c => s.loading.isNone && (match s.phase c with | .get _ => true | _ => false)
  | .loaded _ => s.loading.any (fun c => match s.phase c with | .loading _ => true | _ => false)
  | .check c => match s.phase c with | .check _ => true | _ => false
  | .invalidate c =>
    s.loading.isNone && (match s.phase c with | .invalidate _ => true | _ => false)

def step (s : Fetcher ι Key) : FetcherAction ι Key → Option (Fetcher ι Key)
  | .tick duration => some { s with now := s.now + duration }
  | .get c =>
    match s.phase c with
    | .get again =>
      match present s.now s.entry with
      | some data => some (s.resume keyIds c again data)
      | none => some (setPhase c (.loading again)
          { s with
            entry := none
            loading := some c
            history := s.history ++ [.started s.now] })
    | _ => none
  | .loaded fetch => do
    let c ← s.loading
    match s.phase c with
    | .loading again =>
      match fetch with
      | none => some (setPhase c (.done .thrown)
          { s with loading := none, history := s.history ++ [.failed s.now] })
      | some jwks =>
        let data := jwks.toData s.now
        some (resume keyIds c again data
          { s with
            entry := some ⟨data, s.now⟩
            loading := none
            history := s.history ++ [.completed s.now] })
    | _ => none
  | .check c =>
    match s.phase c with
    | .check data =>
      if shouldAttemptRefresh s.now data then some (s.setPhase c (.invalidate data))
      else some (s.setPhase c (.done (.returned none)))
    | _ => none
  | .invalidate c =>
    match s.phase c with
    -- Whatever is in the cache by now is removed.
    | .invalidate _ => some (setPhase c (.get true) { s with entry := none })
    | _ => none

def system : GuardedSystem (Fetcher ι Key) (FetcherAction ι Key) where
  enabled := enabled
  step := step keyIds

end Fetcher
end PublicEndorsement.Pes.Oidc
