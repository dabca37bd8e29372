import Mathlib.Data.List.Induction
import Keycast.Lib.Run

/-!
# `Cluster/TokenCache.lean` — how long a cached IAM token is served

`GcpTokenProvider::get_token` of `valkey_auth.rs`. A token is cached with the instant at which it
expires and is served until five minutes before. The provider declares the expiry as a date. The
remaining lifetime is the difference to the clock; where that is negative, an hour is assumed.

Dates and instants are nanoseconds on one axis. The conversion reads the calendar and the monotonic
clock one right after the other, and here they are one reading.
-/

set_option autoImplicit false

namespace Keycast.Cluster

open Lib

/-! ## The provider -/

/-- A token as the provider answers it. -/
structure ProviderToken where
  text : String
  expiresAt : Int
  deriving DecidableEq, Repr

def nanos (seconds : Nat) : Nat := seconds * 1000000000

/-- `TOKEN_REFRESH_BUFFER_SECS`. -/
def tokenRefreshBufferSecs : Nat := 300

/-- `TOKEN_FETCH_MAX_RETRIES`. -/
def tokenFetchMaxRetries : Nat := 3

/-- The loop of the attempts, with the error of the last one. -/
def fetchToken (answer : Nat → Except String ProviderToken) (attempt : Nat)
    (lastError : Option String) :
    Nat → Except String ProviderToken
  | 0 =>
    .error ("Failed to get GCP token after " ++ toString tokenFetchMaxRetries ++ " attempts: " ++
      lastError.getD "")
  | attempts + 1 =>
    match answer attempt with
    | .ok token => .ok token
    | .error e => fetchToken answer (attempt + 1) (some e) attempts

/-! ## The cache -/

structure CachedToken where
  token : String
  expiresAt : Nat
  deriving DecidableEq, Repr

/-- `Instant::checked_sub`. -/
def checkedSub (t d : Nat) : Option Nat := if d ≤ t then some (t - d) else none

def CachedToken.isExpired (t : CachedToken) (now : Nat) : Bool :=
  (checkedSub t.expiresAt (nanos tokenRefreshBufferSecs)).all fun limit => decide (limit ≤ now)

/-- A call: when it looks at the cache, when it looks again with the lock, what the provider answers
to each attempt, and when the answer is converted. -/
structure TokenCall where
  asked : Nat
  rechecked : Nat
  answer : Nat → Except String ProviderToken
  fetched : Nat

/-- The expiry date as a duration from now: an hour if it has passed. -/
def durationUntilExpiry (expiresAt : Int) (now : Nat) : Nat :=
  if now ≤ expiresAt then (expiresAt - now).toNat else nanos 3600

/-- What is cached of an answer. -/
def cachedFrom (p : ProviderToken) (fetched : Nat) : CachedToken :=
  ⟨p.text, fetched + durationUntilExpiry p.expiresAt fetched⟩

/-- The token in the cache, if the call finds it valid, and when it looked. -/
def servedFromCache (cache : Option CachedToken) (c : TokenCall) : Option (CachedToken × Nat) :=
  match cache with
  | none => none
  | some t =>
    if !t.isExpired c.asked then some (t, c.asked)
    else if !t.isExpired c.rechecked then some (t, c.rechecked)
    else none

/-- `get_token`. -/
def getToken (cache : Option CachedToken) (c : TokenCall) :
    Except String String × Option CachedToken :=
  match servedFromCache cache c with
  | some (t, _) => (.ok t.token, cache)
  | none =>
    match fetchToken c.answer 0 none tokenFetchMaxRetries with
    | .error e => (.error e, cache)
    | .ok p => (.ok p.text, some (cachedFrom p c.fetched))

def tokenStep (cache : Option CachedToken) (c : TokenCall) : Option CachedToken :=
  (getToken cache c).2

/-! ## Where the cached token comes from -/

section TokenCache

variable {cache : Option CachedToken} {c : TokenCall} {calls : List TokenCall}
  {t : CachedToken} {now : Nat}

/-- What is served is in the cache, and its limit has not come. -/
theorem served_eq (h : servedFromCache cache c = some (t, now)) :
    cache = some t ∧ now + nanos tokenRefreshBufferSecs < t.expiresAt := by
  have hvalid : ∀ {now : Nat}, t.isExpired now = false →
    now + nanos tokenRefreshBufferSecs < t.expiresAt := by
    intro now hfresh
    unfold CachedToken.isExpired checkedSub at hfresh
    split at hfresh
    · rw [Option.all_some, decide_eq_false_iff_not] at hfresh
      omega
    · cases hfresh
  unfold servedFromCache at h
  split at h
  · cases h
  split at h
  · next hfresh =>
    cases h
    exact ⟨rfl, hvalid (by simpa using hfresh)⟩
  split at h
  · next hfresh =>
    cases h
    exact ⟨rfl, hvalid (by simpa using hfresh)⟩
  · cases h

/-- The answer that a call puts into the cache. -/
def Stores (cache : Option CachedToken) (c : TokenCall) (p : ProviderToken) : Prop :=
  servedFromCache cache c = none ∧ fetchToken c.answer 0 none tokenFetchMaxRetries = .ok p

theorem tokenStep_cases (cache : Option CachedToken) (c : TokenCall) :
    tokenStep cache c = cache ∨ ∃ p, Stores cache c p ∧
      tokenStep cache c = some (cachedFrom p c.fetched) := by
  unfold tokenStep getToken
  cases hserved : servedFromCache cache c with
  | some found => exact .inl rfl
  | none =>
    cases hfetch : fetchToken c.answer 0 none tokenFetchMaxRetries with
    | error e => exact .inl rfl
    | ok p => exact .inr ⟨p, ⟨hserved, hfetch⟩, rfl⟩

/-- The call `c` of the run put the token there, from the answer `p`, and it is there still. -/
structure Source (calls : List TokenCall) (t : CachedToken) (c : TokenCall)
    (p : ProviderToken) : Prop where
  stored : ∃ before after, calls = before ++ c :: after ∧ Stores (run tokenStep none before) c p
  same : t = cachedFrom p c.fetched

/-- **Every cached token has a source in the run.** -/
theorem exists_source (h : run tokenStep none calls = some t) : ∃ c p, Source calls t c p := by
  induction calls using List.reverseRecOn generalizing t with
  | nil => cases h
  | append_singleton calls c ih =>
    rw [run_append, run_cons, run_nil] at h
    rcases tokenStep_cases (run tokenStep none calls) c with hsame | ⟨p, hstores, hnew⟩
    · obtain ⟨c₀, p, ⟨before, after, rfl, hstores⟩, hsame'⟩ := ih (hsame ▸ h)
      exact ⟨c₀, p, ⟨before, after ++ [c], by simp, hstores⟩, hsame'⟩
    · refine ⟨c, p, ⟨calls, [], rfl, hstores⟩, ?_⟩
      exact (Option.some.inj (hnew.symm.trans h)).symm

/-! ## How late it is served -/

/-- Five minutes of the declared lifetime are left; or the answer had expired when it came, and less
than the rest of an hour has gone by since. -/
def ServedInTime (p : ProviderToken) (fetched now : Nat) : Prop :=
  (now + nanos tokenRefreshBufferSecs : Nat) ≤ p.expiresAt ∨
    p.expiresAt < fetched ∧ now + nanos tokenRefreshBufferSecs < fetched + nanos 3600

theorem servedInTime_of_lt {p : ProviderToken} {fetched : Nat}
    (h : now + nanos tokenRefreshBufferSecs < (cachedFrom p fetched).expiresAt) :
      ServedInTime p fetched now := by
  unfold cachedFrom durationUntilExpiry at h
  unfold ServedInTime
  split at h
  · next hahead =>
    left
    dsimp only at h
    omega
  · next hpast => exact .inr ⟨Int.not_le.mp hpast, h⟩

/-- **A cached token is served while five minutes of its lifetime are left**, counted from the
declared expiry, or, if that had passed when the token came, as if it were an hour ahead. -/
theorem cached_token_in_time
    (hserved : servedFromCache (run tokenStep none calls) c = some (t, now)) :
    ∃ c₀ p, Source calls t c₀ p ∧ (getToken (run tokenStep none calls) c).1 = .ok p.text ∧
      ServedInTime p c₀.fetched now := by
  obtain ⟨hcache, hleft⟩ := served_eq hserved
  obtain ⟨c₀, p, hsource⟩ := exists_source hcache
  refine ⟨c₀, p, hsource, ?_, servedInTime_of_lt (hsource.same ▸ hleft)⟩
  rw [getToken, hserved, hsource.same]
  rfl

/-! A provider that answers at once: once with an hour to go, and once with a token that expired a
minute ago. -/

def callAt (seconds : Nat) (p : ProviderToken) : TokenCall :=
  ⟨nanos seconds, nanos seconds, fun _ => .ok p, nanos seconds⟩

def hourToken : ProviderToken := ⟨"token", nanos 4600⟩

def pastToken : ProviderToken := ⟨"token", nanos 940⟩

theorem cached_token_in_time_hour :
    ∃ c₀ p, Source [callAt 1000 hourToken] ⟨"token", nanos 4600⟩ c₀ p ∧
      (getToken (run tokenStep none [callAt 1000 hourToken]) (callAt 4299 hourToken)).1 =
        .ok p.text ∧
      ServedInTime p c₀.fetched (nanos 4299) :=
  cached_token_in_time (c := callAt 4299 hourToken) (by decide)

/-- **A token that expired a minute before it came is served for most of an hour.** -/
theorem cached_token_late :
    servedFromCache (run tokenStep none [callAt 1000 pastToken]) (callAt 4299 hourToken) =
        some (⟨"token", nanos 4600⟩, nanos 4299) ∧
      (∀ c₀ p, Source [callAt 1000 pastToken] ⟨"token", nanos 4600⟩ c₀ p →
        c₀ = callAt 1000 pastToken ∧ p = pastToken) ∧
      ¬ (nanos 4299 + nanos tokenRefreshBufferSecs : Nat) ≤ pastToken.expiresAt := by
  refine ⟨by decide, ?_, by decide⟩
  rintro c₀ p ⟨⟨before, after, hsplit, hstores⟩, -⟩
  cases before with
  | nil =>
    cases hsplit
    exact ⟨rfl, (Except.ok.inj hstores.2).symm⟩
  | cons c before =>
    obtain ⟨-, hrest⟩ := List.cons.inj hsplit
    cases before <;> cases hrest

end TokenCache

end Keycast.Cluster
