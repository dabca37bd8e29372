import Keycast.Http.Teams
import Keycast.Lib.Ledger
import Keycast.Lib.Window

/-!
# `Http/RateLimit.lean` — limits for what sends mail or calls the KMS

`api/src/rate_limit.rs`. A request is counted under a key for its address and then under one for its
email, each in Redis with a script that starts an hour at the first count. A Redis that does not
answer refuses nobody.

`limits_hold` says what the limits come to, whatever requests are handled at once and however often
Redis fails them: in any hour at most twice the limit pass under one key, since two of the counted
hours can meet it, and nobody is refused unless one of its own counted hours was full.

A key is counted for one thing (`limitChecks_apart`), so one counter can be looked at alone. What
passes under it is bounded by the windows that meet the hour: what fits into them is said in
`Lib/Window.lean`, for windows that have begun (`LimitState.Begun`), with `spends_limit` for a count
that passes and `fills_window` for one that is refused. The answers of a request are tied to its
counts by its history (`LimitPost`).
-/

set_option autoImplicit false

namespace Keycast.Http

open Lib

/-! ## The code -/

/-- `EMAIL_LIMIT_PER_HOUR`. -/
def emailLimitPerHour : Nat := 5

/-- `HOUR_SECONDS`. -/
def hourSeconds : Int := 3600

/-- The routes that ask for a limit. -/
inductive LimitedRoute
  | register
  | resendVerification
  | forgotPassword
  | headlessRegister
  | oauthRegister
  | teamInvite
  deriving DecidableEq, Repr

def LimitedRoute.toText : LimitedRoute → String
  | register => "register"
  | resendVerification => "resend_verification"
  | forgotPassword => "forgot_password"
  | headlessRegister => "headless_register"
  | oauthRegister => "oauth_register"
  | teamInvite => "team_invite"

/-- What the limits need beside `Web`: the addresses, as they are written, and
`RATE_LIMIT_IP_PER_HOUR`. -/
structure Limits extends Web where
  parseIp : String → Option String
  ipLimitPerHour : Nat

/-- `rsplit(',').next()`. -/
def lastEntry (value : String) : List Char := (value.toList.reverse.takeWhile (· ≠ ',')).reverse

/-- `client_ip`: only what the load balancer has appended is trusted. -/
def clientIp (o : Limits) (forwardedFor : Option HeaderValue) : Option String :=
  (forwardedFor.bind id).bind fun value =>
    o.parseIp (String.ofList (trimmed (String.ofList (lastEntry value))))

/-- `ip_limit_key`. -/
def ipLimitKey (route : LimitedRoute) (tenant : TenantId) (ip : String) : String :=
  "rate_limit:" ++ route.toText ++ ":" ++ toString tenant ++ ":ip:" ++ ip

/-- `email_limit_key`. -/
def emailLimitKey (o : Limits) (route : LimitedRoute) (tenant : TenantId)
    (email : String) : String :=
  "rate_limit:" ++ route.toText ++ ":" ++ toString tenant ++ ":email:" ++
    o.sha256 (normalized o.toWeb email)

structure LimitCall where
  route : LimitedRoute
  tenant : TenantId
  forwardedFor : Option HeaderValue
  email : Option String
  deriving DecidableEq, Repr

inductive LimitStmt
  | incr (key : String) (limit : Nat)
  deriving DecidableEq, Repr

/-- Redis does not get the command, carries it out and the answer is lost, or answers. Without Redis
there is none. -/
inductive RedisLink
  | down
  | mute
  | working
  deriving DecidableEq, Repr

structure LimitState where
  store : Cache String Hits
  redis : RedisLink
  now : Timestamp

/-- The window of a count under a key. -/
def LimitState.window (s : LimitState) (key : String) : Hits :=
  .next (seconds hourSeconds) s.now (s.store.get key)

/-- `incr_with_ttl`, if it is carried out. -/
def LimitState.incrWithTtl (s : LimitState) (key : String) : LimitState :=
  match s.redis with
  | .down => s
  | .mute | .working => { s with store := s.store.insert key (s.window key) }

/-- The answer of `under_limit`. -/
def LimitState.underLimit (s : LimitState) (key : String) (limit : Nat) : Bool :=
  match s.redis with
  | .down | .mute => true
  | .working => decide ((s.window key).count ≤ limit)

def underLimit (key : String) (limit : Nat) : Prog LimitStmt LimitState Empty Bool :=
  .stmt (.incr key limit) fun s => (s.underLimit key limit, s.incrWithTtl key)

/-- The second half of `allow_request`. -/
def allowEmail (o : Limits) (route : LimitedRoute) (tenant : TenantId) (email : Option String) :
    Prog LimitStmt LimitState Empty Bool :=
  match email with
  | some email => underLimit (emailLimitKey o route tenant email) emailLimitPerHour
  | none => return true

/-- `allow_request`. -/
def allowRequest (o : Limits) (r : LimitCall) : Prog LimitStmt LimitState Empty Bool :=
  match clientIp o r.forwardedFor with
  | some ip => do
    let allowed ← underLimit (ipLimitKey r.route r.tenant ip) o.ipLimitPerHour
    if !allowed then return false else allowEmail o r.route r.tenant r.email
  | none => allowEmail o r.route r.tenant r.email

/-- The counts that a request asks for, in that order, each with its limit. -/
def limitChecks (o : Limits) (r : LimitCall) : List (String × Nat) :=
  ((clientIp o r.forwardedFor).map
    fun ip => (ipLimitKey r.route r.tenant ip, o.ipLimitPerHour)).toList ++
    (r.email.map fun email => (emailLimitKey o r.route r.tenant email, emailLimitPerHour)).toList

/-! ## Runs -/

inductive LimitEnv
  | advance (d : Nat)
  | redis (link : RedisLink)

def LimitEnv.apply : LimitEnv → LimitState → LimitState
  | advance d, s => { s with now := s.now + d }
  | redis link, s => { s with redis := link }

/-- Any number of requests at once, while time passes and Redis comes and goes; what it has it
keeps. -/
def limitSystem (o : Limits) : System LimitCall LimitStmt LimitState Empty Bool LimitEnv where
  prog := allowRequest o
  env := LimitEnv.apply

abbrev LimitThread := Thread LimitCall LimitStmt LimitState Empty Bool

/-- A count under the key that is carried out and within a limit, in the hour from `t` on. -/
def counted (key : String) (limit : Nat) (t : Timestamp) : LimitStmt → LimitState → Nat
  | .incr k _, s =>
    if k = key ∧ s.redis ≠ .down then
      passed limit (seconds hourSeconds) t s.now (s.window key).count else 0

/-- A request that is let through, with a count under the key that Redis has answered in the hour
from `t` on. -/
def letThrough (key : String) (limit : Nat) (t : Timestamp) (thread : LimitThread) : Bool :=
  (match thread.result? with
    | some (.ok answer) => answer
    | _ => false) &&
  thread.seen.any fun x => decide (x.1 = .incr key limit ∧ x.2.redis = .working ∧ t ≤ x.2.now ∧
    x.2.now < t + seconds hourSeconds)

/-- Redis is empty and answers. -/
def LimitState.boot (now : Timestamp) : LimitState := ⟨.empty, .working, now⟩

/-- Two requests that are counted together: from one address, or for emails that the hash does not
tell apart. -/
def SharesLimit (o : Limits) (r r' : LimitCall) : Prop :=
  r.route = r'.route ∧ r.tenant = r'.tenant ∧
    ((clientIp o r.forwardedFor).isSome = true ∧
      clientIp o r.forwardedFor = clientIp o r'.forwardedFor ∨
      ∃ email email', r.email = some email ∧ r'.email = some email' ∧
        o.sha256 (normalized o.toWeb email) = o.sha256 (normalized o.toWeb email'))

/-- **What the limits come to**, in a run from the start. -/
structure LimitsHold (o : Limits) (now : Timestamp) (es : List (Ev LimitCall LimitEnv)) : Prop where
  atMost : ∀ key limit t,
    (run (limitSystem o).step (.init (.boot now)) es).threads.countP
      (letThrough key limit t) ≤ limit + limit
  /-- nobody is let through without all its counts -/
  checked : ∀ thread ∈ (run (limitSystem o).step (.init (.boot now)) es).threads,
    thread.result? = some (.ok true) →
    ∀ check ∈ limitChecks o thread.req, ∃ s, (.incr check.1 check.2, s) ∈ thread.seen
  /-- nobody is refused but by Redis, in a full hour under one of its keys -/
  refused : ∀ thread ∈ (run (limitSystem o).step (.init (.boot now)) es).threads,
    thread.result? = some (.ok false) →
    ∃ check ∈ limitChecks o thread.req, ∃ s, (.incr check.1 check.2, s) ∈ thread.seen ∧
      s.redis = .working ∧
      ∃ t, t ≤ s.now ∧ s.now < t + seconds hourSeconds ∧
        check.2 ≤
          (run (limitSystem o).step (.init (.boot now)) es).tally (counted check.1 check.2 t)
  /-- a key is counted for one address, or one email, of one route and tenant, and against one
  limit -/
  apart : ∀ thread ∈ (run (limitSystem o).step (.init (.boot now)) es).threads,
    ∀ thread' ∈ (run (limitSystem o).step (.init (.boot now)) es).threads, ∀ key limit limit' s s',
      (.incr key limit, s) ∈ thread.seen → (.incr key limit', s') ∈ thread'.seen →
        limit = limit' ∧ SharesLimit o thread.req thread'.req

section RateLimit

variable {o : Limits} {r : LimitCall} {s s' : LimitState} {key : String} {limit : Nat}
  {t : Timestamp}

/-! ## The keys -/

/-- What stands before the first colon. -/
theorem segment_inj {a b x y : List Char} (ha : ':' ∉ a) (hb : ':' ∉ b)
    (h : a ++ ':' :: x = b ++ ':' :: y) :
    a = b ∧ x = y := by
  induction a generalizing b with
  | nil =>
    cases b with
    | nil => exact ⟨rfl, (List.cons.inj h).2⟩
    | cons c b =>
      obtain ⟨rfl, -⟩ := List.cons.inj h
      exact absurd List.mem_cons_self hb
  | cons c a ih =>
    cases b with
    | nil =>
      obtain ⟨rfl, -⟩ := List.cons.inj h
      exact absurd List.mem_cons_self ha
    | cons c' b =>
      obtain ⟨rfl, htail⟩ := List.cons.inj h
      obtain ⟨rfl, hx⟩ :=
        ih (fun hc => ha (List.mem_cons_of_mem _ hc))
          (fun hc => hb (List.mem_cons_of_mem _ hc)) htail
      exact ⟨rfl, hx⟩

theorem route_no_colon (route : LimitedRoute) : ':' ∉ route.toText.toList := by
  cases route <;> decide

theorem route_inj {route route' : LimitedRoute} (h : route.toText = route'.toText) :
    route = route' := by
  revert h
  cases route <;> cases route' <;> decide

theorem digits_no_colon (n : Nat) : ':' ∉ n.repr.toList := by
  intro h
  rw [Nat.toList_repr] at h
  exact absurd (Nat.isDigit_of_mem_toDigits (by decide) (by decide) h) (by decide)

theorem natRepr_inj {m n : Nat} (h : m.repr = n.repr) : m = n := by
  have hdigits := congrArg (fun s => Nat.ofDigitChars 10 s.toList 0) h
  simp only [Nat.toList_repr] at hdigits
  rwa [Nat.ofDigitChars_toDigits (by decide) (by decide),
    Nat.ofDigitChars_toDigits (by decide) (by decide)] at hdigits

theorem digits_no_minus (n : Nat) : '-' ∉ n.repr.toList := by
  intro h
  rw [Nat.toList_repr] at h
  exact absurd (Nat.isDigit_of_mem_toDigits (by decide) (by decide) h) (by decide)

theorem tenant_no_colon (tenant : TenantId) : ':' ∉ (toString tenant).toList := by
  show ':' ∉ (Int.repr tenant).toList
  rw [Int.repr_eq_if]
  split
  · exact digits_no_colon _
  · rw [String.toList_append]
    intro h
    rcases List.mem_append.mp h with h | h
    · exact absurd h (by decide)
    · exact digits_no_colon _ h

theorem intRepr_inj {m n : Int} (h : m.repr = n.repr) : m = n := by
  have hminus : ∀ m n : Nat, m.repr ≠ "-" ++ n.repr := by
    intro m n heq
    refine digits_no_minus m ?_
    rw [heq, String.toList_append]
    exact List.mem_append_left _ (by decide)
  rw [Int.repr_eq_if, Int.repr_eq_if] at h
  split at h
  · split at h
    · have heq := natRepr_inj h
      omega
    · exact absurd h (hminus _ _)
  · split at h
    · exact absurd h.symm (hminus _ _)
    · have hlist := congrArg String.toList h
      rw [String.toList_append, String.toList_append] at hlist
      have heq := natRepr_inj (String.toList_injective (List.append_cancel_left hlist))
      omega

theorem tenant_inj {tenant tenant' : TenantId} (h : toString tenant = toString tenant') :
    tenant = tenant' :=
  intRepr_inj h

/-- The two formats. -/
theorem key_toList (route : LimitedRoute) (tenant : TenantId) (kind rest : String) :
    ("rate_limit:" ++ route.toText ++ ":" ++ toString tenant ++ (":" ++ kind ++ ":") ++
      rest).toList =
      "rate_limit:".toList ++ (route.toText.toList ++ ':' :: ((toString tenant).toList ++ ':' ::
        (kind.toList ++ ':' :: rest.toList))) := by
  simp [String.toList_append]

theorem key_inj {route route' : LimitedRoute} {tenant tenant' : TenantId}
    {kind kind' rest rest' : String}
    (hkind : ':' ∉ kind.toList) (hkind' : ':' ∉ kind'.toList)
    (h : "rate_limit:" ++ route.toText ++ ":" ++ toString tenant ++ (":" ++ kind ++ ":") ++ rest =
      "rate_limit:" ++ route'.toText ++ ":" ++ toString tenant' ++ (":" ++ kind' ++ ":") ++ rest') :
    route = route' ∧ tenant = tenant' ∧ kind = kind' ∧ rest = rest' := by
  have hlist := congrArg String.toList h
  rw [key_toList, key_toList] at hlist
  obtain ⟨hroute, hlist⟩ :=
    segment_inj (route_no_colon _) (route_no_colon _) (List.append_cancel_left hlist)
  obtain ⟨htenant, hlist⟩ := segment_inj (tenant_no_colon _) (tenant_no_colon _) hlist
  obtain ⟨hkinds, hlist⟩ := segment_inj hkind hkind' hlist
  exact ⟨route_inj (String.toList_injective hroute), tenant_inj (String.toList_injective htenant),
    String.toList_injective hkinds, String.toList_injective hlist⟩

/-- **One key is counted for one thing.** -/
theorem limitChecks_apart {r' : LimitCall} {limit' : Nat} (h : (key, limit) ∈ limitChecks o r)
    (h' : (key, limit') ∈ limitChecks o r') : limit = limit' ∧ SharesLimit o r r' := by
  have hip : ∀ (r : LimitCall) ip, ipLimitKey r.route r.tenant ip =
      "rate_limit:" ++ r.route.toText ++ ":" ++ toString r.tenant ++ (":" ++ "ip" ++ ":") ++ ip :=
        fun _ _ => rfl
  have hemail : ∀ (r : LimitCall) email, emailLimitKey o r.route r.tenant email =
      "rate_limit:" ++ r.route.toText ++ ":" ++ toString r.tenant ++ (":" ++ "email" ++ ":") ++
        o.sha256 (normalized o.toWeb email) := fun _ _ => rfl
  simp only [limitChecks, List.mem_append, Option.mem_toList, Option.map_eq_some_iff, Prod.mk.injEq]
    at h h'
  rcases h with ⟨ip, hsome, hkey, rfl⟩ | ⟨email, hsome, hkey, rfl⟩
  · rcases h' with ⟨ip', hsome', hkey', rfl⟩ | ⟨email', hsome', hkey', rfl⟩
    · rw [← hkey', hip, hip] at hkey
      obtain ⟨hroute, htenant, -, rfl⟩ := key_inj (by decide) (by decide) hkey
      exact ⟨rfl, hroute, htenant, .inl ⟨by rw [hsome]; rfl, hsome.trans hsome'.symm⟩⟩
    · rw [← hkey', hip, hemail] at hkey
      exact absurd (key_inj (by decide) (by decide) hkey).2.2.1 (by decide)
  · rcases h' with ⟨ip', hsome', hkey', rfl⟩ | ⟨email', hsome', hkey', rfl⟩
    · rw [← hkey', hip, hemail] at hkey
      exact absurd (key_inj (by decide) (by decide) hkey).2.2.1 (by decide)
    · rw [← hkey', hemail, hemail] at hkey
      obtain ⟨hroute, htenant, -, hhash⟩ := key_inj (by decide) (by decide) hkey
      exact ⟨rfl, hroute, htenant, .inr ⟨email, email', hsome, hsome', hhash⟩⟩

/-! ## A request -/

/-- One count after the other, up to the first that refuses. -/
def underLimits : List (String × Nat) → Prog LimitStmt LimitState Empty Bool
  | [] => return true
  | (key, limit) :: checks => do
    let allowed ← underLimit key limit
    if allowed then underLimits checks else return false

theorem underLimits_one (key : String) (limit : Nat) :
    underLimits [(key, limit)] = underLimit key limit := by
  simp only [underLimits, underLimit, Prog.stmt, Prog.bind_def, Prog.atom_bind, Prog.ret_bind]
  congr 1
  funext s
  cases s.underLimit key limit with
  | false | true => rfl

theorem allowRequest_eq (o : Limits) (r : LimitCall) :
    allowRequest o r = underLimits (limitChecks o r) := by
  have hemail : allowEmail o r.route r.tenant r.email =
      underLimits
        (r.email.map fun email =>
          (emailLimitKey o r.route r.tenant email, emailLimitPerHour)).toList := by
    cases r.email with
    | none => rfl
    | some email => exact (underLimits_one _ _).symm
  unfold allowRequest limitChecks
  cases clientIp o r.forwardedFor with
  | none => exact hemail
  | some ip =>
    simp only [hemail, Option.map_some, Option.toList_some, List.singleton_append, underLimits]
    congr 1
    funext allowed
    cases allowed with
    | false | true => rfl

/-- A statement of a request: a count under a key of its own. -/
def LimitStep (o : Limits) (r : LimitCall) : LimitStmt → List (LimitStmt × LimitState) →
    LimitState → LimitState → Prop
  | .incr key limit, _, s, s' => (key, limit) ∈ limitChecks o r ∧ s' = s.incrWithTtl key

/-- What an answer says about the counts of a request. -/
def LimitPost (o : Limits) (r : LimitCall) (seen : List (LimitStmt × LimitState))
    (x : Except Empty Bool) : Prop :=
  (x = .ok true → (∀ check ∈ limitChecks o r, ∃ s, (.incr check.1 check.2, s) ∈ seen) ∧
    ∀ key limit s, (.incr key limit, s) ∈ seen → s.underLimit key limit = true) ∧
  (x = .ok false → ∃ check ∈ limitChecks o r, ∃ s, (.incr check.1 check.2, s) ∈ seen ∧
    s.underLimit check.1 check.2 = false)

theorem underLimits_meets (checks : List (String × Nat)) (hchecks : checks ⊆ limitChecks o r)
    {seen : List (LimitStmt × LimitState)}
    (hmade : ∀ check ∈ limitChecks o r, check ∈ checks ∨ ∃ s, (.incr check.1 check.2, s) ∈ seen)
    (hpassed : ∀ key limit s, (.incr key limit, s) ∈ seen → s.underLimit key limit = true) :
    (underLimits checks).Meets (LimitStep o r) (LimitPost o r) seen := by
  induction checks generalizing seen with
  | nil =>
    refine ⟨fun _ => ⟨fun check hcheck => ?_, hpassed⟩, fun h => ?_⟩
    · rcases hmade check hcheck with hnil | hseen
      · cases hnil
      · exact hseen
    · cases h
  | cons check checks ih =>
    obtain ⟨key, limit⟩ := check
    have hmine : (key, limit) ∈ limitChecks o r := hchecks List.mem_cons_self
    refine Prog.Meets.stmt fun s => ⟨⟨hmine, rfl⟩, ?_⟩
    dsimp only
    cases hanswer : s.underLimit key limit with
    | true =>
      rw [if_pos rfl]
      refine ih (fun check hcheck => hchecks (List.mem_cons_of_mem _ hcheck))
        (fun check hcheck => ?_) ?_
      · rcases hmade check hcheck with hmem | ⟨s', hseen⟩
        · rcases List.mem_cons.mp hmem with rfl | hmem
          · exact .inr ⟨s, List.mem_cons_self⟩
          · exact .inl hmem
        · exact .inr ⟨s', List.mem_cons_of_mem _ hseen⟩
      · intro key' limit' s' hseen
        rcases List.mem_cons.mp hseen with heq | hseen
        · cases heq
          exact hanswer
        · exact hpassed key' limit' s' hseen
    | false =>
      rw [if_neg (by simp)]
      refine ⟨fun h => ?_, fun _ => ⟨_, hmine, s, List.mem_cons_self, hanswer⟩⟩
      cases h

theorem allowRequest_meets (o : Limits) (r : LimitCall) :
    (allowRequest o r).Meets (LimitStep o r) (LimitPost o r) [] := by
  rw [allowRequest_eq]
  refine underLimits_meets _ (List.Subset.refl _) (fun check hcheck => .inl hcheck) ?_
  intro key limit s hseen
  cases hseen

/-! ## The counters -/

/-- Every counted hour has begun. -/
def LimitState.Begun (s : LimitState) : Prop :=
  ∀ key, Hits.Started (seconds hourSeconds) s.now (s.store.get key)

theorem LimitState.Begun.incrWithTtl (h : s.Begun) (k : String) : (s.incrWithTtl k).Begun := by
  have hit : ({ s with store := s.store.insert k (s.window k) } : LimitState).Begun := by
    intro key
    simp only [Cache.get_insert]
    split
    · next heq =>
      subst heq
      exact (h key).hit
    · exact h key
  unfold LimitState.incrWithTtl
  split
  · exact h
  · exact hit
  · exact hit

theorem limit_traces (o : Limits) :
    (limitSystem o).Traces (fun _ _ => True) (fun _ _ => True) (LimitStep o) (LimitPost o)
      LimitState.Begun
      fun _ _ => True where
  prog := allowRequest_meets o
  refl _ := trivial
  trans _ _ _ _ _ := trivial
  exec {r l seen s s'} hbegun _ _ hstep := by
    cases l with
    | incr key limit =>
      obtain ⟨-, rfl⟩ := hstep
      exact ⟨hbegun.incrWithTtl key, trivial⟩
  env {e s} hbegun _ := by
    refine ⟨?_, trivial⟩
    cases e with
    | advance d => exact fun key =>
      (hbegun key).later (Int.le_add_of_nonneg_right (Int.natCast_nonneg d))
    | redis link => exact hbegun

/-- What a count does to a window: nothing, or one hit, under its own key. -/
theorem get_incrWithTtl (s : LimitState) (k key : String) :
    (s.incrWithTtl k).store.get key = s.store.get key ∧ (k ≠ key ∨ s.redis = .down) ∨
      (s.incrWithTtl k).store.get key = some (s.window key) ∧ k = key ∧ s.redis ≠ .down := by
  by_cases hkey : key = k
  · subst hkey
    cases hredis : s.redis with
    | down => exact .inl ⟨by simp [LimitState.incrWithTtl, hredis], .inr rfl⟩
    | mute => exact .inr ⟨by simp [LimitState.incrWithTtl, hredis], rfl, by simp⟩
    | working => exact .inr ⟨by simp [LimitState.incrWithTtl, hredis], rfl, by simp⟩
  · refine .inl ⟨?_, .inl (Ne.symm hkey)⟩
    unfold LimitState.incrWithTtl
    cases s.redis with
    | down => rfl
    | mute | working => exact Cache.get_insert_of_ne _ _ hkey

/-- Twice the limit is not used up. -/
theorem spends_limit (o : Limits) (key : String) (limit : Nat) (t : Timestamp) :
    (limitSystem o).Ledger (fun _ _ => True) (fun _ _ => True) (LimitStep o) LimitState.Begun
      (fun _ _ => True)
      (fun s => limit + limit - Hits.used limit (seconds hourSeconds) t (s.store.get key))
        (counted key limit t)
      fun _ _ => 0 where
  exec {r l seen s s'} hbegun _ _ hstep := by
    cases l with
    | incr k n =>
      obtain ⟨-, rfl⟩ := hstep
      simp only [counted, Nat.add_zero]
      rcases get_incrWithTtl s k key with ⟨hsame, hnot⟩ | ⟨hnext, rfl, hcarried⟩
      · have hzero : ¬ (k = key ∧ s.redis ≠ .down) := by
          rintro ⟨heq, hup⟩
          rcases hnot with hne | hdown
          · exact hne heq
          · exact hup hdown
        rw [hsame, if_neg hzero, Nat.zero_add]
      · have hused := @Hits.used_hit limit _ t _ _ (hbegun k) (by decide)
        have hle := Hits.used_le limit (seconds hourSeconds) t (some (s.window k))
        rw [hnext, if_pos ⟨rfl, hcarried⟩]
        unfold LimitState.window at hle ⊢
        omega
  env {e s} _ _ := by
    cases e with
    | advance | redis => exact le_rfl

/-- A counted hour is filled by what is counted. -/
theorem fills_window (o : Limits) (key : String) (limit : Nat) (t : Timestamp) :
    (limitSystem o).Ledger (fun _ _ => True) (fun _ _ => True) (LimitStep o) LimitState.Begun
      (fun _ _ => True)
      (fun s => Hits.filled limit (seconds hourSeconds) t (s.store.get key)) (fun _ _ => 0)
        (counted key limit t) where
  exec {r l seen s s'} hbegun _ _ hstep := by
    cases l with
    | incr k n =>
      obtain ⟨-, rfl⟩ := hstep
      simp only [counted, Nat.zero_add]
      rcases get_incrWithTtl s k key with ⟨hsame, -⟩ | ⟨hnext, rfl, hcarried⟩
      · rw [hsame]
        exact Nat.le_add_right _ _
      · rw [hnext, if_pos ⟨rfl, hcarried⟩]
        exact Hits.filled_hit (hbegun k) (by decide)
  env {e s} _ _ := by
    cases e with
    | advance | redis => exact le_rfl

/-! ## The result -/

theorem letThrough_iff {thread : LimitThread} : letThrough key limit t thread = true ↔
    thread.result? = some (.ok true) ∧ ∃ x ∈ thread.seen, x.1 = .incr key limit ∧
      x.2.redis = .working ∧
      t ≤ x.2.now ∧ x.2.now < t + seconds hourSeconds := by
  unfold letThrough
  rw [Bool.and_eq_true, List.any_eq_true]
  simp only [decide_eq_true_eq]
  refine and_congr_left fun _ => ?_
  cases thread.result? with
  | none => simp
  | some x =>
    cases x with
    | error e => cases e
    | ok answer => simp

theorem underLimit_eq_false :
    s.underLimit key limit = false ↔ s.redis = .working ∧ limit < (s.window key).count := by
  unfold LimitState.underLimit
  cases s.redis with
  | down | mute => simp
  | working => simp

theorem counted_eq_one {n : Nat} (hworking : s.redis = .working) (hfrom : t ≤ s.now)
    (hto : s.now < t + seconds hourSeconds) (hwithin : s.underLimit key limit = true) :
    counted key limit t (.incr key n) s = 1 := by
  have hcount : (s.window key).count ≤ limit := by
    simpa [LimitState.underLimit, hworking] using hwithin
  have hup : s.redis ≠ .down := by simp [hworking]
  exact (if_pos ⟨rfl, hup⟩).trans (if_pos ⟨hfrom, hto, hcount⟩)

theorem begun_boot (now : Timestamp) : (LimitState.boot now).Begun := by
  intro key
  rw [LimitState.boot, Cache.get_empty]
  exact Hits.Started.none

/-- **The limits hold**, in every run. -/
theorem limits_hold (o : Limits) (now : Timestamp) (es : List (Ev LimitCall LimitEnv)) :
    LimitsHold o now es := by
  have hok : ∀ es', Along (limitSystem o).step (System.Allowed (fun _ _ => True) fun _ _ => True)
      (.init (.boot now)) es' := System.along_allowed (limitSystem o) _
  have hinit : System.Traced (LimitStep o) (LimitPost o) LimitState.Begun (fun _ _ => True)
      (Conf.init (.boot now) : Conf LimitCall LimitStmt LimitState Empty Bool) :=
    System.traced_init (begun_boot now)
  have hmeets := ((limit_traces o).run hinit (hok es)).meets
  have hmine : ∀ thread ∈ (run (limitSystem o).step (.init (.boot now)) es).threads, ∀ key limit s,
      (.incr key limit, s) ∈ thread.seen → (key, limit) ∈ limitChecks o thread.req := by
    intro thread hthread
    refine (limit_traces o).history (K := fun r seen => ∀ key limit s, (.incr key limit, s) ∈ seen →
      (key, limit) ∈ limitChecks o r) (fun _ _ _ _ h => by
        cases h) ?_ (begun_boot now) (hok es) hthread
    intro r l seen s s' hseen _ _ hstep key limit s₁ hmem
    rcases List.mem_cons.mp hmem with heq | hmem
    · cases heq
      exact hstep.1
    · exact hseen key limit s₁ hmem
  refine ⟨fun key limit t => ?_, fun thread hthread hanswer => ?_, fun thread hthread hanswer => ?_,
    fun thread hthread thread' hthread' key limit limit' s s' hseen hseen' =>
      limitChecks_apart (hmine thread hthread _ _ _ hseen) (hmine thread' hthread' _ _ _ hseen')⟩
  · have hbalance := (spends_limit o key limit t).balance (limit_traces o) hinit (hok es)
    have hthrough :
      (run (limitSystem o).step (.init (.boot now)) es).threads.countP (letThrough key limit t) ≤
        (run (limitSystem o).step (.init (.boot now)) es).tally (counted key limit t) := by
      refine Conf.countP_le_tally fun thread hthread hlet => ?_
      obtain ⟨hanswer, x, hx, hlabel, hworking, hfrom, hto⟩ := letThrough_iff.mp hlet
      have hwithin := ((hmeets.result hthread hanswer).1 rfl).2 key limit x.2 (hlabel ▸ hx)
      refine le_trans ?_ (le_tally hx)
      rw [hlabel, counted_eq_one hworking hfrom hto hwithin]
    rw [Conf.tally_zero, Conf.tally_zero] at hbalance
    have hnone : (Conf.init (.boot now) : Conf LimitCall LimitStmt LimitState Empty Bool).tally
        (counted key limit t) = 0 := rfl
    have hle := Nat.sub_le (limit + limit)
      (Hits.used limit (seconds hourSeconds) t ((LimitState.boot now).store.get key))
    rw [hnone, show (Conf.init (.boot now) : Conf LimitCall LimitStmt LimitState Empty Bool).state =
      .boot now from rfl]
      at hbalance
    omega
  · exact ((hmeets.result hthread hanswer).1 rfl).1
  · obtain ⟨⟨key, limit⟩, hcheck, s, hseen, hrefused⟩ := (hmeets.result hthread hanswer).2 rfl
    obtain ⟨hworking, hover⟩ := underLimit_eq_false.mp hrefused
    refine ⟨(key, limit), hcheck, s, hseen, hworking, ?_⟩
    obtain ⟨i, hi, hget⟩ := List.getElem_of_mem hthread
    obtain ⟨pre, post, rfl, hreached⟩ := System.seen_reached (limitSystem o) (Nat.zero_le i)
      ((List.getElem?_eq_getElem hi).trans (congrArg some hget)) hseen
    cases limit with
    | zero => exact ⟨s.now, le_rfl, by simp [seconds, hourSeconds], Nat.zero_le _⟩
    | succ n =>
      have hover : n + 1 < (Hits.next (seconds hourSeconds) s.now (s.store.get key)).count := hover
      obtain ⟨h, hh, hlive, hfull⟩ := Hits.filled_of_refused hover (Nat.succ_pos n)
      have hbegun := ((limit_traces o).run hinit (hok pre)).state
      rw [hreached] at hbegun
      have hends : h.ends ≤ s.now + seconds hourSeconds := hbegun key h hh
      refine ⟨h.ends - seconds hourSeconds, Int.sub_right_le_of_le_add hends, ?_, ?_⟩
      · rw [Int.sub_add_cancel]
        exact hlive
      -- the hour was full when the request came, and it has not become less since
      have hbalance :=
        (fills_window o key (n + 1) (h.ends - seconds hourSeconds)).balance (limit_traces o) hinit
        (hok pre)
      have hmore :=
        System.tally_le_run (limitSystem o) (counted key (n + 1) (h.ends - seconds hourSeconds))
        (run (limitSystem o).step (.init (.boot now)) pre) post
      rw [Conf.tally_zero, Conf.tally_zero, hreached] at hbalance
      have hempty : Hits.filled (n + 1) (seconds hourSeconds) (h.ends - seconds hourSeconds)
          ((Conf.init (.boot now) : Conf LimitCall LimitStmt LimitState Empty Bool).state.store.get
            key) = 0 := by
        rw [Conf.init, LimitState.boot, Cache.get_empty, Hits.filled]
      dsimp only at hbalance ⊢
      rw [run_append]
      omega

end RateLimit

end Keycast.Http
