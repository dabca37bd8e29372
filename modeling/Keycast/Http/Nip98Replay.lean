import Keycast.Http.Freshness
import Keycast.Lib.Replay

/-!
# `Http/Nip98Replay.lean` — which envelopes are accepted twice

On protected routes Redis is a `Guard`: an id is kept for 120 seconds. The window in which an event
is fresh is longer than that by up to a second, because it is counted in whole seconds: an event
accepted between 60 and 59 seconds before its `created_at` is fresh for more than 120 seconds from
then on. The login has no guard at all.
-/

set_option autoImplicit false

namespace Keycast.Http

open Lib

section Replay

variable {o : Nip98} {store : Cache String Timestamp} {c : Nip98Call} {e : SignedEvent}
  {method path url : String} {pubkey : PublicKey}

/-- The request is authenticated on the strength of its envelope. -/
def nip98Accepts (o : Nip98) (store : Cache String Timestamp) (c : Nip98Call) : Bool :=
  match c.route with
  | .ucanAuth method path => (authenticateNip98 o store c method path).1.isOk
  | .login tenant => (nostrAuthLogin o c tenant).isOk

def nip98Step (o : Nip98) (store : Cache String Timestamp) (c : Nip98Call) :
    Cache String Timestamp :=
  match c.route with
  | .ucanAuth method path => (authenticateNip98 o store c method path).2
  | .login _ => store

abbrev Nip98Accepts (o : Nip98) (store : Cache String Timestamp) (c : Nip98Call) : Prop :=
  nip98Accepts o store c = true

def SameEvent (o : Nip98) (a b : Nip98Call) : Prop :=
  ∃ e, readEvent o a.authHeader = .ok e ∧ readEvent o b.authHeader = .ok e

/-- The condition: a protected route sees the event no more than 59 seconds before its `created_at`,
and the login accepts none. -/
def Recorded (o : Nip98) (c : Nip98Call) : Prop :=
  match c.route with
  | .ucanAuth _ _ => ∀ e, readEvent o c.authHeader = .ok e → seconds (e.time - 59) ≤ c.now
  | .login tenant => (nostrAuthLogin o c tenant).isOk = false

theorem Route.cases_eq (r : Route) : (∃ method path, r = .ucanAuth method path) ∨
    ∃ tenant, r = .login tenant := by
  cases r with
  | ucanAuth method path => exact .inl ⟨method, path, rfl⟩
  | login tenant => exact .inr ⟨tenant, rfl⟩

/-! ## What is accepted -/

theorem checkNip98_ok : checkNip98 o c method path = .ok (e, pubkey) ↔
    ∃ url, buildExpectedUrl c.headers path = some url ∧
      extractAndValidate o c.now c.authHeader url method = .ok pubkey ∧
        readEvent o c.authHeader = .ok e := by
  unfold checkNip98
  cases hurl : buildExpectedUrl c.headers path with
  | none => simp
  | some url =>
    simp only [bind_eq_ok, mapError_eq_ok, Option.some.injEq, exists_eq_left']
    constructor
    · rintro ⟨pubkey', hvalid, e', hread, heq⟩
      cases heq
      exact ⟨hvalid, hread⟩
    · rintro ⟨hvalid, hread⟩
      exact ⟨pubkey, hvalid, e, hread, rfl⟩

/-- The id is in Redis. -/
def inStore (store : Cache String Timestamp) (now : Timestamp) (e : SignedEvent) : Bool :=
  (store.get (replayKey e)).any fun expiry => decide (now < expiry)

theorem inStore_eq_false {now : Timestamp} : inStore store now e = false ↔
    ∀ expiry, store.get (replayKey e) = some expiry → expiry ≤ now := by
  simp only [inStore, Option.any_eq_false, decide_eq_false_iff_not, Int.not_lt]

theorem authenticateNip98_eq (hcheck : checkNip98 o c method path = .ok (e, pubkey)) :
    authenticateNip98 o store c method path =
      if c.redisUp then
        if inStore store c.now e then (.error .unauthorized, store)
        else (.ok ⟨pubkey, c.adminRole o pubkey⟩,
          store.insert (replayKey e) (c.now + seconds replayTtlSeconds))
      else (.error .serviceUnavailable, store) := by
  rw [authenticateNip98, hcheck]
  dsimp only
  rw [checkReplay]
  cases c.redisUp with
  | false => rfl
  | true =>
    simp only [if_true, setNxEx]
    cases hin : inStore store c.now e with
    | true =>
      rw [inStore] at hin
      rw [hin]
      rfl
    | false =>
      rw [inStore] at hin
      rw [hin]
      rfl

/-- **What an accepted request on a protected route did**: its event was not in Redis, and is
now. -/
theorem ucanAuth_accepts (h : (authenticateNip98 o store c method path).1.isOk = true) :
    ∃ e pubkey, checkNip98 o c method path = .ok (e, pubkey) ∧ c.redisUp = true ∧
      inStore store c.now e = false ∧
      (authenticateNip98 o store c method path).2 =
        store.insert (replayKey e) (c.now + seconds replayTtlSeconds) := by
  cases hcheck : checkNip98 o c method path with
  | error r =>
    rw [authenticateNip98, hcheck] at h
    cases h
  | ok p =>
    obtain ⟨e, pubkey⟩ := p
    rw [authenticateNip98_eq hcheck] at h ⊢
    cases hup : c.redisUp with
    | false =>
      rw [hup] at h
      cases h
    | true =>
      cases hin : inStore store c.now e with
      | true =>
        rw [hup, hin] at h
        cases h
      | false => exact ⟨e, pubkey, rfl, rfl, hin, rfl⟩

theorem ucanAuth_refused (h : (authenticateNip98 o store c method path).1.isOk = false) :
    (authenticateNip98 o store c method path).2 = store := by
  cases hcheck : checkNip98 o c method path with
  | error r => rw [authenticateNip98, hcheck]
  | ok p =>
    obtain ⟨e, pubkey⟩ := p
    rw [authenticateNip98_eq hcheck] at h ⊢
    split
    · next hup =>
      rw [if_pos hup] at h
      split
      · rfl
      · next hin =>
        rw [if_neg hin] at h
        cases h
    · rfl

/-- An accepted envelope holds a fresh event. -/
theorem Nip98Accepts.fresh (h : Nip98Accepts o store c) :
    ∃ e, readEvent o c.authHeader = .ok e ∧ isFresh c.now e = true := by
  unfold Nip98Accepts nip98Accepts at h
  split at h
  · obtain ⟨e, pubkey, hcheck, -⟩ := ucanAuth_accepts h
    obtain ⟨url, -, hvalid, -⟩ := checkNip98_ok.mp hcheck
    obtain ⟨e', hread, -, hfresh, -⟩ := extractAndValidate_ok.mp hvalid
    exact ⟨e', hread, hfresh⟩
  · next tenant _ =>
    cases hlogin : nostrAuthLogin o c tenant with
    | error e =>
      rw [hlogin] at h
      cases h
    | ok answer =>
      unfold nostrAuthLogin at hlogin
      obtain ⟨url, -, hlogin⟩ := bind_eq_ok.mp hlogin
      obtain ⟨pubkey, hvalid, -⟩ := bind_eq_ok.mp hlogin
      obtain ⟨e, hread, -, hfresh, -⟩ := extractAndValidate_ok.mp (mapError_eq_ok.mp hvalid)
      exact ⟨e, hread, hfresh⟩

/-! ## The guard -/

/-- The entry that accepting the request makes. The login makes none. -/
def Nip98Entry (o : Nip98) (c : Nip98Call) (key : String) (t : Int) : Prop :=
  ∃ method path e, c.route = .ucanAuth method path ∧ readEvent o c.authHeader = .ok e ∧
    key = replayKey e ∧ t = c.now + seconds replayTtlSeconds

theorem nip98_guard (o : Nip98) :
    Guard (nip98Step o) (Nip98Accepts o) Nip98Call.now (Nip98Entry o)
      fun m k t => ∃ expiry, m.get k = some expiry ∧ t ≤ expiry := by
  refine Guard.ofCache (u := id) ?_ ?_
  · rintro store c key t hacc ⟨method, path, e, hroute, hread, rfl, rfl⟩
    simp only [Nip98Accepts, nip98Accepts, nip98Step, hroute] at hacc ⊢
    obtain ⟨e', pubkey, hcheck, -, hin, hstep⟩ := ucanAuth_accepts hacc
    obtain ⟨-, -, -, hread'⟩ := checkNip98_ok.mp hcheck
    cases hread.symm.trans hread'
    exact ⟨inStore_eq_false.mp hin, _, rfl, hstep⟩
  · intro store c hnone
    unfold nip98Step
    split
    · next method path hroute =>
      refine ucanAuth_refused (Bool.eq_false_iff.mpr fun hacc => ?_)
      obtain ⟨e, pubkey, hcheck, -⟩ := ucanAuth_accepts hacc
      obtain ⟨-, -, -, hread⟩ := checkNip98_ok.mp hcheck
      refine hnone ?_ _ _ ⟨method, path, e, hroute, hread, rfl, rfl⟩
      simp only [Nip98Accepts, nip98Accepts, hroute]
      exact hacc
    · rfl

/-- Whoever is fresh later than this is not fresh any more when Redis forgets it. -/
theorem forgotten_after_fresh {a b T : Int} (ha : (T - 59) * 1000000 ≤ a) (halow : 0 ≤ a / 1000000)
    (hbhigh : b / 1000000 < 2 ^ 62)
    (hfresh : (a / 1000000 - T).natAbs ≤ 60 ∨ a / 1000000 - T = 2 ^ 63)
    (hfresh' : (b / 1000000 - T).natAbs ≤ 60 ∨ b / 1000000 - T = 2 ^ 63) : b <
      a + 120 * 1000000 := by
  omega

theorem fresh_when_forgotten {a T : Int} (ha : a < (T - 59) * 1000000)
    (hfresh : (a / 1000000 - T).natAbs ≤ 60 ∨ a / 1000000 - T = 2 ^ 63) :
    ((a + 120 * 1000000) / 1000000 - T).natAbs ≤ 60 := by
  omega

/-- A protected route accepts the same request again when Redis has forgotten the event, if it is
fresh then. -/
theorem ucanAuth_again {later : Timestamp} (hroute : c.route = .ucanAuth method path)
    (hacc : Nip98Accepts o store c) (hread : readEvent o c.authHeader = .ok e)
    (hfresh : isFresh later e = true) (hlater : c.now + seconds replayTtlSeconds ≤ later) :
    Nip98Accepts o (nip98Step o store c) { c with now := later } := by
  obtain ⟨now, route, headers, authHeader, redisUp, supportAdmin⟩ := c
  obtain rfl : route = .ucanAuth method path := hroute
  obtain ⟨e', pubkey, hcheck, hup, -, hstep⟩ := ucanAuth_accepts hacc
  obtain ⟨url, hurl, hvalid, hread'⟩ := checkNip98_ok.mp hcheck
  cases hread.symm.trans hread'
  obtain ⟨e', hread', hsigned, -, htarget, hkey⟩ := extractAndValidate_ok.mp hvalid
  cases hread.symm.trans hread'
  have hvalid' : extractAndValidate o later authHeader url method = .ok pubkey :=
    extractAndValidate_ok.mpr ⟨e, hread, hsigned, hfresh, htarget, hkey⟩
  have hcheck' :
    checkNip98 o ⟨later, .ucanAuth method path, headers, authHeader, redisUp, supportAdmin⟩
      method path = .ok (e, pubkey) :=
    checkNip98_ok.mpr ⟨url, hurl, hvalid', hread⟩
  have hin :
    inStore (store.insert (replayKey e) (now + seconds replayTtlSeconds)) later e = false := by
    rw [inStore_eq_false]
    intro expiry hexpiry
    rw [Cache.get_insert_self] at hexpiry
    cases hexpiry
    exact hlater
  show (authenticateNip98 o (authenticateNip98 o store _ method path).2 _ method path).1.isOk = true
  rw [hstep, authenticateNip98_eq hcheck', if_pos hup, hin]
  rfl

/-- **An envelope that is recorded long enough is accepted once**, whatever Redis holds and whatever
comes in between; any other, once accepted, is accepted again within two minutes. -/
theorem envelopes_once (o : Nip98) :
    (∀ store calls, Chronological Nip98Call.now calls → (∀ c ∈ calls, OnClock c.now) →
      (∀ c ∈ calls, Recorded o c) →
      AtMostOnce (nip98Step o) (Nip98Accepts o) (SameEvent o) store calls) ∧
    ∀ store c, OnClock c.now → Nip98Accepts o store c → ¬ Recorded o c →
      ∃ later, c.now ≤ later ∧ later ≤ c.now + seconds replayTtlSeconds ∧
        Nip98Accepts o (nip98Step o store c) { c with now := later } := by
  constructor
  · intro store calls htime hclock hrecorded
    -- an accepted request is no login, so it has an entry
    have hentry : ∀ {s c}, c ∈ calls → Nip98Accepts o s c →
      ∃ method path, c.route = .ucanAuth method path := by
      intro s c hc hacc
      have hrec := hrecorded c hc
      rcases c.route.cases_eq with hroute | ⟨tenant, hroute⟩
      · exact hroute
      · simp only [Recorded, hroute] at hrec
        simp only [Nip98Accepts, nip98Accepts, hroute] at hacc
        rw [hrec] at hacc
        cases hacc
    refine (nip98_guard o).atMostOnce htime ?_ store
    rintro s s' a b hmem hmem' ha hb ⟨e, hread, hread'⟩
    obtain ⟨method, path, hroute⟩ := hentry hmem ha
    obtain ⟨method', path', hroute'⟩ := hentry hmem' hb
    refine ⟨_, _, _, ⟨method, path, e, hroute, hread, rfl, rfl⟩,
      ⟨method', path', e, hroute', hread', rfl, rfl⟩, ?_⟩
    have hrec := hrecorded a hmem
    simp only [Recorded, hroute] at hrec
    obtain ⟨e₁, hread₁, hfresh₁⟩ := ha.fresh
    obtain ⟨e₂, hread₂, hfresh₂⟩ := hb.fresh
    cases hread.symm.trans hread₁
    cases hread'.symm.trans hread₂
    exact forgotten_after_fresh (hrec e hread) (hclock a hmem).seconds_range.1
      (hclock b hmem').seconds_range.2
      ((isFresh_onClock (hclock a hmem)).mp hfresh₁) ((isFresh_onClock (hclock b hmem')).mp hfresh₂)
  · intro store c hclock hacc hnot
    rcases c.route.cases_eq with ⟨method, path, hroute⟩ | ⟨tenant, hroute⟩
    · obtain ⟨e, hread, hfresh⟩ := hacc.fresh
      have hearly : c.now < seconds (e.time - 59) := by
        refine Int.not_le.mp fun hle => hnot ?_
        simp only [Recorded, hroute]
        intro e' hread'
        cases hread.symm.trans hread'
        exact hle
      have hfresh' := fresh_when_forgotten hearly ((isFresh_onClock hclock).mp hfresh)
      refine ⟨c.now + seconds replayTtlSeconds, Int.le_add_of_nonneg_right (by decide),
        Int.le_refl _, ?_⟩
      exact ucanAuth_again hroute hacc hread (isFresh_of_near hfresh') (Int.le_refl _)
    · -- the login looks at nothing but the request
      refine ⟨c.now, Int.le_refl _, Int.le_add_of_nonneg_right (by decide), ?_⟩
      have hsame : nip98Accepts o (nip98Step o store c) c = nip98Accepts o store c := by
        simp only [nip98Accepts, hroute]
      exact hsame.trans hacc

/-! Two events with `created_at` 1000, one for a protected route and one for the login. -/

def adminEvent (url method : String) : SignedEvent :=
  ⟨"id of " ++ url, "admin", 1000, 27235, [["u", url], ["method", method]]⟩

def statusEvent : SignedEvent := adminEvent "https://login.example/api/admin/status" "GET"

def loginEvent : SignedEvent := adminEvent "https://login.example/api/auth/login" "POST"

def adminNip98 : Nip98 where
  toWeb := { Web.symbolic [] [] with allowedPubkeys := some "admin" }
  base64Decode s := .ok (s.toList.map fun c => UInt8.ofNat c.toNat)
  checkUtf8 _ := .ok ()
  eventFromJson b :=
    .ok (if b = "login".toList.map fun c => UInt8.ofNat c.toNat then loginEvent else statusEvent)
  verifyEvent _ := true

def adminHeaders : ProxyHeaders :=
  { host := some (some "login.example"), origin := some (some "https://login.example") }

/-- The request at a time in seconds. -/
def statusCall (now : Int) : Nip98Call :=
  ⟨seconds now, .ucanAuth "GET" "/api/admin/status", adminHeaders, "Nostr status", true, false⟩

def loginCall (now : Int) : Nip98Call :=
  ⟨seconds now, .login 1, adminHeaders, "Nostr login", true, false⟩

theorem read_status (now : Int) :
    readEvent adminNip98 (statusCall now).authHeader = .ok statusEvent := by
  show readEvent adminNip98 "Nostr status" = .ok statusEvent
  decide

theorem read_login (now : Int) :
    readEvent adminNip98 (loginCall now).authHeader = .ok loginEvent := by
  show readEvent adminNip98 "Nostr login" = .ok loginEvent
  decide

theorem envelopes_once_status :
    Nip98Accepts adminNip98 .empty (statusCall 941) ∧
      AtMostOnce (nip98Step adminNip98) (Nip98Accepts adminNip98) (SameEvent adminNip98) .empty
        [statusCall 941, statusCall 1060] ∧
      ∃ later, seconds 940 ≤ later ∧ later ≤ seconds 940 + seconds replayTtlSeconds ∧
        Nip98Accepts adminNip98 (nip98Step adminNip98 .empty (statusCall 940))
          { statusCall 940 with now := later } := by
  have hrecorded : ∀ c ∈ [statusCall 941, statusCall 1060], Recorded adminNip98 c := by
    simp only [List.mem_cons, List.not_mem_nil, or_false]
    rintro c (rfl | rfl) e hread
    all_goals
      rw [read_status] at hread
      obtain rfl := Except.ok.inj hread
      decide
  have hclock : ∀ c ∈ [statusCall 941, statusCall 1060], OnClock c.now := by
    intro c hc
    rcases List.mem_pair.mp hc with rfl | rfl
    · exact ⟨by decide, by decide⟩
    · exact ⟨by decide, by decide⟩
  have hearly : ¬ Recorded adminNip98 (statusCall 940) := fun h =>
    absurd (h _ (read_status 940)) (by decide)
  exact ⟨by decide, (envelopes_once adminNip98).1 .empty _ (by decide) hclock hrecorded,
    (envelopes_once adminNip98).2 .empty _ ⟨by decide, by decide⟩ (by decide) hearly⟩

/-- **An envelope is accepted twice**: by the login at any time, and by a protected route 60 seconds
before and 60 seconds after its `created_at`. -/
theorem envelope_accepted_twice :
    ¬ AtMostOnce (nip98Step adminNip98) (Nip98Accepts adminNip98) (SameEvent adminNip98) .empty
        [loginCall 1000, loginCall 1001] ∧
      ¬ AtMostOnce (nip98Step adminNip98) (Nip98Accepts adminNip98) (SameEvent adminNip98) .empty
        [statusCall 940, statusCall 1060] := by
  constructor
  · intro honce
    refine honce [] _ [] _ [] rfl (by decide) (by decide) ?_
    exact ⟨loginEvent, read_login 1000, read_login 1001⟩
  · intro honce
    refine honce [] _ [] _ [] rfl (by decide) (by decide) ?_
    exact ⟨statusEvent, read_status 940, read_status 1060⟩

end Replay

end Keycast.Http
