import Keycast.Http.Register
import Keycast.Lib.Cache
import Keycast.Lib.Ledger

/-!
# `Http/DevicePoll.lean` — a code that waits for a device

A registration gives the device a device code. When the email is verified elsewhere, the
authorization code is put into Redis under it for ten minutes, and the device fetches it by polling.
The poll reads the code with one command and deletes it with another, whose result it does not look
at.

So "one-time use" is true of a poll alone. `handed_out_once` has the condition on the deletions that
makes it true of all of them together; the two runs behind it are the two ways to miss the
condition.
-/

set_option autoImplicit false

namespace Keycast.Http

open Lib

/-! ## Redis -/

structure WaitingCode where
  code : String
  expiresAt : Timestamp

/-- The keys under `oauth_poll:`. An expired key is not removed but not found either. `issued` is no
part of Redis: the codes that verifications have drawn so far. -/
structure DeviceStore where
  now : Timestamp
  redis : Cache String WaitingCode
  issued : List String

namespace DeviceStore

def get (s : DeviceStore) (key : String) : Option String :=
  ((s.redis.get key).filter fun w => decide (s.now < w.expiresAt)).map (·.code)

def del (s : DeviceStore) (key : String) : DeviceStore := { s with redis := s.redis.invalidate key }

def setex (s : DeviceStore) (key : String) (seconds : Nat) (code : String) : DeviceStore :=
  { s with redis := s.redis.insert key ⟨code, s.now + seconds⟩ }

/-- The code under a key, whether or not it has expired. -/
def kept (s : DeviceStore) (key : String) : Option String := (s.redis.get key).map (·.code)

@[simp] theorem kept_del (s : DeviceStore) (key key' : String) :
    (s.del key').kept key = if key = key' then none else s.kept key := by
  unfold kept del
  rw [Cache.get_invalidate]
  split <;> rfl

@[simp] theorem kept_setex (s : DeviceStore) (key key' : String) (seconds : Nat) (code : String) :
    (s.setex key' seconds code).kept key = if key = key' then some code else s.kept key := by
  unfold kept setex
  rw [Cache.get_insert]
  split <;> rfl

end DeviceStore

/-! ## The endpoint -/

/-- The answers of the endpoint: 200 with the code, and 202. -/
inductive PollResponse
  | ok (code : String)
  | pending
  deriving DecidableEq, Repr

/-- A request, whether Redis is configured for the instance it reaches, whether its `GET` gets a
reply, and whether its `DEL` is executed. Of the `DEL` the endpoint wants to know nothing more. -/
structure PollCall where
  deviceCode : String
  redis : Bool := true
  getReplies : Bool := true
  delExecutes : Bool := true

/-- The commands of Redis. A `DEL` is labelled with the code its request has read. -/
inductive PollStmt
  | get (deviceCode : String)
  | del (deviceCode code : String) (executes : Bool)
  deriving DecidableEq, Repr

def pollKey (deviceCode : String) : String := "oauth_poll:" ++ deviceCode

def isDeviceCode (deviceCode : String) : Bool :=
  decide (deviceCode.utf8ByteSize ≤ 128) &&
    deviceCode.toList.all fun c => c.isAlphanum || c == '-' || c == '_'

def poll (r : PollCall) : Prog PollStmt DeviceStore OAuthError PollResponse :=
  if !isDeviceCode r.deviceCode then .err (.invalidRequest "Invalid device_code parameter")
  else if !r.redis then .err (.serverError "Service temporarily unavailable")
  else do
    let found ← Prog.read (.get r.deviceCode) fun s => s.get (pollKey r.deviceCode)
    if !r.getReplies then .err (.serverError "Service temporarily unavailable")
    else
      match found with
      | some code => do
        Prog.write (.del r.deviceCode code r.delExecutes) fun s =>
          if r.delExecutes then s.del (pollKey r.deviceCode) else s
        return .ok code
      | none => return .pending

/-! ## Runs -/

/-- What happens around the polls: an email is verified, and time passes. -/
inductive DeviceEnv
  | verified (deviceCode code : String)
  | tick (d : Nat)
  deriving DecidableEq, Repr

def deviceEnv : DeviceEnv → DeviceStore → DeviceStore
  | .verified deviceCode code, s =>
    { s.setex (pollKey deviceCode) 600 code with issued := code :: s.issued }
  | .tick d, s => { s with now := s.now + d }

abbrev Devices := Conf PollCall PollStmt DeviceStore OAuthError PollResponse

def deviceSystem : System PollCall PollStmt DeviceStore OAuthError PollResponse DeviceEnv :=
  ⟨poll, deviceEnv⟩

/-- Every verification draws a code of its own. -/
def DrawnAnew : DeviceEnv → DeviceStore → Prop
  | .verified _ code, s => code ∉ s.issued
  | .tick _, _ => True

instance DrawnAnew.decidable : ∀ (e : DeviceEnv) (s : DeviceStore), Decidable (DrawnAnew e s)
  | .verified _ code, s => inferInstanceAs (Decidable (code ∉ s.issued))
  | .tick _, _ => .isTrue trivial

/-- So does what is waiting at the start. -/
def DeviceStore.AllIssued (s : DeviceStore) : Prop :=
  ∀ key code, s.kept key = some code → code ∈ s.issued

/-- **What is asked of the endpoint**: of the polls with a device code, at most one is answered with
a given authorization code. -/
def HandedOutOnce (c : Devices) : Prop :=
  ∀ (i j : Nat) (t u) (code : String), c.threads[i]? = some t → c.threads[j]? = some u →
    t.req.deviceCode = u.req.deviceCode → t.result? = some (.ok (.ok code)) →
    u.result? = some (.ok (.ok code)) → i = j

/-- The condition: a `DEL` is executed, and the key still has the code that its request has read. -/
def DeletesWhatWasRead : PollStmt → DeviceStore → Prop
  | .del deviceCode code executes, s => executes = true ∧ s.kept (pollKey deviceCode) = some code
  | .get _, _ => True

instance DeletesWhatWasRead.decidable :
    ∀ (l : PollStmt) (s : DeviceStore), Decidable (DeletesWhatWasRead l s)
  | .del deviceCode code executes, s =>
    inferInstanceAs (Decidable (executes = true ∧ s.kept (pollKey deviceCode) = some code))
  | .get _, _ => .isTrue trivial

/-! ## What a poll does -/

/-- What a command does to the store. -/
def PollStep (_ : PollCall) : PollStmt → List (PollStmt × DeviceStore) → DeviceStore →
    DeviceStore → Prop
  | .get _, _, s, s' => s' = s
  | .del deviceCode _ executes, _, s, s' =>
    s' = if executes then s.del (pollKey deviceCode) else s

/-- A poll that is answered with a code has sent the `DEL` for it. -/
def PollPost (r : PollCall) (seen : List (PollStmt × DeviceStore)) :
    Except OAuthError PollResponse → Prop
  | .ok (.ok code) => ∃ executes s, (.del r.deviceCode code executes, s) ∈ seen
  | _ => True

theorem poll_meets (r : PollCall) : (poll r).Meets (PollStep r) (PollPost r) [] := by
  unfold poll
  split
  · trivial
  split
  · trivial
  intro s
  refine ⟨rfl, ?_⟩
  split
  · trivial
  show Prog.Meets _ _ (match s.get (pollKey r.deviceCode) with
    | some code => _
    | none => _) _
  cases s.get (pollKey r.deviceCode) with
  | none => trivial
  | some code =>
    intro s'
    exact ⟨rfl, r.delExecutes, s', List.mem_cons_self⟩

/-! ## The books

A unit is a code that can still be handed out under a device code: one not drawn yet, or one that is
kept there. A `DEL` that finds it spends it. -/

section

variable {d code : String} {s s' : DeviceStore}

def available (d code : String) (s : DeviceStore) : Nat :=
  (if code ∈ s.issued then 0 else 1) + if s.kept (pollKey d) = some code then 1 else 0

def handsOut (d code : String) : PollStmt → DeviceStore → Nat
  | .del d' c _, _ => if d' = d ∧ c = code then 1 else 0
  | .get _, _ => 0

theorem available_le_one (hs : s.AllIssued) : available d code s ≤ 1 := by
  unfold available
  by_cases hkept : s.kept (pollKey d) = some code
  · simp [hkept, hs _ _ hkept]
  · simp only [hkept, if_false, Nat.add_zero]
    split <;> omega

theorem available_del_le (d' : String) :
    available d code (s.del (pollKey d')) ≤ available d code s := by
  unfold available
  rw [DeviceStore.kept_del]
  refine Nat.add_le_add_left ?_ _
  by_cases h : pollKey d = pollKey d'
  · simp [h]
  · simp [h]

/-- A `DEL` that finds the code takes it away. -/
theorem available_del_lt (hkept : s.kept (pollKey d) = some code) :
    available d code (s.del (pollKey d)) < available d code s := by
  unfold available
  rw [DeviceStore.kept_del, if_pos rfl, hkept]
  simp only [DeviceStore.del, reduceCtorEq, if_false, if_true, Nat.add_zero]
  exact Nat.lt_succ_self _

theorem deviceEnv_available {e : DeviceEnv} (h : DrawnAnew e s) :
    available d code (deviceEnv e s) ≤ available d code s := by
  cases e with
  | tick n => exact le_rfl
  | verified d' c =>
    have hissued : (deviceEnv (.verified d' c) s).issued = c :: s.issued := rfl
    have hkept : (deviceEnv (.verified d' c) s).kept (pollKey d) =
        (s.setex (pollKey d') 600 c).kept (pollKey d) := rfl
    unfold available
    rw [hissued, hkept, DeviceStore.kept_setex]
    by_cases hc : code = c
    · -- it was not drawn before, and may be kept now
      subst hc
      have hnew : code ∉ s.issued := h
      simp only [List.mem_cons_self, if_true, hnew, if_false, Nat.zero_add]
      split <;> split <;> omega
    · have hother : some c ≠ some code := fun heq => hc (Option.some.inj heq).symm
      simp only [List.mem_cons, hc, false_or]
      refine Nat.add_le_add_left ?_ _
      by_cases hd : pollKey d = pollKey d'
      · simp [hd, hother]
      · simp [hd]

theorem device_traced :
    deviceSystem.Traces DeletesWhatWasRead DrawnAnew PollStep PollPost (fun _ => True)
      fun _ _ => True where
  prog := poll_meets
  refl _ := trivial
  trans _ _ _ _ _ := trivial
  exec _ _ _ _ := ⟨trivial, trivial⟩
  env _ _ := ⟨trivial, trivial⟩

theorem device_ledger (d code : String) :
    deviceSystem.Ledger DeletesWhatWasRead DrawnAnew PollStep (fun _ => True) (fun _ _ => True)
      (available d code) (handsOut d code) fun _ _ => 0 where
  exec {r l seen s s'} _ _ hdeletes hstep := by
    rw [Nat.add_zero]
    cases l with
    | get d' =>
      obtain rfl : s' = s := hstep
      simp [handsOut]
    | del d' c executes =>
      obtain ⟨rfl, hkept⟩ := hdeletes
      obtain rfl : s' = s.del (pollKey d') := hstep
      by_cases h : d' = d ∧ c = code
      · obtain ⟨rfl, rfl⟩ := h
        have hlt := available_del_lt hkept
        simp only [handsOut, and_self, if_true]
        omega
      · simp only [handsOut, h, if_false, Nat.zero_add]
        exact available_del_le d'
  env _ hnew := deviceEnv_available hnew

theorem one_le_tally_of_answered {es : List (Ev PollCall DeviceEnv)}
    (hok : Along deviceSystem.step (System.Allowed DeletesWhatWasRead DrawnAnew) (.init s) es)
    {t : Thread PollCall PollStmt DeviceStore OAuthError PollResponse}
    (ht : t ∈ (run deviceSystem.step (.init s) es).threads)
    (hresult : t.result? = some (.ok (.ok code))) :
    1 ≤ tally (handsOut t.req.deviceCode code) t.seen := by
  have hmeets := (device_traced.run (System.traced_init trivial) hok).meets
  obtain ⟨executes, s', hmem⟩ := hmeets.result ht hresult
  refine le_trans ?_ (le_tally hmem)
  simp [handsOut]

end

/-- **A device code hands out its code once**, in every interleaving in which each `DEL` deletes
what its request has read. -/
theorem handed_out_once {s : DeviceStore} (hs : s.AllIssued) {es : List (Ev PollCall DeviceEnv)}
    (hok : Along deviceSystem.step (System.Allowed DeletesWhatWasRead DrawnAnew) (.init s) es) :
    HandedOutOnce (run deviceSystem.step (.init s) es) := by
  intro i j t u code ht hu hsame hresult hresult'
  have hspent := (device_ledger t.req.deviceCode code).spent_le device_traced (fun _ => 0)
    (fun _ h => by simpa using h) trivial hok
  have havailable : available t.req.deviceCode code s ≤ 1 := available_le_one hs
  have hone : (run deviceSystem.step (.init s) es).tally (handsOut t.req.deviceCode code) ≤ 1 := by
    have hnone : ((System.spawned es).map fun _ => 0).sum = 0 := by simp
    omega
  have hfirst := one_le_tally_of_answered hok (List.mem_of_getElem? ht) hresult
  have hsecond := one_le_tally_of_answered hok (List.mem_of_getElem? hu) hresult'
  rw [← hsame] at hsecond
  exact Conf.eq_of_tally_le_one hone ht hu hfirst hsecond

/-! One verification and two polls. -/

def deviceStore : DeviceStore := ⟨0, .empty, []⟩

theorem deviceStore_allIssued : deviceStore.AllIssued := by
  intro key code h
  simp [DeviceStore.kept, deviceStore] at h

def pollsInTurn (first : PollCall) : List (Ev PollCall DeviceEnv) :=
  [.env (.verified "device" "code"), .spawn first, .exec 0, .exec 0,
    .spawn { deviceCode := "device" }, .exec 1, .exec 1]

/-- Both read before either deletes. -/
def pollsAtOnce : List (Ev PollCall DeviceEnv) :=
  [.env (.verified "device" "code"), .spawn { deviceCode := "device" },
    .spawn { deviceCode := "device" },
    .exec 0, .exec 1, .exec 0, .exec 1]

def gotCode (t : Thread PollCall PollStmt DeviceStore OAuthError PollResponse) : Bool :=
  decide (t.req.deviceCode = "device") && decide (t.result? = some (.ok (.ok "code")))

theorem handed_out_once_in_turn :
    ((run deviceSystem.step (.init deviceStore)
      (pollsInTurn { deviceCode := "device" })).threads.map gotCode) =
        [true, false] ∧
      HandedOutOnce
        (run deviceSystem.step (.init deviceStore) (pollsInTurn { deviceCode := "device" })) :=
  ⟨by decide, handed_out_once deviceStore_allIssued (by decide +kernel)⟩

theorem not_handedOutOnce {c : Devices} (h : (c.threads[0]?).any gotCode = true)
    (h' : (c.threads[1]?).any gotCode = true) : ¬ HandedOutOnce c := by
  intro honce
  obtain ⟨t, ht, hgot⟩ := Conf.exists_thread h
  obtain ⟨u, hu, hgot'⟩ := Conf.exists_thread h'
  simp only [gotCode, Bool.and_eq_true, decide_eq_true_eq] at hgot hgot'
  have hsame : t.req.deviceCode = u.req.deviceCode := hgot.1.trans hgot'.1.symm
  exact absurd (honce 0 1 t u "code" ht hu hsame hgot.2 hgot'.2) (by decide)

/-- **Two polls get the code**: both read it before either deletes it, or the deletion by the first
is not executed. -/
theorem handed_out_twice :
    ¬ HandedOutOnce (run deviceSystem.step (.init deviceStore) pollsAtOnce) ∧
      ¬ HandedOutOnce (run deviceSystem.step (.init deviceStore)
        (pollsInTurn { deviceCode := "device", delExecutes := false })) :=
  ⟨not_handedOutOnce (by decide) (by decide +kernel),
    not_handedOutOnce (by decide) (by decide +kernel)⟩

end Keycast.Http
