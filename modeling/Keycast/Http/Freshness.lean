import Keycast.Http.Nip98

/-!
# `Http/Freshness.lean` — how old an envelope can be

The validator casts the `u64` of the event to an `i64`, subtracts it from the clock and takes the
absolute value, and each of the three can wrap. `isFresh_iff` says what comes out for a clock that
any server can show: the window of 60 seconds, and the values that wrap into it. One of them is half
the range away, where the difference is the least `i64`, which is its own absolute value. The others
are the last of the range: as signed numbers they lie a minute before 1970 at most.
-/

set_option autoImplicit false

namespace Keycast.Http

open Lib

section Freshness

variable {o : Nip98} {now : Timestamp} {e : SignedEvent} {header url method : String}
  {pubkey : PublicKey}

/-! ## Wrapping -/

theorem wrap64_eq (x : Int) : wrap64 x = if x % 2 ^ 64 < 2 ^ 63 then x % 2 ^ 64
    else x % 2 ^ 64 - 2 ^ 64 := by
  unfold wrap64
  rw [Int.bmod_def]
  rfl

theorem wrap64_range (x : Int) : -(2 ^ 63) ≤ wrap64 x ∧ wrap64 x < 2 ^ 63 := by
  rw [wrap64_eq]
  split
  · omega
  · omega

/-- A difference of two numbers of the range wraps once at most. -/
theorem wrap64_of_lt {x : Int} (hlow : -(2 ^ 64) < x) (hhigh : x < 2 ^ 63) :
    wrap64 x = if x < -(2 ^ 63) then x + 2 ^ 64 else x := by
  rw [wrap64_eq]
  split
  · split
    · omega
    · omega
  · split
    · omega
    · omega

theorem SignedEvent.time_eq (e : SignedEvent) : e.time = wrap64 e.createdAt := by
  rw [wrap64_eq, SignedEvent.time]
  split
  · rw [if_pos (by omega)]
  · rw [if_neg (by omega)]

theorem SignedEvent.time_range (e : SignedEvent) : -(2 ^ 63) ≤ e.time ∧ e.time < 2 ^ 63 := by
  rw [SignedEvent.time_eq]
  exact wrap64_range _

/-- The comparison is made on the wrapped difference, and the least one passes it. -/
theorem isFresh_iff_wrap64 : isFresh now e = true ↔
    (wrap64 (now / 1000000 - e.time)).natAbs ≤ 60 ∨
      wrap64 (now / 1000000 - e.time) = -(2 ^ 63) := by
  have hrange := wrap64_range (now / 1000000 - e.time)
  unfold isFresh maxEventAgeSeconds
  rw [decide_eq_true_eq]
  generalize wrap64 (now / 1000000 - e.time) = d at hrange ⊢
  rw [wrap64_eq]
  split
  · omega
  · omega

theorem wrap64_of_near {x : Int} (h : x.natAbs ≤ 60) : wrap64 x = x := by
  rw [wrap64_eq]
  split
  · omega
  · omega

theorem isFresh_of_near (h : (now / 1000000 - e.time).natAbs ≤ 60) : isFresh now e = true := by
  rw [isFresh_iff_wrap64, wrap64_of_near h]
  exact .inl h

/-- The cast may be undone: it changes nothing that the subtraction keeps. -/
theorem wrap64_sub_time (x : Int) (e : SignedEvent) :
    wrap64 (x - e.time) = wrap64 (x - e.createdAt) := by
  rw [SignedEvent.time_eq]
  unfold wrap64
  rw [Int.sub_bmod_bmod]

/-! ## What is fresh -/

/-- The values of `created_at` that wrap into the window. -/
def WrapsIntoWindow (now : Int) (createdAt : Nat) : Prop :=
  createdAt = now + 2 ^ 63 ∨ 2 ^ 64 - 60 + now ≤ createdAt

theorem wraps_iff {now : Int} {createdAt : Nat} (hlow : 0 ≤ now) (hhigh : now < 2 ^ 63)
    (hcreated : createdAt < 2 ^ 64) : (wrap64 (now - createdAt)).natAbs ≤ 60 ∨
      wrap64 (now - createdAt) = -(2 ^ 63) ↔
      (now - createdAt).natAbs ≤ 60 ∨ WrapsIntoWindow now createdAt := by
  rw [WrapsIntoWindow, wrap64_of_lt (by omega) (by omega)]
  split
  · omega
  · omega

theorem wraps_time_iff {now time : Int} (hlow : 0 ≤ now) (hhigh : now < 2 ^ 62)
    (htlow : -(2 ^ 63) ≤ time)
    (hthigh : time < 2 ^ 63) : (wrap64 (now - time)).natAbs ≤ 60 ∨ wrap64 (now - time) = -(2 ^ 63) ↔
      (now - time).natAbs ≤ 60 ∨ now - time = 2 ^ 63 := by
  rw [wrap64_eq]
  split
  · omega
  · omega

theorem isFresh_iff (hlow : 0 ≤ now / 1000000) (hhigh : now / 1000000 < 2 ^ 63)
    (hcreated : e.createdAt < 2 ^ 64) :
    isFresh now e = true ↔
      (now / 1000000 - e.createdAt).natAbs ≤ 60 ∨ WrapsIntoWindow (now / 1000000) e.createdAt := by
  rw [isFresh_iff_wrap64, wrap64_sub_time]
  exact wraps_iff hlow hhigh hcreated

theorem extractAndValidate_ok {now : Timestamp} {header : String} :
    extractAndValidate o now header url method = .ok pubkey ↔
      ∃ e, readEvent o header = .ok e ∧ checkSigned o e = .ok () ∧ isFresh now e = true ∧
        checkTarget e url method = .ok () ∧ e.pubkey = pubkey := by
  unfold extractAndValidate
  simp only [bind_eq_ok]
  refine exists_congr fun e => and_congr_right fun _ => ?_
  constructor
  · rintro ⟨u, hsigned, h⟩
    split at h
    · next hfresh =>
      obtain ⟨v, htarget, hkey⟩ := bind_eq_ok.mp h
      exact ⟨hsigned, hfresh, htarget, Except.ok.inj hkey⟩
    · cases h
  · rintro ⟨hsigned, hfresh, htarget, rfl⟩
    refine ⟨(), hsigned, ?_⟩
    rw [if_pos hfresh, htarget]
    rfl

/-- An instant that a server's clock can show: the calendar of the clock ends long before. -/
def OnClock (t : Int) : Prop := 0 ≤ t ∧ t < seconds (2 ^ 62)

theorem OnClock.seconds_range {t : Int} (h : OnClock t) : 0 ≤ t / 1000000 ∧
    t / 1000000 < 2 ^ 62 := by
  obtain ⟨hlow, hhigh⟩ := h
  have hhigh' : t < 2 ^ 62 * 1000000 := hhigh
  constructor
  · omega
  · omega

/-- For such a clock the time of the event, as it is cast, lies in the window or half the range
away. -/
theorem isFresh_onClock (hclock : OnClock now) : isFresh now e = true ↔
    (now / 1000000 - e.time).natAbs ≤ 60 ∨ now / 1000000 - e.time = 2 ^ 63 := by
  obtain ⟨hlow, hhigh⟩ := hclock.seconds_range
  obtain ⟨htlow, hthigh⟩ := e.time_range
  rw [isFresh_iff_wrap64]
  generalize now / 1000000 = n at hlow hhigh ⊢
  generalize e.time = t at htlow hthigh ⊢
  exact wraps_time_iff hlow hhigh htlow hthigh

/-- The envelope is accepted exactly inside the window. -/
def FreshnessExact (o : Nip98) (now : Timestamp) (header url method : String)
    (e : SignedEvent) : Prop :=
  (extractAndValidate o now header url method).isOk = true ↔
    (now / 1000000 - e.createdAt).natAbs ≤ 60

/-- **Freshness is exact but for the values that wrap into the window.** -/
theorem freshness_exact_iff (hlow : 0 ≤ now / 1000000) (hhigh : now / 1000000 < 2 ^ 63)
    (hcreated : e.createdAt < 2 ^ 64) (hread : readEvent o header = .ok e)
    (hsigned : checkSigned o e = .ok ())
    (htarget : checkTarget e url method = .ok ()) :
    FreshnessExact o now header url method e ↔ ¬ WrapsIntoWindow (now / 1000000) e.createdAt := by
  have haccepted : (extractAndValidate o now header url method).isOk = true ↔
    isFresh now e = true := by
    constructor
    · intro hok
      cases hvalid : extractAndValidate o now header url method with
      | error x =>
        rw [hvalid] at hok
        cases hok
      | ok pubkey =>
        obtain ⟨e', hread', -, hfresh, -⟩ := extractAndValidate_ok.mp hvalid
        cases hread.symm.trans hread'
        exact hfresh
    · intro hfresh
      rw [extractAndValidate_ok.mpr ⟨e, hread, hsigned, hfresh, htarget, rfl⟩]
      rfl
  rw [FreshnessExact, haccepted, isFresh_iff hlow hhigh hcreated]
  unfold WrapsIntoWindow
  omega

/-! One envelope, as old as it is said to be. -/

def envelope (createdAt : Nat) : SignedEvent :=
  ⟨"id", "admin", createdAt, 27235, [["u", "https://login.example/"], ["method", "GET"]]⟩

def envelopeNip98 (createdAt : Nat) : Nip98 where
  toWeb := Web.symbolic [] []
  base64Decode _ := .ok []
  checkUtf8 _ := .ok ()
  eventFromJson _ := .ok (envelope createdAt)
  verifyEvent _ := true

theorem freshness_exact_recent :
    FreshnessExact (envelopeNip98 1760000030) (seconds 1760000000) "Nostr e30="
      "https://login.example/" "GET"
      (envelope 1760000030) :=
  (freshness_exact_iff (by decide) (by decide) (by decide) (by decide) (by decide)
    (by decide)).mpr (by unfold WrapsIntoWindow; decide)

/-- **An envelope that is dated half the range ahead is accepted**, and one that wraps to a minute
before 1970 is accepted by a server at the beginning of its clock. -/
theorem freshness_wraps :
    ¬ FreshnessExact (envelopeNip98 (1760000000 + 2 ^ 63)) (seconds 1760000000) "Nostr e30="
        "https://login.example/" "GET" (envelope (1760000000 + 2 ^ 63)) ∧
      ¬ FreshnessExact (envelopeNip98 (2 ^ 64 - 1)) (seconds 0) "Nostr e30="
        "https://login.example/" "GET"
        (envelope (2 ^ 64 - 1)) := by
  unfold FreshnessExact
  exact ⟨by decide, by decide⟩

end Freshness

end Keycast.Http
