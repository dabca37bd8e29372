import Keycast.Atproto.Statements
import Keycast.Atproto.Subject

/-!
# `Atproto/SingleUse.lean` — codes and refresh tokens are used once

A code is live while its row has it with an expiry in the future. `consume_authorization_code` takes
it out; `store_token_artifacts` writes it back, with an expiry that the handler read off the clock
before, so that no later `NOW()` finds it live. A refresh token is taken out by the statement that
puts its successor in. Both are counted with a ledger, one for each code and each hash.

A ledger needs that no statement uses up a unit that is not there. For codes the danger is the write
that puts a code back: it carries an expiry that was the time of day when its request looked
(`provider_traced` keeps that the states a request saw are not later than the one it acts in), so it
makes no code live (`step_liveCodes`). A successor of a refresh token that has the same hash counts
as one more that was issued (`rotate_liveTokens`). The rest is counting: under `DrawnOnce` a table
and the requests together have at most one live unit to offer.
-/

set_option autoImplicit false

namespace Keycast.Atproto

open Lib Http

/-! ## The property -/

/-- The request presented the code and got tokens for it. -/
def Exchanged (code : String) (t : Thread Request Stmt State AuthError Response) : Prop :=
  ∃ req response, t.req = .token req ∧ req.grantType = "authorization_code" ∧ req.code = some code ∧
    t.result? = some (.ok (.token response))

/-- The request presented the refresh token and got tokens for it. -/
def Refreshed (token : String) (t : Thread Request Stmt State AuthError Response) : Prop :=
  ∃ req response, t.req = .token req ∧ req.grantType = "refresh_token" ∧
    req.refreshToken = some token ∧
    t.result? = some (.ok (.token response))

/-- No two of the requests so far have `P`. -/
def AtMostOne (P : Thread Request Stmt State AuthError Response → Prop) (c : Pool) : Prop :=
  ∀ (i j : Nat) (t u), c.threads[i]? = some t → c.threads[j]? = some u → P t → P u → i = j

def Request.drawnCode : Request → Option String
  | .authorize _ _ code => some code
  | _ => none

def Request.drawnHash (o : Provider) : Request → Option String
  | .token req => some (o.hashRefreshToken req.newRefreshToken)
  | _ => none

/-- Codes and refresh tokens are drawn once, with hashes that differ, and none of them is in the
table yet, whose constraints hold. -/
structure DrawnOnce (o : Provider) (s : State) (es : List (Ev Request EnvEvent)) : Prop where
  table : uniqueColumns s.sessions = true
  codes : ((System.spawned es).filterMap Request.drawnCode).Nodup
  newCodes : ∀ r ∈ System.spawned es, ∀ code ∈ r.drawnCode, ∀ row ∈ s.sessions,
    row.authorizationCode ≠ some code
  hashes : ((System.spawned es).filterMap (Request.drawnHash o)).Nodup
  newHashes : ∀ r ∈ System.spawned es, ∀ hash ∈ r.drawnHash o, ∀ row ∈ s.sessions,
    row.refreshTokenHash ≠ some hash

/-! ## Counting rows -/

section Count

variable {s s' : State} {p q : Session → Bool} {f : Session → Session}

theorem uniqueColumns_code {rows : List Session} (h : uniqueColumns rows = true) (code : String) :
    rows.countP (fun r => r.authorizationCode == some code) ≤ 1 := by
  simp only [uniqueColumns, Bool.and_eq_true, decide_eq_true_eq] at h
  exact countP_some_le_one h.1.1.2 code

theorem uniqueColumns_hash {rows : List Session} (h : uniqueColumns rows = true) (hash : String) :
    rows.countP (fun r => r.refreshTokenHash == some hash) ≤ 1 := by
  simp only [uniqueColumns, Bool.and_eq_true, decide_eq_true_eq] at h
  exact countP_some_le_one h.2 hash

/-- An update that makes no row pass the test. -/
theorem countP_update_le (h : ∀ r, p r = true → q (f r) = true → q r = true) :
    (s.update p f).2.sessions.countP q ≤ s.sessions.countP q :=
  countP_updateWhere_le h _

/-- An update whose rows passed the test and do not any more. -/
theorem countP_update_lt (h : ∀ r, p r = true → q (f r) = false) (hq : ∀ r, p r = true → q r = true)
    (hfound : (s.update p f).1.isSome = true) :
    (s.update p f).2.sessions.countP q < s.sessions.countP q := by
  obtain ⟨row, hrow⟩ := Option.isSome_iff_exists.mp (Option.isSome_map ▸ hfound)
  have hp := List.find?_some hrow
  exact countP_updateWhere_lt h (List.mem_of_find?_eq_some hrow) hp (hq row hp)

theorem updateUnique_eq {b : Option Session} (h : s.updateUnique p f = some (b, s')) :
    uniqueColumns s'.sessions = true ∧ b = (s.update p f).1 ∧ s' = (s.update p f).2 := by
  unfold State.updateUnique at h
  split at h
  · next hunique =>
    cases h
    exact ⟨hunique, rfl, rfl⟩
  · cases h

/-- A statement that a constraint may refuse, and that makes no row pass the test. -/
theorem countP_tries_le (h : Tries (s.updateUnique p f) s s')
    (hq : ∀ r, p r = true → q (f r) = true → q r = true) : s'.sessions.countP q ≤
      s.sessions.countP q := by
  rcases h with ⟨-, rfl⟩ | ⟨b, h⟩
  · exact Nat.le_refl _
  · obtain ⟨-, -, rfl⟩ := updateUnique_eq h
    exact countP_update_le hq

/-- One that makes rows pass a test which only one row can pass. -/
theorem countP_tries_le_add_one (h : Tries (s.updateUnique p f) s s')
    (hq : ∀ rows, uniqueColumns rows = true → rows.countP q ≤ 1) :
    s'.sessions.countP q ≤ s.sessions.countP q + 1 := by
  rcases h with ⟨-, rfl⟩ | ⟨b, h⟩
  · exact Nat.le_add_right _ 1
  · exact Nat.le_trans (hq _ (updateUnique_eq h).1) (Nat.le_add_left 1 _)

theorem now_of_tries (h : Tries (s.updateUnique p f) s s') : s'.now = s.now := by
  rcases h with ⟨-, rfl⟩ | ⟨b, h⟩
  · rfl
  · obtain ⟨-, -, rfl⟩ := updateUnique_eq h
    rfl

theorem after_mono {now now' : Timestamp} (h : now ≤ now') {t : Option Timestamp}
    (ht : after now' t = true) : after now t = true := by
  cases t with
  | none => cases ht
  | some t =>
    simp only [after, Option.any_some, decide_eq_true_eq] at ht ⊢
    exact Int.lt_of_le_of_lt h ht

end Count

/-! ## Time -/

section Time

variable {o : Provider} {r : Request} {l : Stmt} {seen : List (Stmt × State)} {s s' : State}

theorem Effect.now (h : Effect l s s') : s'.now = s.now := by
  cases l with
  | createPar =>
    rcases h with rfl | ⟨row, -, -, rfl⟩
    · rfl
    · rfl
  | approveRequest uri did =>
    obtain ⟨user, rfl⟩ := h
    rfl
  | storeAuthorizationCode | storeTokenArtifacts | rotateRefreshToken => exact now_of_tries h
  | _ =>
    obtain rfl := h
    rfl

theorem envStep_now (e : EnvEvent) (s : State) : s.now ≤ (envStep e s).now := by
  cases e with
  | tick d => exact Int.le_add_of_nonneg_right (Int.natCast_nonneg d)
  | _ => exact Int.le_refl _

/-- The states a request saw were not later than the one it acts in. -/
theorem provider_traced (o : Provider) :
    (provider o).Traces (fun _ _ => True) (fun _ _ => True) (Step o) (GrantPost o) (fun _ => True)
      fun s s' => s.now ≤ s'.now where
  prog := handle_keep o
  refl _ := Int.le_refl _
  trans _ _ _ := Int.le_trans
  exec _ _ _ hstep := ⟨trivial, Int.le_of_eq hstep.1.now.symm⟩
  env {e s} _ _ := ⟨trivial, envStep_now e s⟩

end Time

/-! ## Codes -/

section Codes

variable {o : Provider} {r : Request} {l : Stmt} {seen : List (Stmt × State)} {s s' : State}
  {code : String}

/-- The test of `consume_authorization_code`. -/
def liveCode (code : String) (now : Timestamp) (r : Session) : Bool :=
  r.authorizationCode == some code && r.revokedAt.isNone && after now r.authorizationCodeExpiresAt

def liveCodes (code : String) (s : State) : Nat := s.sessions.countP (liveCode code s.now)

/-- How often a statement puts the code into the table, to be used. -/
def stores (code : String) : Stmt → State → Nat
  | .storeAuthorizationCode _ c _, _ => if c = code then 1 else 0
  | _, _ => 0

theorem liveCode_code {now : Timestamp} {row : Session} (h : liveCode code now row = true) :
    row.authorizationCode = some code := by
  simp only [liveCode, Bool.and_eq_true, beq_iff_eq] at h
  exact h.1.1

theorem liveCode_revokedAt {now : Timestamp} {row : Session} (h : liveCode code now row = true) :
    row.revokedAt = none := by
  simp only [liveCode, Bool.and_eq_true, Option.isNone_iff_eq_none] at h
  exact h.1.2

theorem liveCode_unique {now : Timestamp} {rows : List Session} (h : uniqueColumns rows = true) :
    rows.countP (liveCode code now) ≤ 1 := by
  refine Nat.le_trans (List.countP_mono_left fun row _ hlive => ?_) (uniqueColumns_code h code)
  rw [liveCode_code hlive]
  exact beq_self_eq_true _

/-- What revokes rows makes no code live. -/
theorem liveCodes_revoke {p : Session → Bool} {f : Session → Session}
    (hf : ∀ row, (f row).revokedAt ≠ none) : liveCodes code (s.update p f).2 ≤ liveCodes code s :=
  countP_update_le fun row _ hlive => absurd (liveCode_revokedAt hlive) (hf row)

theorem liveCodes_mono (hnow : s.now ≤ s'.now) (hrows : s'.sessions = s.sessions) :
    liveCodes code s' ≤ liveCodes code s := by
  unfold liveCodes
  rw [hrows]
  refine List.countP_mono_left fun row _ hlive => ?_
  simp only [liveCode, Bool.and_eq_true] at hlive ⊢
  exact ⟨hlive.1, after_mono hnow hlive.2⟩

theorem envStep_liveCodes (e : EnvEvent) (s : State) :
    liveCodes code (envStep e s) ≤ liveCodes code s := by
  cases e with
  | tick d => exact liveCodes_mono (envStep_now (.tick d) s) rfl
  | setIdentities identities => exact liveCodes_mono (Int.le_refl _) rfl
  | revokeSessionsForUser tenant user | revokeSession uri => exact liveCodes_revoke fun row => nofun

/-- A code is used up only while it is live, and then it is not any more. What is written back has
expired: its expiry was the time of day when the request looked. -/
theorem step_liveCodes (hseen : ∀ x ∈ seen, x.2.now ≤ s.now) (h : Step o r l seen s s') :
    consumes code l s + liveCodes code s' ≤ liveCodes code s + stores code l s := by
  obtain ⟨heffect, hbefore⟩ := h
  have hnow := heffect.now
  have hnone : liveCodes code s' ≤ liveCodes code s →
    0 + liveCodes code s' ≤ liveCodes code s + 0 := by
    omega
  cases l with
  | createPar =>
    refine hnone ?_
    rcases heffect with rfl | ⟨row, hcode, -, rfl⟩
    · exact Nat.le_refl _
    · simp [liveCodes, State.withSessions, liveCode, hcode]
  | approveRequest uri did =>
    refine hnone ?_
    obtain ⟨user, rfl⟩ := heffect
    exact countP_update_le fun row _ hlive => hlive
  | storeAuthorizationCode uri c expiresAt =>
    show 0 + liveCodes code s' ≤ liveCodes code s + if c = code then 1 else 0
    rw [Nat.zero_add]
    unfold liveCodes
    rw [hnow]
    split
    · exact countP_tries_le_add_one heffect fun rows => liveCode_unique
    · next hc =>
      refine countP_tries_le heffect fun row _ hlive => ?_
      exact absurd (Option.some_inj.mp (liveCode_code hlive)) hc
  | consumeAuthorizationCode c =>
    obtain rfl := heffect
    show (if c = code ∧ (s.consumeAuthorizationCode c).1.isSome = true then 1 else 0) +
      liveCodes code (s.consumeAuthorizationCode c).2 ≤ liveCodes code s + 0
    split
    · next hused =>
      obtain ⟨rfl, hfound⟩ := hused
      have hlt : liveCodes c (s.consumeAuthorizationCode c).2 < liveCodes c s :=
        countP_update_lt (fun row _ => rfl) (fun _ hp => hp) hfound
      omega
    · exact hnone (countP_update_le fun row _ hlive => nomatch liveCode_code hlive)
  | storeTokenArtifacts uri tokens =>
    refine hnone ?_
    unfold liveCodes
    rw [hnow]
    refine countP_tries_le heffect fun row _ hlive => ?_
    obtain ⟨-, -, s₀, hs₀, hexpiry⟩ := hbefore
    have hle : tokens.authorizationCodeExpiresAt ≤ s.now := hexpiry ▸ hseen _ hs₀
    simp only [liveCode, after, Option.any_some, Bool.and_eq_true, decide_eq_true_eq] at hlive
    exact absurd hlive.2 (Int.not_lt.mpr hle)
  | rotateRefreshToken uri previous tokens =>
    refine hnone ?_
    unfold liveCodes
    rw [hnow]
    exact countP_tries_le heffect fun row _ hlive => hlive
  | revokeSession uri | revokeRefreshSession hash =>
    refine hnone ?_
    obtain rfl := heffect
    exact liveCodes_revoke fun row => nofun
  | _ =>
    obtain rfl := heffect
    exact hnone (Nat.le_refl _)

theorem codes_ledger (o : Provider) (code : String) :
    (provider o).Ledger (fun _ _ => True) (fun _ _ => True) (Step o) (fun _ => True)
      (fun s s' => s.now ≤ s'.now) (liveCodes code) (consumes code) (stores code) where
  exec _ hseen _ hstep := step_liveCodes (fun x hx => (hseen x hx).2) hstep
  env {e s} _ _ := envStep_liveCodes e s

/-- How often a request may store the code: once, if it drew it. -/
def storesMay (code : String) (r : Request) : Nat := if r.drawnCode = some code then 1 else 0

theorem step_stores (h : Step o r l seen s s') (hle : tally (stores code) seen ≤ storesMay code r) :
    stores code l s + tally (stores code) seen ≤ storesMay code r := by
  cases l with
  | storeAuthorizationCode uri c expiresAt =>
    obtain ⟨-, ⟨headers, rfl⟩, hfirst⟩ := h
    have hnone : tally (stores code) seen = 0 := by
      refine tally_eq_zero fun x hx => ?_
      have hnot := hfirst x hx
      obtain ⟨l, s⟩ := x
      cases l <;> first | rfl | cases hnot
    rw [hnone]
    simp [stores, storesMay, Request.drawnCode]
  | _ =>
    rw [stores, Nat.zero_add]
    · exact hle
    · simp

end Codes

/-! ## Refresh tokens -/

section Tokens

variable {o : Provider} {r : Request} {l : Stmt} {seen : List (Stmt × State)} {s s' : State}
  {hash : String}

/-- The test of `rotate_refresh_token`, but for the session it names. -/
def liveToken (hash : String) (now : Timestamp) (r : Session) : Bool :=
  r.refreshTokenHash == some hash && r.revokedAt.isNone && r.refreshTokenRevokedAt.isNone &&
    after now r.refreshTokenExpiresAt

def liveTokens (hash : String) (s : State) : Nat := s.sessions.countP (liveToken hash s.now)

/-- How often a statement puts the token into the table. -/
def issues (hash : String) : Stmt → State → Nat
  | .storeTokenArtifacts _ tokens, _ => if tokens.refreshTokenHash = hash then 1 else 0
  | .rotateRefreshToken _ _ tokens, _ => if tokens.refreshTokenHash = hash then 1 else 0
  | _, _ => 0

theorem liveToken_hash {now : Timestamp} {row : Session} (h : liveToken hash now row = true) :
    row.refreshTokenHash = some hash := by
  simp only [liveToken, Bool.and_eq_true, beq_iff_eq] at h
  exact h.1.1.1

theorem liveToken_revokedAt {now : Timestamp} {row : Session} (h : liveToken hash now row = true) :
    row.revokedAt = none := by
  simp only [liveToken, Bool.and_eq_true, Option.isNone_iff_eq_none] at h
  exact h.1.1.2

theorem liveToken_unique {now : Timestamp} {rows : List Session} (h : uniqueColumns rows = true) :
    rows.countP (liveToken hash now) ≤ 1 := by
  refine Nat.le_trans (List.countP_mono_left fun row _ hlive => ?_) (uniqueColumns_hash h hash)
  rw [liveToken_hash hlive]
  exact beq_self_eq_true _

theorem liveTokens_revoke {p : Session → Bool} {f : Session → Session}
    (hf : ∀ row, (f row).revokedAt ≠ none) : liveTokens hash (s.update p f).2 ≤ liveTokens hash s :=
  countP_update_le fun row _ hlive => absurd (liveToken_revokedAt hlive) (hf row)

theorem liveTokens_mono (hnow : s.now ≤ s'.now) (hrows : s'.sessions = s.sessions) :
    liveTokens hash s' ≤ liveTokens hash s := by
  unfold liveTokens
  rw [hrows]
  refine List.countP_mono_left fun row _ hlive => ?_
  simp only [liveToken, Bool.and_eq_true] at hlive ⊢
  exact ⟨hlive.1, after_mono hnow hlive.2⟩

theorem envStep_liveTokens (e : EnvEvent) (s : State) :
    liveTokens hash (envStep e s) ≤ liveTokens hash s := by
  cases e with
  | tick d => exact liveTokens_mono (envStep_now (.tick d) s) rfl
  | setIdentities identities => exact liveTokens_mono (Int.le_refl _) rfl
  | revokeSessionsForUser tenant user | revokeSession uri =>
    exact liveTokens_revoke fun row => nofun

/-- A write of a new token: what it makes live is the token it issues. -/
theorem liveTokens_tries {p : Session → Bool} {f : Session → Session} {hash' : String}
    (h : Tries (s.updateUnique p f) s s') (hf : ∀ row, (f row).refreshTokenHash = some hash') :
    liveTokens hash s' ≤ liveTokens hash s + if hash' = hash then 1 else 0 := by
  unfold liveTokens
  rw [now_of_tries h]
  split
  · exact countP_tries_le_add_one h fun rows => liveToken_unique
  · next hne =>
    refine countP_tries_le h fun row _ hlive => ?_
    have hhash := liveToken_hash hlive
    rw [hf row] at hhash
    exact absurd (Option.some_inj.mp hhash) hne

/-- The statement that takes a token out puts its successor in, maybe one of the same hash. -/
theorem rotate_liveTokens {uri previous : String} {tokens : IssueTokens}
    (h : Tries (s.rotateRefreshToken uri previous tokens) s s') :
    rotates hash (.rotateRefreshToken uri previous tokens) s + liveTokens hash s' ≤
      liveTokens hash s + if tokens.refreshTokenHash = hash then 1 else 0 := by
  have hle : liveTokens hash s' ≤ liveTokens hash s + if tokens.refreshTokenHash =
    hash then 1 else 0 :=
    liveTokens_tries h fun _ => rfl
  show (if _ then 1 else 0) + _ ≤ _
  split
  · next hused =>
    obtain ⟨rfl, hwritten⟩ := hused
    rcases h with ⟨hnone, -⟩ | ⟨b, h⟩
    · rw [written, hnone] at hwritten
      cases hwritten
    · rw [written, h] at hwritten
      obtain ⟨hunique, rfl, rfl⟩ := updateUnique_eq h
      have hsub : ∀ row : Session,
        (row.requestUri == uri && row.refreshTokenHash == some previous &&
          row.revokedAt.isNone && row.refreshTokenRevokedAt.isNone &&
          after s.now row.refreshTokenExpiresAt) = true → liveToken previous s.now row = true := by
        intro row hp
        simp only [liveToken, Bool.and_eq_true] at hp ⊢
        exact ⟨⟨⟨hp.1.1.1.2, hp.1.1.2⟩, hp.1.2⟩, hp.2⟩
      split
      · -- the row that was found was live, and only one is
        obtain ⟨row, hrow⟩ := Option.isSome_iff_exists.mp (Option.isSome_map ▸ hwritten)
        have hlive := List.find?_some hrow
        have hpos : 0 < liveTokens previous s :=
          List.countP_pos_iff.mpr ⟨row, List.mem_of_find?_eq_some hrow, hsub row hlive⟩
        have hone : liveTokens previous _ ≤ 1 := liveToken_unique hunique
        omega
      · next hne =>
        refine Nat.add_comm _ _ ▸ countP_update_lt (fun row _ => ?_) hsub hwritten
        simp [liveToken, hne]
  · omega

theorem step_liveTokens (h : Step o r l seen s s') :
    rotates hash l s + liveTokens hash s' ≤ liveTokens hash s + issues hash l s := by
  obtain ⟨heffect, -⟩ := h
  have hnow := heffect.now
  have hnone : liveTokens hash s' ≤ liveTokens hash s →
    0 + liveTokens hash s' ≤ liveTokens hash s + 0 := by
    omega
  cases l with
  | createPar =>
    refine hnone ?_
    rcases heffect with rfl | ⟨row, -, hhash, rfl⟩
    · exact Nat.le_refl _
    · simp [liveTokens, State.withSessions, liveToken, hhash]
  | approveRequest uri did =>
    refine hnone ?_
    obtain ⟨user, rfl⟩ := heffect
    exact countP_update_le fun row _ hlive => hlive
  | storeAuthorizationCode uri code expiresAt =>
    refine hnone ?_
    unfold liveTokens
    rw [hnow]
    exact countP_tries_le heffect fun row _ hlive => hlive
  | consumeAuthorizationCode code =>
    refine hnone ?_
    obtain rfl := heffect
    exact countP_update_le fun row _ hlive => hlive
  | storeTokenArtifacts uri tokens =>
    show 0 + liveTokens hash s' ≤ _
    rw [Nat.zero_add]
    exact liveTokens_tries heffect fun _ => rfl
  | rotateRefreshToken uri previous tokens => exact rotate_liveTokens heffect
  | revokeSession uri | revokeRefreshSession hash =>
    refine hnone ?_
    obtain rfl := heffect
    exact liveTokens_revoke fun row => nofun
  | _ =>
    obtain rfl := heffect
    exact hnone (Nat.le_refl _)

theorem tokens_ledger (o : Provider) (hash : String) :
    (provider o).Ledger (fun _ _ => True) (fun _ _ => True) (Step o) (fun _ => True)
      (fun s s' => s.now ≤ s'.now) (liveTokens hash) (rotates hash) (issues hash) where
  exec _ _ _ hstep := step_liveTokens hstep
  env {e s} _ _ := envStep_liveTokens e s

/-- How often a request may issue the token: once, if it drew it. -/
def issuesMay (o : Provider) (hash : String) (r : Request) : Nat :=
  if r.drawnHash o = some hash then 1 else 0

theorem step_issues (h : Step o r l seen s s')
    (hle : tally (issues hash) seen ≤ issuesMay o hash r) :
    issues hash l s + tally (issues hash) seen ≤ issuesMay o hash r := by
  have hnone : (∀ x ∈ seen, x.1.issues = false) → tally (issues hash) seen = 0 := by
    refine fun hfirst => tally_eq_zero fun x hx => ?_
    have hnot := hfirst x hx
    obtain ⟨l, s⟩ := x
    cases l <;> first | rfl | cases hnot
  cases l with
  | storeTokenArtifacts uri tokens =>
    obtain ⟨-, ⟨req, rfl, hhash⟩, hfirst, -⟩ := h
    rw [hnone hfirst]
    simp [issues, issuesMay, Request.drawnHash, hhash]
  | rotateRefreshToken uri previous tokens =>
    obtain ⟨-, ⟨req, rfl, hhash⟩, hfirst⟩ := h
    rw [hnone hfirst]
    simp [issues, issuesMay, Request.drawnHash, hhash]
  | _ =>
    rw [issues, Nat.zero_add]
    · exact hle
    all_goals simp

end Tokens

/-! ## Whole runs -/

section Runs

variable {o : Provider} {s : State} {es : List (Ev Request EnvEvent)}

theorem allowed_all (o : Provider) (c : Pool) (es : List (Ev Request EnvEvent)) :
    Along (provider o).step (System.Allowed (fun _ _ => True) fun _ _ => True) c es := by
  refine (Along.of_forall (P := fun _ => True) (fun _ _ => trivial) c).mono fun c e _ => ?_
  cases e with
  | spawn r => trivial
  | env e => trivial
  | exec i => exact fun _ _ _ _ => trivial

/-- The table and the requests together have at most one live code to offer. -/
theorem DrawnOnce.code_le_one (h : DrawnOnce o s es) (code : String) :
    liveCodes code s + ((System.spawned es).map (storesMay code)).sum ≤ 1 := by
  refine add_drawn_le_one h.codes (liveCode_unique h.table) fun hpos r hr hdrawn => ?_
  obtain ⟨row, hrow, hlive⟩ := List.countP_pos_iff.mp hpos
  exact h.newCodes r hr code hdrawn row hrow (liveCode_code hlive)

theorem DrawnOnce.token_le_one (h : DrawnOnce o s es) (hash : String) :
    liveTokens hash s + ((System.spawned es).map (issuesMay o hash)).sum ≤ 1 := by
  refine add_drawn_le_one h.hashes (liveToken_unique h.table) fun hpos r hr hdrawn => ?_
  obtain ⟨row, hrow, hlive⟩ := List.countP_pos_iff.mp hpos
  exact h.newHashes r hr hash hdrawn row hrow (liveToken_hash hlive)

/-- A request that got tokens has used up what it presented. -/
theorem granted (o : Provider) (s : State) (es : List (Ev Request EnvEvent))
    {t : Thread Request Stmt State AuthError Response}
    (ht : t ∈ (run (provider o).step (.init s) es).threads)
    {req : TokenRequest} {response : TokenResponse} (hreq : t.req = .token req)
    (hresult : t.result? = some (.ok (.token response))) :
    response.refreshToken = req.newRefreshToken ∧ Granted o req t.seen := by
  have htraced := (provider_traced o).run (System.traced_init trivial) (allowed_all o (.init s) es)
  obtain ⟨req', hreq', hresponse, hgranted⟩ := htraced.meets.result ht hresult
  obtain rfl : req = req' := Request.token.inj (hreq.symm.trans hreq')
  exact ⟨hresponse, hgranted⟩

theorem Granted.consumes {req : TokenRequest} {seen : List (Stmt × State)} {code : String}
    (h : Granted o req seen) (hgrant : req.grantType = "authorization_code")
    (hcode : req.code = some code) :
    1 ≤ tally (consumes code) seen := by
  obtain ⟨l, s, rest, rfl, ⟨-, ⟨code', hcode', hused⟩, -⟩ | ⟨hrefresh, -⟩⟩ := h
  · obtain rfl : code = code' := Option.some_inj.mp (hcode.symm.trans hcode')
    exact Nat.le_add_left_of_le hused
  · rw [hgrant] at hrefresh
    exact absurd hrefresh (by decide)

theorem Granted.rotates {req : TokenRequest} {seen : List (Stmt × State)} {token : String}
    (h : Granted o req seen) (hgrant : req.grantType = "refresh_token")
    (htoken : req.refreshToken = some token) : 1 ≤
      tally (rotates (o.hashRefreshToken token)) seen := by
  obtain ⟨l, s, rest, rfl, ⟨hcode, -⟩ | ⟨-, token', uri, tokens, htoken', rfl, -, hwritten⟩⟩ := h
  · rw [hgrant] at hcode
    exact absurd hcode (by decide)
  · obtain rfl : token = token' := Option.some_inj.mp (htoken.symm.trans htoken')
    refine Nat.le_add_right_of_le ?_
    show 1 ≤ if _ then 1 else 0
    rw [if_pos ⟨rfl, hwritten⟩]

end Runs

/-- **Codes and refresh tokens are used once**, in every interleaving. -/
theorem codes_and_tokens_used_once {o : Provider} {s : State} {es : List (Ev Request EnvEvent)}
    (h : DrawnOnce o s es) :
    (∀ code, AtMostOne (Exchanged code) (run (provider o).step (.init s) es)) ∧
      ∀ token, AtMostOne (Refreshed token) (run (provider o).step (.init s) es) := by
  have hok := allowed_all o (.init s) es
  have htraces := provider_traced o
  constructor
  · intro code i j t u ht hu hexchanged hexchanged'
    obtain ⟨req, response, hreq, hgrant, hcode, hresult⟩ := hexchanged
    obtain ⟨req', response', hreq', hgrant', hcode', hresult'⟩ := hexchanged'
    have hused := (granted o s es (List.mem_of_getElem? ht) hreq hresult).2.consumes hgrant hcode
    have hused' :=
      (granted o s es (List.mem_of_getElem? hu) hreq' hresult').2.consumes hgrant' hcode'
    have hspent := (codes_ledger o code).spent_le htraces _ step_stores trivial hok
    have hone := h.code_le_one code
    exact Conf.eq_of_tally_le_one (by omega) ht hu hused hused'
  · intro token i j t u ht hu hrefreshed hrefreshed'
    obtain ⟨req, response, hreq, hgrant, htoken, hresult⟩ := hrefreshed
    obtain ⟨req', response', hreq', hgrant', htoken', hresult'⟩ := hrefreshed'
    have hused := (granted o s es (List.mem_of_getElem? ht) hreq hresult).2.rotates hgrant htoken
    have hused' :=
      (granted o s es (List.mem_of_getElem? hu) hreq' hresult').2.rotates hgrant' htoken'
    have hspent :=
      (tokens_ledger o (o.hashRefreshToken token)).spent_le htraces _ step_issues trivial hok
    have hone := h.token_le_one (o.hashRefreshToken token)
    exact Conf.eq_of_tally_le_one (by omega) ht hu hused hused'

/-! Two exchanges of one code and two refreshes of one token, each pair with its first statements
interleaved. -/

def secondExchange : TokenRequest :=
  { exchange with newRefreshToken := "refresh-3", jti := "jti-3" }

def secondRefresh : TokenRequest := { refresh with newRefreshToken := "refresh-4", jti := "jti-4" }

def approved : List (Ev Request EnvEvent) :=
  [.spawn (.par pushed), .exec 0, .spawn (approval "alice" "code-a")] ++ List.replicate 6 (.exec 1)

def racingExchanges : List (Ev Request EnvEvent) :=
  [.spawn (.token exchange), .spawn (.token secondExchange), .exec 2, .exec 3, .exec 2,
    .exec 2, .exec 2,
    .exec 3, .exec 3, .exec 3]

def racingRefreshes : List (Ev Request EnvEvent) :=
  [.spawn (.token refresh), .spawn (.token secondRefresh), .exec 4, .exec 5, .exec 4,
    .exec 5, .exec 4,
    .exec 5]

def racingGrants : List (Ev Request EnvEvent) := approved ++ racingExchanges ++ racingRefreshes

theorem racingGrants_drawn : DrawnOnce sharedProvider sharedState racingGrants :=
  ⟨by decide, by decide, by decide, by decide, by decide⟩

theorem codes_and_tokens_used_once_racing :
    ((run (provider sharedProvider).step (.init sharedState) racingGrants).threads.map
        fun t => t.result?.map (·.isOk)) =
        [some true, some true, some true, some false, some true, some false] ∧
      (∀ code, AtMostOne (Exchanged code)
        (run (provider sharedProvider).step (.init sharedState) racingGrants)) ∧
      ∀ token, AtMostOne (Refreshed token)
        (run (provider sharedProvider).step (.init sharedState) racingGrants) :=
  ⟨by decide, codes_and_tokens_used_once racingGrants_drawn⟩

end Keycast.Atproto
