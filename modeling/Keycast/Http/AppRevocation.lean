import Keycast.Http.CustomerDeletion
import Keycast.Http.Revocation
import Keycast.Lib.Interrupted

/-!
# `Http/AppRevocation.lean` — an app that was not revoked to the end

`revoke_customer_app` marks all that a customer has granted an app in one statement, and then goes
through what it has marked: the refresh tokens of each authorization are revoked, its handlers are
dropped, the signer is told. Where that is cut short the rest of the list is left. The customer can
only ask again; then nothing is marked any more, the answer is "not found", and nobody comes back
for the rest.

`app_forgotten_iff` says exactly when that does no harm.

A request that is cut short is one of the states of its program (`Lib/Interrupted.lean`). The loop
is a list of pieces with the same three statements, so that what it has reached is a prefix of the
authorizations (`reachedTokens`, `reachedHandlers`), and what it leaves is described by what it has
dropped (`Remains`, `forgetAuthorizations_remains`). Once the authorizations are marked a repeated
request finds nothing (`revokeCustomerApp_unrevoked`); before that the first has done nothing and
the second does all.
-/

set_option autoImplicit false

namespace Keycast.Http

open Lib

/-! ## What is to be forgotten -/

/-- An app that a customer has let act for them. -/
structure GrantedApp where
  user : PublicKey
  origin : String
  tenant : TenantId

namespace GrantedApp

def owns (x : GrantedApp) (a : OAuthAuthorization) : Bool :=
  a.userPubkey == x.user && a.redirectOrigin == x.origin && a.tenantId == x.tenant

/-- Its authorizations, revoked or not, with their bunker keys. -/
def authorizations (x : GrantedApp) (s : State) : List (RowId × PublicKey) :=
  (s.db.oauthAuthorizations.filter x.owns).map fun a => (a.id, a.bunkerPublicKey)

/-- What `revoke_by_origin` returns. -/
def unrevoked (x : GrantedApp) (s : State) : List (RowId × PublicKey) :=
  (s.db.oauthAuthorizations.filter fun a => x.owns a && a.revokedAt.isNone).map fun a =>
    (a.id, a.bunkerPublicKey)

end GrantedApp

/-- The authorization has a refresh token that is neither revoked nor consumed. -/
def HasRefreshToken (s : State) (id : RowId) : Prop :=
  ∃ t ∈ s.db.refreshTokens, t.authorizationId = id ∧ t.consumedAt = none

def IsCached (inst : InstanceId) (s : State) (h : HttpRpcHandler) : Prop :=
  ∃ key, (s.caches inst).get key = some h

/-- No authorization of the app is cached, and none can be refreshed. -/
structure GrantedApp.Forgotten (w : Web) (inst : InstanceId) (x : GrantedApp)
    (s : State) : Prop where
  handlers : ∀ a ∈ x.authorizations s, ∀ h, IsCached inst s h → ¬ OfBunker w a.2 h
  tokens : ∀ a ∈ x.authorizations s, ¬ HasRefreshToken s a.1

/-! ## Two requests -/

/-- Where the first request ends. When the process stops its cache is gone. -/
structure CutShort where
  statements : Nat
  processStops : Bool := false
  deriving DecidableEq, Repr

/-- The first request. -/
def revokedUpTo (w : Web) (inst : InstanceId) (x : GrantedApp) (headers : Headers)
    (cut : CutShort) (s : State) :
    State :=
  let s' := (revokeCustomerApp w inst headers x.tenant x.origin).interrupted cut.statements s
  if cut.processStops then s'.updateCache inst fun _ => .empty else s'

def State.later (s : State) (d : Nat) : State := { s with now := s.now + d }

/-- After `d` the customer repeats it. -/
def revokedAgain (w : Web) (inst : InstanceId) (x : GrantedApp) (headers headers' : Headers)
    (cut : CutShort) (d : Nat)
    (s : State) : Except AuthError (Option Unit) × State :=
  (revokeCustomerApp w inst headers' x.tenant x.origin).run
    ((revokedUpTo w inst x headers cut s).later d)

/-- When that is answered with success or "not found", nothing of the app is left. -/
def ForgottenInTheEnd (w : Web) (inst : InstanceId) (x : GrantedApp) (headers headers' : Headers)
    (cut : CutShort)
    (d : Nat) (s : State) : Prop :=
  ∀ answer, (revokedAgain w inst x headers headers' cut d s).1 = .ok answer →
    x.Forgotten w inst (revokedAgain w inst x headers headers' cut d s).2

/-- The customer is signed in. -/
def SignedIn (w : Web) (x : GrantedApp) (headers : Headers) (now : Timestamp) : Prop :=
  ∃ header session, headers.authorization.bind id = some header ∧
    validateUcanToken w now header x.tenant = .ok session ∧ session.1 = x.user

/-! ## How far the first request came

The clock is read, what the app has is marked, and then there are three statements for each: nothing
is marked by the first statement, and the refresh tokens of the first authorization are revoked by
the third. A request that has not marked anything leaves all of it to the second. -/

namespace GrantedApp

/-- Whose refresh tokens were revoked. -/
def reachedTokens (x : GrantedApp) (n : Nat) (s : State) : List (RowId × PublicKey) :=
  if n < 2 then x.unrevoked s else (x.unrevoked s).take (n / 3)

/-- Whose handlers were dropped. -/
def reachedHandlers (x : GrantedApp) (n : Nat) (s : State) : List (RowId × PublicKey) :=
  if n < 2 then x.unrevoked s else (x.unrevoked s).take ((n - 1) / 3)

end GrantedApp

/-- What `invalidate_handlers_for_bunker` drops. -/
def dropsHandler (w : Web) (bunker : PublicKey) (h : HttpRpcHandler) : Bool :=
  match w.parseCacheKey bunker with
  | .ok key => h.bunkerPubkey == key
  | .error _ => true

theorem OfBunker.dropsHandler {w : Web} {bunker : PublicKey} {h : HttpRpcHandler}
    (hof : OfBunker w bunker h) :
    dropsHandler w bunker h = true := by
  unfold Http.dropsHandler
  rw [hof.2]
  exact beq_self_eq_true _

/-- All that the app had to lose was reached before the first request ended. -/
structure GrantedApp.Reached (w : Web) (inst : InstanceId) (x : GrantedApp) (cut : CutShort)
    (s : State) : Prop where
  tokens : ∀ a ∈ x.authorizations s, HasRefreshToken s a.1 →
    ∃ b ∈ x.reachedTokens cut.statements s, b.1 = a.1
  handlers : cut.processStops = false → ∀ a ∈ x.authorizations s, ∀ h, IsCached inst s h →
    OfBunker w a.2 h →
    ∃ b ∈ x.reachedHandlers cut.statements s, dropsHandler w b.2 h = true

/-! ## What the statements leave -/

section Remains

variable {w : Web} {inst : InstanceId} {x : GrantedApp} {tokens tokens' : RowId → Prop}
  {handlers handlers' : HttpRpcHandler → Prop} {s s' s'' : State}

/-- Of the refresh tokens and the handlers that there were, some are left. -/
structure Remains (x : GrantedApp) (inst : InstanceId) (tokens : RowId → Prop)
    (handlers : HttpRpcHandler → Prop)
    (s s' : State) : Prop where
  now : s'.now = s.now
  authorizations : x.authorizations s' = x.authorizations s
  unrevoked : x.unrevoked s = [] → x.unrevoked s' = []
  tokens : ∀ id, HasRefreshToken s' id ↔ HasRefreshToken s id ∧ tokens id
  handlers : ∀ h, IsCached inst s' h ↔ IsCached inst s h ∧ handlers h

theorem Remains.refl : Remains x inst (fun _ => True) (fun _ => True) s s where
  now := rfl
  authorizations := rfl
  unrevoked h := h
  tokens _ := (and_iff_left trivial).symm
  handlers _ := (and_iff_left trivial).symm

theorem Remains.trans (h : Remains x inst tokens handlers s s')
    (h' : Remains x inst tokens' handlers' s' s'') :
    Remains x inst (fun id => tokens id ∧ tokens' id) (fun r => handlers r ∧
      handlers' r) s s'' where
  now := h'.now.trans h.now
  authorizations := h'.authorizations.trans h.authorizations
  unrevoked hnone := h'.unrevoked (h.unrevoked hnone)
  tokens id := by rw [h'.tokens, h.tokens, and_assoc]
  handlers r := by rw [h'.handlers, h.handlers, and_assoc]

theorem Remains.congr (h : Remains x inst tokens handlers s s')
    (htokens : ∀ id, tokens id ↔ tokens' id)
    (hhandlers : ∀ r, handlers r ↔ handlers' r) : Remains x inst tokens' handlers' s s' :=
  { h with
    tokens := fun id => by rw [h.tokens, htokens]
    handlers := fun r => by rw [h.handlers, hhandlers] }

theorem Remains.later (h : Remains x inst tokens handlers s s') (d : Nat) :
    Remains x inst tokens handlers (s.later d) (s'.later d) :=
  { h with now := congrArg (· + (d : Int)) h.now }

theorem Remains.revokeRefreshTokens (id : RowId) :
    Remains x inst (fun id' => id ≠ id') (fun _ => True) s
      (s.withDb (s.db.revokeRefreshTokens s.now id)) where
  now := rfl
  authorizations := rfl
  unrevoked h := h
  tokens id' := by
    constructor
    · rintro ⟨t, ht, rfl, hnone⟩
      rcases mem_updateWhere.mp ht with ⟨t₀, -, -, rfl⟩ | ⟨ht, hp⟩
      · cases hnone
      · refine ⟨⟨t, ht, rfl, hnone⟩, ?_⟩
        rintro rfl
        simp [hnone] at hp
    · rintro ⟨⟨t, ht, rfl, hnone⟩, hne⟩
      refine ⟨t, mem_updateWhere.mpr (.inr ⟨ht, ?_⟩), rfl, hnone⟩
      simp [Ne.symm hne]
  handlers h := (and_iff_left trivial).symm

theorem Remains.invalidateHandlers (bunker : PublicKey) :
    Remains x inst (fun _ => True) (fun h => dropsHandler w bunker h = false) s
      (s.invalidateHandlersForBunker w inst bunker) where
  now := rfl
  authorizations := rfl
  unrevoked h := h
  tokens id := (and_iff_left trivial).symm
  handlers h := by
    have hget : ∀ key,
      ((s.invalidateHandlersForBunker w inst bunker).caches inst).get key = some h ↔
        (s.caches inst).get key = some h ∧ dropsHandler w bunker h = false := by
      intro key
      unfold State.invalidateHandlersForBunker dropsHandler
      rw [State.updateCache_self]
      cases w.parseCacheKey bunker with
      | ok | error => simp [Cache.get_invalidateEntriesIf, Option.filter_eq_some_iff]
    unfold IsCached
    simp only [hget, exists_and_right]

/-- When a process stops. -/
theorem Remains.restart : Remains x inst (fun _ => True)
    (fun _ => False) s (s.updateCache inst fun _ => .empty) where
  now := rfl
  authorizations := rfl
  unrevoked h := h
  tokens id := (and_iff_left trivial).symm
  handlers h := by
    unfold IsCached
    simp [State.updateCache_self]

theorem Remains.forgotten_iff (h : Remains x inst tokens handlers s s') :
    x.Forgotten w inst s' ↔ (∀ a ∈ x.authorizations s, HasRefreshToken s a.1 → ¬ tokens a.1) ∧
      ∀ a ∈ x.authorizations s, ∀ r, IsCached inst s r → OfBunker w a.2 r → ¬ handlers r := by
  constructor
  · rintro ⟨hhandlers, htokens⟩
    rw [h.authorizations] at hhandlers htokens
    exact ⟨fun a ha hold hkept => htokens a ha ((h.tokens a.1).mpr ⟨hold, hkept⟩),
      fun a ha r hold hof hkept => hhandlers a ha r ((h.handlers r).mpr ⟨hold, hkept⟩) hof⟩
  · rintro ⟨htokens, hhandlers⟩
    refine ⟨fun a ha r hr hof => ?_, fun a ha ht => ?_⟩
    · rw [h.authorizations] at ha
      obtain ⟨hold, hkept⟩ := (h.handlers r).mp hr
      exact hhandlers a ha r hold hof hkept
    · rw [h.authorizations] at ha
      obtain ⟨hold, hkept⟩ := (h.tokens a.1).mp ht
      exact htokens a ha hold hkept

end Remains

/-! ## How far the request comes -/

section Runs

variable {w : Web} {inst : InstanceId} {x : GrantedApp} {headers headers' : Headers} {s : State}

/-- The tokens of others. -/
def othersTokens (reached : List (RowId × PublicKey)) (id : RowId) : Prop := ∀ b ∈ reached, b.1 ≠ id

/-- The handlers that none of the keys drops. -/
def othersHandlers (w : Web) (reached : List (RowId × PublicKey)) (h : HttpRpcHandler) : Prop :=
  ∀ b ∈ reached, dropsHandler w b.2 h = false

theorem Remains.nothing : Remains x inst (othersTokens []) (othersHandlers w []) s s :=
  Remains.refl.congr (fun _ => by simp [othersTokens]) fun _ => by simp [othersHandlers]

/-- **The loop**: of three statements the first revokes tokens and the second drops handlers. -/
theorem forgetAuthorizations_remains (revoked : List (RowId × PublicKey)) (n : Nat) (s : State) :
    Remains x inst (othersTokens (revoked.take ((n + 2) / 3)))
      (othersHandlers w (revoked.take ((n + 1) / 3))) s
      ((forgetAuthorizations w inst revoked).interrupted n s) := by
  induction revoked generalizing n s with
  | nil =>
    unfold forgetAuthorizations
    simp only [Prog.pure_def, Prog.interrupted_ret, List.take_nil]
    exact .nothing
  | cons a revoked ih =>
    obtain ⟨id, bunker⟩ := a
    unfold forgetAuthorizations
    simp only [Prog.bind_def, Prog.write_bind]
    match n with
    | 0 => exact .nothing
    | 1 =>
      exact (Remains.revokeRefreshTokens id).congr (fun _ => by simp [othersTokens]) fun _ => by
        simp [othersHandlers]
    | 2 =>
      exact ((Remains.revokeRefreshTokens id).trans (.invalidateHandlers bunker)).congr
        (fun _ => by simp [othersTokens]) fun _ => by simp [othersHandlers]
    | n + 3 =>
      have htokens : (n + 3 + 2) / 3 = (n + 2) / 3 + 1 := by omega
      have hhandlers : (n + 3 + 1) / 3 = (n + 1) / 3 + 1 := by omega
      simp only [Prog.interrupted_atom, htokens, hhandlers, List.take_succ_cons]
      refine (((Remains.revokeRefreshTokens id).trans (.invalidateHandlers bunker)).trans
        (ih n _)).congr
        (fun _ => ?_) fun _ => ?_
      · simp [othersTokens]
      · simp [othersHandlers]

/-- The state once the authorizations are marked. -/
def GrantedApp.marked (x : GrantedApp) (s : State) : State :=
  s.withDb (s.db.revokeOAuthByOrigin s.now x.user x.origin x.tenant)

/-- What the request does after that. -/
def afterMarking (w : Web) (inst : InstanceId) (revoked : List (RowId × PublicKey)) :
    Prog Stmt State AuthError (Option Unit) :=
  if revoked.isEmpty then return none
  else do
    forgetAuthorizations w inst revoked
    return some ()

theorem marked_authorizations : x.authorizations (x.marked s) = x.authorizations s := by
  show (List.filter x.owns (updateWhere _ _ s.db.oauthAuthorizations)).map _ = _
  unfold GrantedApp.authorizations updateWhere
  rw [List.filter_map, List.map_map]
  have howns : ∀ p : OAuthAuthorization → Bool,
      (x.owns ∘ fun a => if p a then { a with revokedAt := some s.now } else a) = x.owns :=
        fun p => funext fun a => by
    simp only [Function.comp]
    split <;> rfl
  rw [howns]
  refine List.map_congr_left fun a _ => ?_
  simp only [Function.comp]
  split <;> rfl

theorem marked_unrevoked : x.unrevoked (x.marked s) = [] := by
  unfold GrantedApp.unrevoked
  rw [List.map_eq_nil_iff, List.filter_eq_nil_iff]
  intro a ha hp
  rw [Bool.and_eq_true] at hp
  rcases mem_updateWhere.mp ha with ⟨a₀, -, -, rfl⟩ | ⟨-, hnot⟩
  · cases hp.2
  · have howns : (x.owns a && a.revokedAt.isNone) = false := hnot
    rw [hp.1, hp.2] at howns
    cases howns

theorem Remains.mark : Remains x inst (fun _ => True) (fun _ => True) s (x.marked s) where
  now := rfl
  authorizations := marked_authorizations
  unrevoked _ := marked_unrevoked
  tokens _ := (and_iff_left trivial).symm
  handlers _ := (and_iff_left trivial).symm

theorem afterMarking_remains (w : Web) (inst : InstanceId)
    (revoked : List (RowId × PublicKey)) (n : Nat)
    (s : State) :
    Remains x inst (othersTokens (revoked.take ((n + 2) / 3)))
      (othersHandlers w (revoked.take ((n + 1) / 3))) s
      ((afterMarking w inst revoked).interrupted n s) := by
  unfold afterMarking
  split
  · next hempty =>
    rw [List.isEmpty_iff.mp hempty]
    simp only [Prog.pure_def, Prog.interrupted_ret, List.take_nil]
    exact .nothing
  · simp only [Prog.bind_def, Prog.pure_def, Prog.interrupted_bind_ret]
    exact forgetAuthorizations_remains revoked n s

/-- The request reads the clock and marks, and then it goes on with what it has marked. -/
theorem revokeCustomerApp_eq (inst : InstanceId) (hcustomer : w.customerTenant = some x.tenant)
    (hsigned : SignedIn w x headers s.now) :
    ∃ k, revokeCustomerApp w inst headers x.tenant x.origin = .atom .clock id k ∧
      k s = .atom .revokeOAuthByOrigin x.marked fun s => afterMarking w inst (x.unrevoked s) := by
  obtain ⟨header, session, hheader, hvalid, huser⟩ := hsigned
  unfold revokeCustomerApp signedInCustomer
  rw [if_neg (not_not.mpr hcustomer), hheader]
  refine ⟨_, rfl, ?_⟩
  simp only [hvalid, Except.mapError, Prog.bind_def, Prog.ofExcept_ok, Prog.ret_bind,
    Prog.pure_def, huser,
    Prog.stmt_bind]
  rfl

/-- Before it has marked anything it has done nothing. -/
theorem revokeCustomerApp_before (inst : InstanceId) {n : Nat} (hn : n < 2)
    (hcustomer : w.customerTenant = some x.tenant) (hsigned : SignedIn w x headers s.now) :
    (revokeCustomerApp w inst headers x.tenant x.origin).interrupted n s = s := by
  obtain ⟨k, hk, hmark⟩ := revokeCustomerApp_eq inst hcustomer hsigned
  match n with
  | 0 => exact Prog.interrupted_zero _ s
  | 1 => rw [hk, Prog.interrupted_atom, id_eq, Prog.interrupted_zero]

theorem revokeCustomerApp_remains (inst : InstanceId) (hcustomer : w.customerTenant = some x.tenant)
    (hsigned : SignedIn w x headers s.now) (n : Nat) :
    Remains x inst (othersTokens ((x.unrevoked s).take ((n + 2) / 3)))
      (othersHandlers w ((x.unrevoked s).take ((n + 1) / 3))) s
      ((revokeCustomerApp w inst headers x.tenant x.origin).interrupted (n + 2) s) := by
  obtain ⟨k, hk, hmark⟩ := revokeCustomerApp_eq inst hcustomer hsigned
  rw [hk, Prog.interrupted_atom, id_eq, hmark, Prog.interrupted_atom]
  exact (Remains.mark.trans (afterMarking_remains w inst (x.unrevoked s) n _)).congr
    (fun _ => and_iff_right trivial) fun _ => and_iff_right trivial

/-- Once it has marked there is nothing to mark. -/
theorem revokeCustomerApp_unrevoked (hcustomer : w.customerTenant = some x.tenant)
    (hsigned : SignedIn w x headers s.now) (n : Nat) :
    x.unrevoked ((revokeCustomerApp w inst headers x.tenant x.origin).interrupted (n + 2) s) =
      [] := by
  obtain ⟨k, hk, hmark⟩ := revokeCustomerApp_eq inst hcustomer hsigned
  rw [hk, Prog.interrupted_atom, id_eq, hmark, Prog.interrupted_atom]
  exact (afterMarking_remains w inst (x.unrevoked s) n _).unrevoked marked_unrevoked

/-- A request that nothing cuts short. -/
theorem revokeCustomerApp_run_remains (hcustomer : w.customerTenant = some x.tenant)
    (hsigned : SignedIn w x headers s.now) :
    Remains x inst (othersTokens (x.unrevoked s)) (othersHandlers w (x.unrevoked s)) s
      ((revokeCustomerApp w inst headers x.tenant x.origin).run s).2 := by
  obtain ⟨n, hn⟩ := (revokeCustomerApp w inst headers x.tenant x.origin).interrupted_eq_run s
  have hremains := revokeCustomerApp_remains inst hcustomer hsigned (n + 3 * (x.unrevoked s).length)
  rwa [hn _ (by omega), List.take_of_length_le (by omega),
    List.take_of_length_le (by omega)] at hremains

theorem forgetAuthorizations_answer (w : Web) (inst : InstanceId)
    (revoked : List (RowId × PublicKey)) (s : State) :
    ((forgetAuthorizations w inst revoked).run s).1 = .ok () := by
  induction revoked generalizing s with
  | nil => rfl
  | cons a revoked ih => exact ih _

/-- It is answered with success or "not found". -/
theorem revokeCustomerApp_answer (hcustomer : w.customerTenant = some x.tenant)
    (hsigned : SignedIn w x headers s.now) :
    ∃ answer, ((revokeCustomerApp w inst headers x.tenant x.origin).run s).1 = .ok answer := by
  obtain ⟨k, hk, hmark⟩ := revokeCustomerApp_eq inst hcustomer hsigned
  rw [hk, Prog.run_atom, id_eq, hmark, Prog.run_atom]
  unfold afterMarking
  split
  · exact ⟨none, rfl⟩
  · refine ⟨some (), ?_⟩
    have hanswer := forgetAuthorizations_answer w inst (x.unrevoked s) (x.marked s)
    rw [Prog.bind_def, Prog.run_bind]
    rcases hrun : (forgetAuthorizations w inst (x.unrevoked s)).run (x.marked s) with ⟨r, s'⟩
    rw [hrun] at hanswer
    obtain rfl : r = .ok () := hanswer
    rfl

/-! ## Both requests -/

variable {cut : CutShort} {d : Nat}

theorem revokedUpTo_remains {tokens : RowId → Prop} {handlers : HttpRpcHandler → Prop}
    (h : Remains x inst tokens handlers s
      ((revokeCustomerApp w inst headers x.tenant x.origin).interrupted cut.statements s)) :
    Remains x inst tokens (fun r => handlers r ∧ cut.processStops = false) s
      (revokedUpTo w inst x headers cut s) := by
  unfold revokedUpTo
  cases hstops : cut.processStops with
  | true => exact (h.trans .restart).congr (fun _ => and_iff_left trivial) fun _ => by simp
  | false => exact h.congr (fun _ => Iff.rfl) fun _ => by simp

theorem revokedUpTo_unrevoked : x.unrevoked (revokedUpTo w inst x headers cut s) =
    x.unrevoked
      ((revokeCustomerApp w inst headers x.tenant x.origin).interrupted cut.statements s) := by
  unfold revokedUpTo
  dsimp only
  split <;> rfl

/-- The first request leaves everything to the second, or nothing that it has not reached. -/
theorem revokedUpTo_reached (inst : InstanceId) (cut : CutShort)
    (hcustomer : w.customerTenant = some x.tenant)
    (hfirst : SignedIn w x headers s.now) :
    ∃ tokens handlers, Remains x inst tokens handlers s (revokedUpTo w inst x headers cut s) ∧
      (∀ id, tokens id ∧ othersTokens (x.unrevoked (revokedUpTo w inst x headers cut s)) id ↔
        othersTokens (x.reachedTokens cut.statements s) id) ∧
      ∀ r, handlers r ∧ othersHandlers w (x.unrevoked (revokedUpTo w inst x headers cut s)) r ↔
        othersHandlers w (x.reachedHandlers cut.statements s) r ∧ cut.processStops = false := by
  unfold GrantedApp.reachedTokens GrantedApp.reachedHandlers
  rw [revokedUpTo_unrevoked]
  by_cases hn : cut.statements < 2
  · have hbefore := revokeCustomerApp_before inst hn hcustomer hfirst
    rw [if_pos hn, if_pos hn, hbefore]
    exact ⟨_, _, revokedUpTo_remains (by rw [hbefore]; exact .refl),
      fun _ => and_iff_right trivial, fun _ => by
      rw [true_and, and_comm]⟩
  · obtain ⟨n, hcut⟩ := Nat.exists_eq_add_of_le' (Nat.le_of_not_lt hn)
    have hremains := revokeCustomerApp_remains inst hcustomer hfirst n
    have hnone :
        x.unrevoked
          ((revokeCustomerApp w inst headers x.tenant x.origin).interrupted cut.statements s) =
            [] := by
      rw [hcut]
      exact revokeCustomerApp_unrevoked hcustomer hfirst n
    rw [if_neg hn, if_neg hn, hnone]
    rw [← hcut] at hremains
    refine ⟨_, _, revokedUpTo_remains hremains, fun _ => ?_, fun _ => ?_⟩
    · simp [othersTokens, hcut]
    · simp [othersHandlers, hcut]

/-- The customer is still signed in. -/
theorem signedIn_again (hcustomer : w.customerTenant = some x.tenant)
    (hfirst : SignedIn w x headers s.now)
    (hagain : SignedIn w x headers' (s.now + d)) :
    SignedIn w x headers' ((revokedUpTo w inst x headers cut s).later d).now := by
  obtain ⟨_, _, hremains, -⟩ := revokedUpTo_reached inst cut hcustomer hfirst
  rw [(hremains.later d).now]
  exact hagain

theorem revokedAgain_remains (hcustomer : w.customerTenant = some x.tenant)
    (hfirst : SignedIn w x headers s.now)
    (hagain : SignedIn w x headers' (s.now + d)) :
    Remains x inst (othersTokens (x.reachedTokens cut.statements s))
      (fun r => othersHandlers w (x.reachedHandlers cut.statements s) r ∧ cut.processStops = false)
      (s.later d) (revokedAgain w inst x headers headers' cut d s).2 := by
  obtain ⟨tokens, handlers, hremains, htokens, hhandlers⟩ :=
    revokedUpTo_reached inst cut hcustomer hfirst
  exact ((hremains.later d).trans (revokeCustomerApp_run_remains hcustomer
    (signedIn_again hcustomer hfirst hagain))).congr htokens hhandlers

theorem revokedAgain_answer (hcustomer : w.customerTenant = some x.tenant)
    (hfirst : SignedIn w x headers s.now)
    (hagain : SignedIn w x headers' (s.now + d)) :
    ∃ answer, (revokedAgain w inst x headers headers' cut d s).1 = .ok answer :=
  revokeCustomerApp_answer hcustomer (signedIn_again hcustomer hfirst hagain)

/-- **Exactly when an app is forgotten**: when nothing that it had to lose came after the point
where the first request was cut short. -/
theorem app_forgotten_iff (hcustomer : w.customerTenant = some x.tenant)
    (hfirst : SignedIn w x headers s.now)
    (hagain : SignedIn w x headers' (s.now + d)) :
    ForgottenInTheEnd w inst x headers headers' cut d s ↔ x.Reached w inst cut s := by
  obtain ⟨answer, hanswer⟩ : ∃ answer,
    (revokedAgain w inst x headers headers' cut d s).1 = .ok answer :=
    revokedAgain_answer hcustomer hfirst hagain
  have hforgotten : ForgottenInTheEnd w inst x headers headers' cut d s ↔
      x.Forgotten w inst (revokedAgain w inst x headers headers' cut d s).2 :=
    ⟨fun h => h answer hanswer, fun h _ _ => h⟩
  rw [hforgotten, (revokedAgain_remains hcustomer hfirst hagain).forgotten_iff]
  constructor
  · rintro ⟨htokens, hhandlers⟩
    refine ⟨fun a ha hold => ?_, fun hkept a ha r hr hof => ?_⟩
    · by_contra hnone
      exact htokens a ha hold fun b hb heq => hnone ⟨b, hb, heq⟩
    · by_contra hnone
      refine hhandlers a ha r hr hof ⟨fun b hb => ?_, hkept⟩
      exact Bool.eq_false_iff.mpr fun hdrops => hnone ⟨b, hb, hdrops⟩
  · rintro ⟨htokens, hhandlers⟩
    refine ⟨fun a ha hold hothers => ?_, fun a ha r hr hof hothers => ?_⟩
    · obtain ⟨b, hb, heq⟩ := htokens a ha hold
      exact hothers b hb heq
    · obtain ⟨b, hb, hdrops⟩ := hhandlers hothers.2 a ha r hr hof
      rw [hothers.1 b hb] at hdrops
      cases hdrops

end Runs

/-! A customer has let an app act for them on two devices. The database fails after the
authorizations were marked: the second request finds nothing, and the refresh tokens and the
handlers of both devices stay. -/

def twoDevices : GrantedApp := ⟨"p", "https://app.example", 1⟩

def deviceHandler (id : RowId) (bunker : PublicKey) : HttpRpcHandler where
  keys := "sk"
  authorizationId := id
  userPubkey := "p"
  expiresAt := none
  revokedAt := none
  permissions := []
  isOauth := true
  bunkerPubkey := bunker
  authorizationHandle := "handle" ++ bunker

def deviceRefreshToken (hash : String) (id : RowId) : RefreshToken where
  tokenHash := hash
  authorizationId := id
  tenantId := 1
  expiresAt := 900000000

def twoDevicesState : State where
  db :=
    { users := [{ pubkey := "p", tenantId := 1, email := some "p@example.com",
                  emailVerified := true }]
      oauthAuthorizations :=
        [{ id := 1, tenantId := 1, userPubkey := "p", redirectOrigin := "https://app.example",
           bunkerPublicKey := "b1", secretHash := "h1" },
         { id := 2, tenantId := 1, userPubkey := "p", redirectOrigin := "https://app.example",
           bunkerPublicKey := "b2", secretHash := "h2" }]
      refreshTokens := [deviceRefreshToken "r1" 1, deviceRefreshToken "r2" 2] }
  now := 0
  caches _ := (Cache.empty.insert "b1" (deviceHandler 1 "b1")).insert "b2" (deviceHandler 2 "b2")

theorem twoDevices_signedIn :
    SignedIn leavingWeb twoDevices (leavingBearer "session") twoDevicesState.now :=
  ⟨"Bearer session", _, rfl, rfl, rfl⟩

theorem twoDevices_stillSignedIn :
    SignedIn leavingWeb twoDevices (leavingBearer "session")
      (twoDevicesState.now + (1000000 : Nat)) :=
  ⟨"Bearer session", _, rfl, rfl, rfl⟩

theorem app_not_forgotten :
    SignedIn leavingWeb twoDevices (leavingBearer "session") twoDevicesState.now ∧
      SignedIn leavingWeb twoDevices (leavingBearer "session")
        (twoDevicesState.now + (1000000 : Nat)) ∧
      ¬ ForgottenInTheEnd leavingWeb 0 twoDevices (leavingBearer "session")
        (leavingBearer "session") ⟨2, false⟩ 1000000
        twoDevicesState := by
  refine ⟨twoDevices_signedIn, twoDevices_stillSignedIn, fun h => ?_⟩
  exact (h none (by decide)).tokens (2, "b2") (by decide)
    ⟨deviceRefreshToken "r2" 2, by decide, rfl, rfl⟩

/-- A request that fails before it has marked anything does no harm. -/
theorem app_forgotten_early :
    ForgottenInTheEnd leavingWeb 0 twoDevices (leavingBearer "session") (leavingBearer "session")
      ⟨1, false⟩ 1000000
      twoDevicesState :=
  (app_forgotten_iff rfl twoDevices_signedIn twoDevices_stillSignedIn).mpr
    ⟨fun a ha _ => ⟨a, ha, rfl⟩, fun _ a ha _ _ hof => ⟨a, ha, hof.dropsHandler⟩⟩

end Keycast.Http
