import Keycast.Atproto.SingleUse

/-!
# `Atproto/Stored.lean` — a token response and the session row behind it

Both grants end with the `UPDATE` that puts the hash of the new refresh token into the session row,
if the row is not revoked. The refresh grant answers with an error when that `UPDATE` finds no row.
The code grant does not look, so a revocation that comes after its code was consumed is not noticed:
it answers with tokens that no row knows.
-/

set_option autoImplicit false

namespace Keycast.Atproto

open Lib Http

/-- The statements that write to a session. -/
def Stmt.writes : Stmt → Bool
  | .createPar | .approveRequest .. | .storeAuthorizationCode .. | .consumeAuthorizationCode _
  | .storeTokenArtifacts .. | .rotateRefreshToken .. | .revokeSession _ | .revokeRefreshSession _ =>
    true
  | .clock | .findByRequestUri | .readyIdentity | .findByCode | .findByRefreshHash => false

/-- The last session write of the request has put the hash of the refresh token into a row, and the
row was not revoked. -/
def StoredToken (o : Provider) (token : String) (seen : List (Stmt × State)) : Prop :=
  ∃ l s row, seen.find? (·.1.writes) = some (l, s) ∧ written l s = some row ∧
    row.refreshTokenHash = some (o.hashRefreshToken token) ∧ row.revokedAt = none

/-- Every request that has been answered with tokens has stored them. -/
def AllStored (o : Provider) (c : Pool) : Prop :=
  ∀ t ∈ c.threads, ∀ response, t.result? = some (.ok (.token response)) →
    StoredToken o response.refreshToken t.seen

/-- The condition: a code grant stores its tokens in a session that is not revoked. -/
def notRevoked : Stmt → State → Bool
  | .storeTokenArtifacts uri _, s => s.sessions.any fun r =>
    r.requestUri == uri && r.revokedAt.isNone
  | _, _ => true

/-- What an update returns is a row it has found, as it is now. -/
theorem update_returns {s s' : State} {p : Session → Bool} {f : Session → Session} {row : Session}
    (h : s.updateUnique p f = some (some row, s')) : ∃ r ∈ s.sessions, p r = true ∧ row = f r := by
  obtain ⟨-, hrow, -⟩ := updateUnique_eq h
  obtain ⟨r, hr, rfl⟩ := Option.map_eq_some_iff.mp hrow.symm
  have hp := List.find?_some hr
  exact ⟨r, List.mem_of_find?_eq_some hr, hp, rfl⟩

/-- The row a statement has written a token into was not revoked. -/
theorem written_live {o : Provider} {l : Stmt} {s : State} {row : Session} {token : String}
    (h : written l s = some row)
    (hl : (∃ uri tokens, l = .storeTokenArtifacts uri tokens ∧
        tokens.refreshTokenHash = o.hashRefreshToken token) ∨
      ∃ uri previous tokens, l = .rotateRefreshToken uri previous tokens ∧
        tokens.refreshTokenHash = o.hashRefreshToken token) :
    row.refreshTokenHash = some (o.hashRefreshToken token) ∧ row.revokedAt = none := by
  rcases hl with ⟨uri, tokens, rfl, hhash⟩ | ⟨uri, previous, tokens, rfl, hhash⟩
  all_goals
    obtain ⟨⟨b, s'⟩, hupdate, rfl⟩ := Option.bind_eq_some_iff.mp h
    obtain ⟨r, -, hp, rfl⟩ := update_returns hupdate
    simp only [Bool.and_eq_true, Option.isNone_iff_eq_none] at hp
    exact ⟨congrArg some hhash, by simp [hp]⟩

/-- A grant that got its code and found the session alive has stored its token. -/
theorem Granted.stored {o : Provider} {req : TokenRequest} {seen : List (Stmt × State)}
    (h : Granted o req seen) (hlive : ∀ x ∈ seen, notRevoked x.1 x.2 = true) :
    StoredToken o req.newRefreshToken seen := by
  obtain ⟨l, s, rest, rfl, hlast⟩ := h
  have hcond := hlive (l, s) List.mem_cons_self
  rcases hlast with
    ⟨-, -, uri, tokens, rfl, hhash, hdone⟩ | ⟨-, token, uri, tokens, -, rfl, hhash, hdone⟩
  · -- the code grant does not look at what the statement returns
    obtain ⟨⟨b, s'⟩, hstore⟩ := Option.isSome_iff_exists.mp hdone
    obtain ⟨-, hb, -⟩ := updateUnique_eq hstore
    have hfound : (written (.storeTokenArtifacts uri tokens) s).isSome = true := by
      rw [written, hstore, Option.bind_some, hb, State.update, Option.isSome_map, List.find?_isSome]
      exact List.any_eq_true.mp hcond
    obtain ⟨row, hrow⟩ := Option.isSome_iff_exists.mp hfound
    exact ⟨_, s, row, rfl, hrow, written_live hrow (.inl ⟨uri, tokens, rfl, hhash⟩)⟩
  · obtain ⟨row, hrow⟩ := Option.isSome_iff_exists.mp hdone
    exact ⟨_, s, row, rfl, hrow, written_live hrow (.inr ⟨uri, _, tokens, rfl, hhash⟩)⟩

/-- **Tokens are stored before they are given out**, in every run in which no code grant stores its
tokens after its session was revoked. -/
theorem tokens_stored {o : Provider} {s : State} {es : List (Ev Request EnvEvent)}
    (hok : Along (provider o).step
      (System.Allowed (fun l s => notRevoked l s = true) fun _ _ => True)
      (.init s) es) : AllStored o (run (provider o).step (.init s) es) := by
  have htraces : (provider o).Traces (fun l s => notRevoked l s = true) (fun _ _ => True) (Step o)
      (GrantPost o) (fun _ => True) fun _ _ => True :=
    ⟨handle_keep o, fun _ => trivial, fun _ _ _ _ _ => trivial, fun _ _ _ _ => ⟨trivial, trivial⟩,
      fun _ _ => ⟨trivial, trivial⟩⟩
  intro t ht response hresult
  have hlive : ∀ x ∈ t.seen, notRevoked x.1 x.2 = true := by
    refine htraces.history (K := fun _ seen => ∀ x ∈ seen, notRevoked x.1 x.2 = true)
      (fun _ _ hx => nomatch hx) ?_ trivial hok ht
    intro r l seen s s' hseen _ hC _ x hx
    rcases List.mem_cons.mp hx with rfl | hx
    · exact hC
    · exact hseen x hx
  have htraced := htraces.run (System.traced_init trivial) hok
  obtain ⟨req, -, hresponse, hgranted⟩ := htraced.meets.result ht hresult
  rw [hresponse]
  exact hgranted.stored hlive

/-! The code grant, alone and with a revocation between its last two statements. -/

def exchanged : List (Ev Request EnvEvent) :=
  approved ++ [.spawn (.token exchange), .exec 2, .exec 2, .exec 2, .exec 2]

def revokedMeanwhile : List (Ev Request EnvEvent) :=
  approved ++ [.spawn (.token exchange), .exec 2, .exec 2, .exec 2,
    .env (.revokeSessionsForUser 1 "alice"), .exec 2]

/-- The request has been answered with tokens. -/
def answered (t : Thread Request Stmt State AuthError Response) : Bool :=
  match t.result? with
  | some (.ok (.token _)) => true
  | _ => false

theorem tokens_stored_exchange :
    ((run (provider sharedProvider).step (.init sharedState) exchanged).threads[2]?).any
      answered = true ∧
      AllStored sharedProvider
        (run (provider sharedProvider).step (.init sharedState) exchanged) := by
  have hok : Along (provider sharedProvider).step
      (System.Allowed (fun l s => notRevoked l s = true) fun _ _ => True) (.init sharedState)
        exchanged := by
    decide
  exact ⟨by decide, tokens_stored hok⟩

/-- The last session write of the request has found no row. -/
def wroteNothing (t : Thread Request Stmt State AuthError Response) : Bool :=
  ((t.seen.find? (·.1.writes)).bind fun x => written x.1 x.2).isNone

/-- **Tokens for a session that was revoked meanwhile**, and that no row knows. -/
theorem exchange_answers_unstored :
    ¬ AllStored sharedProvider
      (run (provider sharedProvider).step (.init sharedState) revokedMeanwhile) := by
  intro hall
  obtain ⟨t, ht, hpt⟩ := Conf.exists_thread (p := fun t => answered t && wroteNothing t) (i := 2)
    (c := run (provider sharedProvider).step (.init sharedState) revokedMeanwhile) (by decide)
  obtain ⟨hanswered, hnothing⟩ := Bool.and_eq_true_iff.mp hpt
  unfold answered at hanswered
  split at hanswered
  · next response hresult =>
    obtain ⟨l, s, row, hlast, hrow, -⟩ := hall t (List.mem_of_getElem? ht) response hresult
    rw [wroteNothing, hlast, Option.bind_some, hrow] at hnothing
    cases hnothing
  · cases hanswered

end Keycast.Atproto
