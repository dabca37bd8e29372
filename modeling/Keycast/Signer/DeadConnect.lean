import Keycast.Lib.Histories
import Keycast.Signer.ClientBinding

/-!
# `Signer/DeadConnect.lean` — a connect to an authorization that no longer counts

`process_connect` looks for the stored client with a filtered `SELECT` and flattens what it gets. A
row that is revoked, expired or gone then looks like one that no client has used yet, and the call
goes on to store its client with an `UPDATE` that has no filter, and to acknowledge it.
`dead_connect_refused_iff` says which of these calls are refused all the same, and under what
conditions on a run of any number of calls no `UPDATE` finds a dead row.
-/

set_option autoImplicit false

namespace Keycast.Signer

open Lib

/-- A row with this id and tenant that is neither revoked nor expired. -/
def State.HasLive (s : State) (isOauth : Bool) (id : RowId) (tenant : TenantId) : Prop :=
  if isOauth then ∃ a ∈ s.db.oauthAuthorizations, a.id = id ∧ a.tenantId = tenant ∧
    a.live s.now = true
  else ∃ a ∈ s.db.authorizations, a.id = id ∧ a.tenantId = tenant ∧ a.live s.now = true

/-- A row with this id that is revoked or expired. -/
def State.HasDead (s : State) (isOauth : Bool) (id : RowId) : Prop :=
  if isOauth then ∃ a ∈ s.db.oauthAuthorizations, a.id = id ∧ a.live s.now = false
  else ∃ a ∈ s.db.authorizations, a.id = id ∧ a.live s.now = false

/-- A call of `process_connect` on a handler. -/
structure ConnectCall where
  handler : Nip46Handler
  client : String
  secret : String

namespace ConnectCall

def prog (ext : External) (r : ConnectCall) : SignerM String :=
  r.handler.processConnect ext r.client r.secret

/-- An unexpired team row that another client holds. Of a revoked one the team query still sees this
much. -/
def HeldByOther (r : ConnectCall) (s : State) : Prop :=
  r.handler.isOauth = false ∧ ∃ a, (s.db.authorizations.find? fun a =>
    a.id == r.handler.authorizationId && a.tenantId == r.handler.tenantId &&
      unexpired s.now a.expiresAt) = some a ∧
      ∃ other, a.connectedClientPubkey = some other ∧ other ≠ r.client

end ConnectCall

variable {ext : External} {r : ConnectCall} {s : State}

/-! ## One call -/

/-- What an uninterrupted call does. -/
theorem processConnect_run (ext : External) (r : ConnectCall) (s : State) :
    (r.prog ext).run s =
      if ext.verifySecret r.secret r.handler.secretHash then
        match s.connectedClient r.handler.isOauth r.handler.authorizationId r.handler.tenantId with
        | some existing =>
          if existing = r.client then (.ok "ack", s)
          else (.error (.permissionDenied "Secret already used by another client"), s)
        | none => (.ok "ack", s.storeClient r.handler.isOauth r.handler.authorizationId r.client)
      else (.error (.permissionDenied "Invalid secret"), s) := by
  unfold ConnectCall.prog Nip46Handler.processConnect
  split
  · rw [Prog.bind_def, Prog.read_bind, Prog.run_atom, id]
    cases s.connectedClient r.handler.isOauth r.handler.authorizationId r.handler.tenantId with
    | none => rfl
    | some existing =>
      dsimp only
      split
      · rfl
      · rfl
  · rfl

/-- The OAuth query does not see a dead row at all. -/
theorem connectedClient_of_dead {id : RowId} {tenant : TenantId}
    (hdead : ¬ s.HasLive true id tenant) :
    s.connectedClient true id tenant = none := by
  have hnone :
    (s.db.oauthAuthorizations.find? fun a => a.id == id && a.tenantId == tenant && a.live s.now) =
      none := by
    refine List.find?_eq_none.mpr fun a ha hfound => hdead ?_
    simp only [Bool.and_eq_true, beq_iff_eq] at hfound
    exact ⟨a, ha, hfound.1.1, hfound.1.2, hfound.2⟩
  show Option.bind (s.db.oauthAuthorizations.find? _) _ = none
  rw [hnone]
  rfl

/-- **Which calls on a dead authorization are refused.** -/
theorem refused_iff
    (hdead : ¬ s.HasLive r.handler.isOauth r.handler.authorizationId r.handler.tenantId) :
    (∃ e, (r.prog ext).run s = (.error e, s)) ↔
      ext.verifySecret r.secret r.handler.secretHash = false ∨ r.HeldByOther s := by
  rw [processConnect_run]
  by_cases hsecret : ext.verifySecret r.secret r.handler.secretHash = true
  · rw [if_pos hsecret, hsecret]
    simp only [reduceCtorEq, false_or]
    cases ho : r.handler.isOauth with
    | true =>
      rw [ho] at hdead
      rw [connectedClient_of_dead hdead]
      constructor
      · rintro ⟨e, he⟩
        cases (Prod.mk.inj he).1
      · intro h
        cases ho.symm.trans h.1
    | false =>
      have hclient : s.connectedClient false r.handler.authorizationId r.handler.tenantId =
          (s.db.authorizations.find? fun a => a.id == r.handler.authorizationId &&
            a.tenantId == r.handler.tenantId &&
              unexpired s.now a.expiresAt).bind (·.connectedClientPubkey) := rfl
      constructor
      · rintro ⟨e, he⟩
        cases hc : s.connectedClient false r.handler.authorizationId r.handler.tenantId with
        | none =>
          rw [hc] at he
          cases (Prod.mk.inj he).1
        | some other =>
          obtain ⟨a, hfind, hother⟩ := Option.bind_eq_some_iff.mp (hclient.symm.trans hc)
          refine ⟨ho, a, hfind, other, hother, fun hsame => ?_⟩
          rw [hc] at he
          simp only [if_pos hsame] at he
          cases (Prod.mk.inj he).1
      · rintro ⟨-, a, hfind, other, hother, hne⟩
        refine ⟨.permissionDenied "Secret already used by another client", ?_⟩
        rw [hclient, hfind, Option.bind_some, hother]
        exact if_neg hne
  · rw [if_neg hsecret, Bool.eq_false_iff.mpr hsecret]
    exact ⟨fun _ => .inl rfl, fun _ => ⟨_, rfl⟩⟩

/-! ## Any number of calls -/

/-- Any number of calls on any handlers, while the rest of the world does what it wants to the
tables and the clock. -/
def connectSystem (ext : External) : System ConnectCall Stmt State SignerError String State where
  prog := ConnectCall.prog ext
  env s' _ := s'

abbrev ConnectConf := Conf ConnectCall Stmt State SignerError String

/-- The condition on an event: a call that looks and finds no client does not look at a dead row,
and no row dies while a call that has looked is about to write to it. -/
def ConnectOk (c : ConnectConf) : Ev ConnectCall State → Prop
  | .spawn _ => True
  | .exec i => ∀ t ∈ c.threads[i]?, ∀ o id, t.next? = some (.selectConnected o id) →
      c.state.connectedClient o id t.req.handler.tenantId = none → ¬ c.state.HasDead o id
  | .env s' => ∀ t ∈ c.threads, ∀ o id client, t.next? = some (.storeClient o id client) →
      ¬ c.state.HasDead o id → ¬ s'.HasDead o id

/-- What a statement does: it kills no row, and a client is stored right after a look that found
none. -/
def ConnectMove (r : ConnectCall) (l : Stmt) (seen : List (Stmt × State)) (s s' : State) : Prop :=
  (∀ o id, ¬ s.HasDead o id → ¬ s'.HasDead o id) ∧
    ∀ o id client, l = .storeClient o id client →
      ∃ s₀, seen = [(.selectConnected o id, s₀)] ∧ s₀.connectedClient o id r.handler.tenantId = none

theorem hasDead_of_storeClient {o o' : Bool} {id id' : RowId} {client : PublicKey}
    (h : (s.storeClient o id client).HasDead o' id') : s.HasDead o' id' := by
  cases o' with
  | true =>
    obtain ⟨a, ha, hid, hdead⟩ := h
    cases o with
    | false => exact ⟨a, ha, hid, hdead⟩
    | true =>
      rcases mem_updateWhere.mp ha with ⟨a₀, ha₀, -, rfl⟩ | ⟨ha, -⟩
      · exact ⟨a₀, ha₀, hid, hdead⟩
      · exact ⟨a, ha, hid, hdead⟩
  | false =>
    obtain ⟨a, ha, hid, hdead⟩ := h
    cases o with
    | true => exact ⟨a, ha, hid, hdead⟩
    | false =>
      rcases mem_updateWhere.mp ha with ⟨a₀, ha₀, -, rfl⟩ | ⟨ha, -⟩
      · exact ⟨a₀, ha₀, hid, hdead⟩
      · exact ⟨a, ha, hid, hdead⟩

theorem prog_meets (r : ConnectCall) : (r.prog ext).Meets (ConnectMove r) (fun _ _ => True) [] := by
  unfold ConnectCall.prog Nip46Handler.processConnect
  split
  · refine .read (fun s => ⟨fun _ _ h => h, ?_⟩) fun s => ?_
    · intro o id client hl
      cases hl
    · cases hclient : s.connectedClient r.handler.isOauth r.handler.authorizationId
        r.handler.tenantId with
      | some existing =>
        dsimp only
        split
        · trivial
        · trivial
      | none =>
        refine .write fun s' =>
          ⟨⟨fun o id h hdead => h (hasDead_of_storeClient hdead), ?_⟩, trivial⟩
        intro o id client hl
        cases hl
        exact ⟨s, rfl, hclient⟩
  · trivial

/-- No call is about to write to a dead row. -/
structure Spared (c : ConnectConf) : Prop where
  meets : System.Meets ConnectMove (fun _ _ _ => True) c
  alive : ∀ (j : Nat) (t : Thread ConnectCall Stmt State SignerError String),
    c.threads[j]? = some t →
    ∀ o id client, t.next? = some (.storeClient o id client) → ¬ c.state.HasDead o id

theorem Spared.step {c : ConnectConf} {e : Ev ConnectCall State} (hc : Spared c)
    (hok : ConnectOk c e) :
    Spared ((connectSystem ext).step c e) := by
  have hmeets : System.Meets ConnectMove (fun _ _ _ => True) ((connectSystem ext).step c e) :=
    System.meets_step (fun r => prog_meets r) e hc.meets
  refine ⟨hmeets, fun j t ht o id client hnext => ?_⟩
  -- what the waiting thread has seen
  obtain ⟨s₀, hseen, hnone⟩ := (hmeets.exec (connectSystem ext) ht hnext).2 o id client rfl
  rcases System.getElem?_step (connectSystem ext) ht with
    ⟨hold, hstay⟩ | ⟨r, rfl, rfl⟩ | ⟨t₀, l, rfl, hj, hl, hreq, hstep⟩
  · -- it was waiting before
    have hbefore := hc.alive j t hold o id client hnext
    cases e with
    | spawn r => exact hbefore
    | env s' => exact hok t (List.mem_of_getElem? hold) o id client hnext hbefore
    | exec i =>
      rcases hc.meets.exec_cases (connectSystem ext) i with ⟨hidle, -⟩ | ⟨t₁, l, -, -, hmove⟩
      · rwa [hidle]
      · exact hmove.1 o id hbefore
  · cases hseen
  · -- it has just looked
    rw [hstep] at hseen
    obtain ⟨⟨rfl, rfl⟩, -⟩ := List.cons.inj hseen
    rw [hreq] at hnone
    have halive := hok t₀ hj o id hl hnone
    exact (hc.meets.exec (connectSystem ext) hj hl).1 o id halive

/-- **A connect to a dead authorization.** A call on a row that is missing, revoked or expired is
refused and changes nothing exactly when its secret is wrong, or the row is that of a team, revoked
but not expired, and another client holds it. In a run, with any number of calls and whatever the
rest of the world does, no client is stored in a dead row, provided that no call looks at a dead row
without a client and none dies between the look and the write. -/
theorem dead_connect_refused_iff (ext : External) :
    (∀ (r : ConnectCall) (s : State),
      ¬ s.HasLive r.handler.isOauth r.handler.authorizationId r.handler.tenantId →
      ((∃ e, (r.prog ext).run s = (.error e, s)) ↔
        ext.verifySecret r.secret r.handler.secretHash = false ∨ r.HeldByOther s)) ∧
    ∀ (s : State) (es : List (Ev ConnectCall State)),
      Along (connectSystem ext).step ConnectOk (.init s) es →
      ∀ pre i post, es = pre ++ .exec i :: post →
        ∀ t, (run (connectSystem ext).step (.init s) pre).threads[i]? = some t →
          ∀ o id client, t.next? = some (.storeClient o id client) →
            ¬ (run (connectSystem ext).step (.init s) pre).state.HasDead o id := by
  refine ⟨fun r s hdead => refused_iff hdead,
    fun s es hok pre i post hes t ht o id client hnext => ?_⟩
  subst hes
  have hstart : Spared (Conf.init s) :=
    ⟨fun t ht => absurd ht List.not_mem_nil,
      fun j t ht => absurd (List.mem_of_getElem? ht) List.not_mem_nil⟩
  have hspared : Spared (run (connectSystem ext).step (.init s) pre) :=
    run_invariant (fun _ _ hc hok => hc.step hok) hstart (along_append.mp hok).1
  exact hspared.alive i t ht o id client hnext

/-! A handler that still knows the secret of an authorization that has been revoked. -/

def staleHandler (isOauth : Bool) : Nip46Handler where
  bunkerKeys := "bunker-sk"
  userKeys := "sk"
  secretHash := "bcrypt:secret"
  authorizationId := 1
  tenantId := 1
  isOauth := isOauth

def staleCall (isOauth : Bool) : ConnectCall := ⟨staleHandler isOauth, "client", "secret"⟩

def staleState (client : Option PublicKey) : State :=
  .boot
    { oauthAuthorizations :=
        [{ id := 1, tenantId := 1, userPubkey := "alice", bunkerPublicKey := "pub:bunker-sk",
           secretHash := "bcrypt:secret", connectedClientPubkey := client, revokedAt := some 50 }],
      authorizations :=
        [{ id := 1, tenantId := 1, storedKeyId := 7, bunkerPublicKey := "pub:bunker-sk",
           secretHash := "bcrypt:secret", connectedClientPubkey := client, revokedAt :=
             some 50 }] } 100

theorem staleState_dead (isOauth : Bool) (client : Option PublicKey) :
    ¬ (staleState client).HasLive isOauth 1 1 := by
  cases isOauth with
  | true =>
    rintro ⟨a, ha, -, -, hlive⟩
    rw [List.mem_singleton.mp ha] at hlive
    cases hlive
  | false =>
    rintro ⟨a, ha, -, -, hlive⟩
    rw [List.mem_singleton.mp ha] at hlive
    cases hlive

/-- A revoked team authorization that another client holds. -/
theorem dead_connect_refused_iff_held :
    ∃ e, ((staleCall false).prog (.symbolic [] [])).run (staleState (some "other")) =
      (.error e, staleState (some "other")) :=
  ((dead_connect_refused_iff (.symbolic [] [])).1 (staleCall false) _ (staleState_dead false _)).mpr
    (.inr ⟨rfl, _, rfl, "other", rfl, by decide⟩)

/-- The call is acknowledged, and its client stored, in a row that does not count. -/
def WronglyConnects (r : ConnectCall) (s : State) : Prop :=
  ¬ s.HasLive r.handler.isOauth r.handler.authorizationId r.handler.tenantId ∧
    ((r.prog (.symbolic [] [])).run s).1 = .ok "ack" ∧
    ((r.prog (.symbolic [] [])).run s).2.storedClient r.handler.isOauth
      r.handler.authorizationId = some r.client

/-- **Revoked, and acknowledged**, in both tables. -/
theorem dead_connect_acknowledged :
    WronglyConnects (staleCall true) (staleState none) ∧
      WronglyConnects (staleCall false) (staleState none) :=
  ⟨⟨staleState_dead true none, by decide⟩, ⟨staleState_dead false none, by decide⟩⟩

end Keycast.Signer
