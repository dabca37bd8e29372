import Keycast.Signer.System

/-!
# `Signer/ClientBinding.lean` — one client per authorization

Two code paths bind a client to an authorization: `process_connect`, which a client calls with the
connection secret, and `validate_and_store_client`, which binds the first client that makes a
request at all. Each looks first and writes later, in two statements, and the write is
unconditional: `UPDATE … WHERE id = $2`. Sequentially that enforces the comment above it, "one
client per authorization". Interleaved it does not, and `two_clients_acknowledged` is the run.

What is true is that the *write* is where it goes wrong and nowhere else. If each such `UPDATE`
happens while the column is still empty, or holds that client already, then in every interleaving
of any number of calls the column is set once and every successful call was made by the client it
is set to (`one_client_per_authorization`).

OAuth and team authorizations go through the same code on different tables; `Grant` is what the
statements see of either.
-/

set_option autoImplicit false

namespace Keycast.Signer

open Lib

/-- What the statements of the client gate see of a row. For a team row, `live` is only the part
they test. -/
structure Grant where
  id : RowId
  tenantId : TenantId
  bunker : PublicKey
  client : Option PublicKey
  live : Bool
  deriving DecidableEq, Repr

def State.grants (s : State) (isOauth : Bool) : List Grant :=
  if isOauth then
    s.db.oauthAuthorizations.map fun a =>
      ⟨a.id, a.tenantId, a.bunkerPublicKey, a.connectedClientPubkey, a.live s.now⟩
  else
    s.db.authorizations.map fun a =>
      ⟨a.id, a.tenantId, a.bunkerPublicKey, a.connectedClientPubkey, unexpired s.now a.expiresAt⟩

/-- The stored `connected_client_pubkey` of an authorization. -/
def State.storedClient (s : State) (isOauth : Bool) (id : RowId) : Option PublicKey :=
  ((s.grants isOauth).find? (·.id == id)).bind (·.client)

/-! ## The gate's statements, on grants -/

namespace State

variable (s : State) (o : Bool)

theorem connectedClient_eq (id : RowId) (tenant : TenantId) :
    s.connectedClient o id tenant =
      ((s.grants o).find? fun g => g.id == id && g.tenantId == tenant && g.live).bind
        (·.client) := by
  cases o <;> simp only [connectedClient, grants, Bool.false_eq_true, if_true, if_false,
    List.find?_map, Option.bind_map] <;> rfl

theorem existsConnected_eq (bunker client : PublicKey) :
    s.existsConnected o bunker client =
      (s.grants o).any fun g => g.bunker == bunker && g.client == some client && g.live := by
  cases o <;> simp [existsConnected, grants, List.any_map, Function.comp_def]

theorem unconnected_eq (bunker : PublicKey) :
    s.unconnected o bunker =
      ((s.grants o).find? fun g => g.bunker == bunker && g.client.isNone && g.live).map (·.id) := by
  cases o <;> simp [unconnected, grants, List.find?_map, Function.comp_def, Option.map_map]

theorem grants_storeClient (id : RowId) (client : PublicKey) :
    (s.storeClient o id client).grants o =
      updateWhere (·.id == id) (fun g => { g with client := some client }) (s.grants o) := by
  cases o
  all_goals
    simp only [storeClient, grants, Db.storeOAuthClient, Db.storeTeamClient, Db.updateOAuth,
      Db.updateTeam, updateWhere, List.map_map, if_true, if_false, Bool.false_eq_true]
    refine List.map_congr_left fun a _ => ?_
    simp only [Function.comp]
    split <;> simp_all [OAuthAuthorization.live]

end State

/-! ## One live authorization -/

variable (ext : External) (h : Nip46Handler)

/-- `g` is the handler's authorization: live, and alone with its id and its bunker key. -/
def IsGrant (s : State) (g : Grant) : Prop :=
  g.id = h.authorizationId ∧ g.tenantId = h.tenantId ∧ g.bunker = ext.publicKey h.bunkerKeys ∧
    g.live = true ∧ ∀ g' ∈ s.grants h.isOauth,
      g'.id = h.authorizationId ∨ g'.bunker = ext.publicKey h.bunkerKeys → g' = g

/-- The handler's authorization exists, unrevoked (as far as the gate asks) and unexpired. -/
def Granted (s : State) : Prop := ∃ g ∈ s.grants h.isOauth, IsGrant ext h s g

instance (s : State) : Decidable (Granted ext h s) :=
  inferInstanceAs (Decidable (∃ g ∈ s.grants h.isOauth, g.id = h.authorizationId ∧
    g.tenantId = h.tenantId ∧ g.bunker = ext.publicKey h.bunkerKeys ∧ g.live = true ∧
      ∀ g' ∈ s.grants h.isOauth,
        g'.id = h.authorizationId ∨ g'.bunker = ext.publicKey h.bunkerKeys → g' = g))

/-- The client stored for the handler's authorization. -/
def bound (s : State) : Option PublicKey := s.storedClient h.isOauth h.authorizationId

variable {ext h} {s : State} {g : Grant}

theorem IsGrant.bound_eq (hm : g ∈ s.grants h.isOauth) (hg : IsGrant ext h s g) :
    bound h s = g.client := by
  obtain ⟨hid, -, -, -, honly⟩ := hg
  have hfind : (s.grants h.isOauth).find? (·.id == h.authorizationId) = some g :=
    find?_eq_some_of_unique hm (by simpa using hid) fun g' hg' hq =>
      honly g' hg' (.inl (by simpa using hq))
  simp [bound, State.storedClient, hfind]

theorem IsGrant.connectedClient (hm : g ∈ s.grants h.isOauth) (hg : IsGrant ext h s g) :
    s.connectedClient h.isOauth h.authorizationId h.tenantId = g.client := by
  obtain ⟨hid, ht, -, hl, honly⟩ := hg
  rw [State.connectedClient_eq, find?_eq_some_of_unique hm (by simp [hid, ht, hl])
    fun g' hg' hq => ?_]
  · rfl
  · simp only [Bool.and_eq_true, beq_iff_eq] at hq
    exact honly g' hg' (.inl hq.1.1)

theorem IsGrant.existsConnected (hg : IsGrant ext h s g) {client : PublicKey}
    (he : s.existsConnected h.isOauth (ext.publicKey h.bunkerKeys) client = true) :
    g.client = some client := by
  rw [State.existsConnected_eq, List.any_eq_true] at he
  obtain ⟨g', hg', hq⟩ := he
  simp only [Bool.and_eq_true, beq_iff_eq] at hq
  obtain ⟨-, -, -, -, honly⟩ := hg
  rw [← honly g' hg' (.inr hq.1.1)]
  exact hq.1.2

theorem IsGrant.unconnected (hg : IsGrant ext h s g) {id : RowId}
    (hu : s.unconnected h.isOauth (ext.publicKey h.bunkerKeys) = some id) :
    id = h.authorizationId := by
  rw [State.unconnected_eq, Option.map_eq_some_iff] at hu
  obtain ⟨g', hf, rfl⟩ := hu
  have hq := List.find?_some hf
  simp only [Bool.and_eq_true, beq_iff_eq] at hq
  obtain ⟨hid, -, -, -, honly⟩ := hg
  rw [honly g' (List.mem_of_find?_eq_some hf) (.inr hq.1.1), hid]

/-- Storing a client keeps the authorization and sets its client. -/
theorem Granted.storeClient (hs : Granted ext h s) (client : PublicKey) :
    Granted ext h (s.storeClient h.isOauth h.authorizationId client) ∧
      bound h (s.storeClient h.isOauth h.authorizationId client) = some client := by
  obtain ⟨g, hm, hid, ht, hb, hl, honly⟩ := hs
  have hm' : { g with client := some client } ∈
      (s.storeClient h.isOauth h.authorizationId client).grants h.isOauth := by
    rw [State.grants_storeClient, mem_updateWhere]
    exact .inl ⟨g, hm, by simpa using hid, rfl⟩
  have hg' : IsGrant ext h (s.storeClient h.isOauth h.authorizationId client)
      { g with client := some client } := by
    refine ⟨hid, ht, hb, hl, fun g' hg' hor => ?_⟩
    rw [State.grants_storeClient, mem_updateWhere] at hg'
    rcases hg' with ⟨g₀, hg₀, hid₀, rfl⟩ | ⟨hg', hne⟩
    · rw [honly g₀ hg₀ (.inl (by simpa using hid₀))]
    · have := honly g' hg' hor
      simp [this, hid] at hne
  exact ⟨⟨_, hm', hg'⟩, hg'.bound_eq hm'⟩

/-! ## Any number of attempts to bind a client -/

/-- A call of `process_connect`, or a request that goes through `validate_and_store_client`. -/
inductive Attempt
  | connect (client secret : String)
  | validate (client : PublicKey)
  deriving DecidableEq, Repr

def Attempt.client : Attempt → PublicKey
  | connect client _ => client
  | validate client => client

/-- The program of an attempt; it returns when the client is acknowledged. -/
def tryBind (ext : External) (h : Nip46Handler) : Attempt → SignerM Unit
  | .connect client secret => do
    let _ ← h.processConnect ext client secret
    return ()
  | .validate client => h.validateAndStoreClient ext client

def bindingSystem (ext : External) (h : Nip46Handler) :
    System Attempt Stmt State SignerError Unit EnvEvent where
  prog := tryBind ext h
  env := envStep ext

/-- The client a statement stores, and where. -/
def Stmt.stores? : Stmt → Option (Bool × RowId × PublicKey)
  | .storeClient isOauth id client => some (isOauth, id, client)
  | _ => none

/-- The condition on a statement: if it stores a client, no other client is stored yet. -/
def Unbound (l : Stmt) (s : State) : Prop :=
  ∀ x ∈ l.stores?, s.storedClient x.1 x.2.1 = none ∨ s.storedClient x.1 x.2.1 = some x.2.2

instance (l : Stmt) (s : State) : Decidable (Unbound l s) :=
  inferInstanceAs (Decidable (∀ x ∈ l.stores?, _ ∨ _))

/-- The environment does not disconnect, revoke, expire or delete the authorization. -/
def LeavesAlone (ext : External) (h : Nip46Handler) (e : EnvEvent) (s : State) : Prop :=
  Granted ext h (envStep ext e s) ∧ bound h (envStep ext e s) = bound h s

instance (e : EnvEvent) (s : State) : Decidable (LeavesAlone ext h e s) :=
  inferInstanceAs (Decidable (_ ∧ _))

/-- A stored client stays stored. -/
def WriteOnce (h : Nip46Handler) (s s' : State) : Prop :=
  ∀ client, bound h s = some client → bound h s' = some client

theorem WriteOnce.refl (s : State) : WriteOnce h s s := fun _ hc => hc

theorem WriteOnce.trans {a b c : State} (h₁ : WriteOnce h a b) (h₂ : WriteOnce h b c) :
    WriteOnce h a c := fun client hc => h₂ client (h₁ client hc)

/-- The `UPDATE`, when it is allowed to run. -/
theorem storeClient_guarantee (hs : Granted ext h s) {client : PublicKey}
    (hc : Unbound (.storeClient h.isOauth h.authorizationId client) s) :
    Granted ext h (s.storeClient h.isOauth h.authorizationId client) ∧
      WriteOnce h s (s.storeClient h.isOauth h.authorizationId client) ∧
      bound h (s.storeClient h.isOauth h.authorizationId client) = some client := by
  obtain ⟨hg, hb⟩ := hs.storeClient client
  refine ⟨hg, fun c hbc => ?_, hb⟩
  rcases hc _ rfl with hn | hsame
  · exact absurd (hbc.symm.trans hn) (by simp)
  · rw [hb, ← hbc]; exact hsame.symm

theorem tryBind_holds (a : Attempt) (s : State) :
    (tryBind ext h a).Holds (Granted ext h) Unbound (WriteOnce h)
      (fun _ s r => r = .ok () → bound h s = some a.client) [] s := by
  cases a with
  | connect client secret =>
    refine .bind ?_
    unfold Nip46Handler.processConnect
    split
    · refine .read .refl fun s₁ _ hi₁ _ => ?_
      obtain ⟨g, hm, hg⟩ := hi₁
      rw [hg.connectedClient hm]
      cases hcl : g.client with
      | some existing =>
        by_cases he : existing = client
        · simp only [if_pos he]
          intro _
          rw [hg.bound_eq hm, hcl, he]
          rfl
        · simp only [if_neg he]
          exact fun h => nomatch h
      | none =>
        refine .write fun s₂ _ hi₂ hc₂ => ?_
        obtain ⟨hg₂, hw₂, hb₂⟩ := storeClient_guarantee hi₂ hc₂
        exact ⟨hg₂, hw₂, fun _ => hb₂⟩
    · exact fun h => nomatch h
  | validate client =>
    refine .read .refl fun s₁ _ hi₁ _ => ?_
    obtain ⟨g, hm, hg⟩ := hi₁
    split
    · next he =>
      intro _
      rw [hg.bound_eq hm]
      exact hg.existsConnected he
    · refine .read .refl fun s₂ _ hi₂ _ => ?_
      obtain ⟨g₂, hm₂, hg₂⟩ := hi₂
      split
      · next id hu =>
        rw [hg₂.unconnected hu]
        intro s₃ _ hi₃ hc₃
        obtain ⟨hg₃, hw₃, hb₃⟩ := storeClient_guarantee hi₃ hc₃
        exact ⟨hg₃, hw₃, fun _ => hb₃⟩
      · exact fun h => nomatch h

theorem bindingSystem_guarantees :
    (bindingSystem ext h).Guarantees (Granted ext h) Unbound (LeavesAlone ext h) (WriteOnce h)
      (fun a _ s r => r = .ok () → bound h s = some a.client) where
  refl := .refl
  trans _ _ _ := .trans
  post _ _ _ _ _ hr hq hx := hr _ (hq hx)
  prog a s _ := tryBind_holds a s
  env _ _ he _ := ⟨he.1, fun _ hb => he.2.trans hb⟩

/-! ## The result -/

abbrev BindingConf := Conf Attempt Stmt State SignerError Unit

/-- The client was acknowledged, or passed validation. -/
def succeeded (t : Thread Attempt Stmt State SignerError Unit) : Bool :=
  match t.result? with
  | some (.ok _) => true
  | _ => false

/-- All attempts that succeeded so far were made by one client. -/
def OneClient (c : BindingConf) : Prop :=
  ∀ t ∈ c.threads, ∀ t' ∈ c.threads, succeeded t = true → succeeded t' = true →
    t.req.client = t'.req.client

instance (c : BindingConf) : Decidable (OneClient c) :=
  inferInstanceAs (Decidable (∀ t ∈ c.threads, ∀ t' ∈ c.threads, _ → _ → _ = _))

theorem result_of_succeeded {t : Thread Attempt Stmt State SignerError Unit}
    (h : succeeded t = true) : t.result? = some (.ok ()) := by
  unfold succeeded at h
  split at h
  · assumption
  · exact absurd h (by simp)

/-- **One client per authorization, along a run.** For any interleaving of the statements of any
number of attempts on a live authorization that the environment leaves alone, if each `UPDATE` of
the client runs while no other client is stored, then at most one client ever succeeds and a
stored client is never replaced. -/
theorem one_client_per_authorization {es : List (Ev Attempt EnvEvent)} (hs : Granted ext h s)
    (hok : Along (bindingSystem ext h).step (System.Allowed Unbound (LeavesAlone ext h))
      (.init s) es) :
    OneClient (run (bindingSystem ext h).step (.init s) es) ∧
      ∀ pre post, es = pre ++ post →
        WriteOnce h (run (bindingSystem ext h).step (.init s) pre).state
          (run (bindingSystem ext h).step (.init s) es).state := by
  have hG : (bindingSystem ext h).Guarantees _ _ _ _ _ := bindingSystem_guarantees
  constructor
  · intro t ht t' ht' hsucc hsucc'
    have hb := hG.result hs hok ht (result_of_succeeded hsucc) rfl
    have hb' := hG.result hs hok ht' (result_of_succeeded hsucc') rfl
    exact Option.some.inj (hb.symm.trans hb')
  · rintro pre post rfl
    obtain ⟨hpre, hpost⟩ := along_append.mp hok
    rw [run_append]
    exact hG.preserves.rely hG.refl hG.trans (hG.run hs hpre) hpost

/-! Two clients that hold the connection secret of one authorization. -/

def raceHandler : Nip46Handler where
  bunkerKeys := "bunker-sk"
  userKeys := "sk"
  secretHash := "bcrypt:secret"
  authorizationId := 1
  tenantId := 1
  isOauth := true

def raceExternal : External := .symbolic [] []

def raceState : State :=
  .boot { oauthAuthorizations :=
    [{ id := 1, tenantId := 1, userPubkey := "alice", bunkerPublicKey := "pub:bunker-sk",
       secretHash := "bcrypt:secret" }] } 0

/-- One after the other: the second client is refused. -/
def sequentialRun : List (Ev Attempt EnvEvent) :=
  [.spawn (.connect "a" "secret"), .exec 0, .exec 0, .spawn (.connect "b" "secret"), .exec 1,
    .exec 1]

theorem one_client_per_authorization_sequential :
    OneClient (run (bindingSystem raceExternal raceHandler).step (.init raceState) sequentialRun) :=
  (one_client_per_authorization (by decide) (by decide)).1

/-- Both look before either writes. -/
def raceRun : List (Ev Attempt EnvEvent) :=
  [.spawn (.connect "a" "secret"), .spawn (.connect "b" "secret"), .exec 0, .exec 1, .exec 0,
    .exec 1]

/-- **Both clients are acknowledged**, and the stored client is `a` after five events and `b` after
six; the environment did nothing at all. -/
theorem two_clients_acknowledged :
    Granted raceExternal raceHandler raceState ∧
      Along (bindingSystem raceExternal raceHandler).step
        (System.Allowed (fun _ _ => True) (LeavesAlone raceExternal raceHandler))
        (.init raceState) raceRun ∧
      ¬ OneClient (run (bindingSystem raceExternal raceHandler).step (.init raceState) raceRun) ∧
      bound raceHandler (run (bindingSystem raceExternal raceHandler).step (.init raceState)
        (raceRun.take 5)).state = some "a" ∧
      bound raceHandler (run (bindingSystem raceExternal raceHandler).step (.init raceState)
        raceRun).state = some "b" := by
  decide

end Keycast.Signer
