import Keycast.Http.FastPath
import Keycast.Lib.Histories

/-!
# `Http/Isolation.lean` — one cache for all tokens

The instances keep the handlers of all tenants and all tokens in one cache, under a hash of tenant
and token. Requests of anybody run at the same time; whatever they leave in the cache, a request
gets the handler that was made for its own token, and that handler has the key of the user the token
is for.

The runs here are of RPC requests: nothing else changes the tables meanwhile.
-/

set_option autoImplicit false

namespace Keycast.Http

open Lib

variable {w : Web}

/-- No two inputs have the same hash. -/
def CollisionFree (w : Web) : Prop :=
  ∀ tenant tenant' token token', w.blake3 tenant token = w.blake3 tenant' token' →
    tenant = tenant' ∧ token = token'

def Work.IsRpc : Work → Prop
  | .rpc .. => True
  | .revokeSession .. => False

/-- An event of a run of RPC requests. -/
def RpcOnly : Event → Prop
  | .spawn r => r.IsRpc
  | .exec _ => True
  | .env (.tick _) => True
  | .env (.evict ..) => True
  | .env _ => False

/-- What the slow path gives on these tables, at some time. -/
def LoadedFrom (w : Web) (db : Db) (authHeader : String) (tenant : TenantId)
    (h : HttpRpcHandler) : Prop :=
  ∃ s : State, s.db = db ∧ ((loadForToken w authHeader tenant).run s).1 = .ok h

/-- At some point of the run a request with this header, to this tenant and instance, has inserted
the handler. -/
def InsertedFor (w : Web) (db : Db) (now : Timestamp) (es : List Event) (inst : InstanceId)
    (authHeader : String)
    (tenant : TenantId) (h : HttpRpcHandler) : Prop :=
  ∃ pre i post t headers nonce req key, es = pre ++ .exec i :: post ∧
    (runFrom w db now pre).threads[i]? = some t ∧ t.req = .rpc inst headers tenant nonce req ∧
    headers.authorization = some (some authHeader) ∧
    computeTokenCacheKey w authHeader tenant = some key ∧
    t.next? = some (.cacheInsert inst key) ∧
    ((runFrom w db now (pre ++ [.exec i])).state.caches inst).get key = some h

/-! ## What a statement of a request leaves in the caches -/

/-- An entry was there before, or it is what the request has loaded for its own token. -/
def RpcMove (w : Web) : Work → Stmt → List (Stmt × State) → State → State → Prop
  | .rpc inst headers tenant _ _, l, seen, s, s' => s'.db = s.db ∧
    ∀ j key h, (s'.caches j).get key = some h → (s.caches j).get key = some h ∨
      j = inst ∧ l = .cacheInsert inst key ∧
      ∃ authHeader, headers.authorization = some (some authHeader) ∧
        computeTokenCacheKey w authHeader tenant = some key ∧
        ∀ db, (∀ x ∈ seen, x.2.db = db) → LoadedFrom w db authHeader tenant h
  | .revokeSession .., _, _, _, _ => True

section Moves

variable {inst : InstanceId} {headers : Headers} {tenant : TenantId} {nonce : Nat}
  {req : NostrRpcRequest}

theorem RpcMove.refl (r : Work) (l : Stmt) (seen : List (Stmt × State)) (s : State) :
    RpcMove w r l seen s s := by
  cases r with
  | rpc => exact ⟨rfl, fun _ _ _ => .inl⟩
  | revokeSession => trivial

/-- The slow path loads from the tables as it finds them. -/
theorem loadForToken_loads (r : Work) (authHeader : String) (tenant : TenantId)
    (seen : List (Stmt × State)) :
    (loadForToken w authHeader tenant).Meets (RpcMove w r)
      (fun seen' res => ∀ h db, res = .ok h → (∀ x ∈ seen', x.2.db = db) →
        LoadedFrom w db authHeader tenant h)
      seen := by
  rw [loadForToken_eq]
  intro s₁
  refine ⟨.refl r _ _ s₁, ?_⟩
  have hrun : ∀ {p : RpcM HttpRpcHandler}, p.Reads State.db →
      ((loadForToken w authHeader tenant).run s₁).1 = (p.run s₁).1 →
      p.Meets (RpcMove w r) (fun seen' res => ∀ h db, res = .ok h → (∀ x ∈ seen', x.2.db = db) →
        LoadedFrom w db authHeader tenant h) ((.clock, s₁) :: seen) := by
    intro p hp heq
    refine .mono ?_ (hp.meets (RpcMove.refl r) s₁ _)
    rintro seen' res ⟨news, rfl, hres⟩ h db hok hdb
    have hs₁ : s₁.db = db := hdb (.clock, s₁) (List.mem_append_right _ List.mem_cons_self)
    refine ⟨s₁, hs₁, heq.trans ?_⟩
    rw [hres fun x hx => (hdb x (List.mem_append_left _ hx)).trans hs₁.symm, hok]
  have hload := loadForToken_run (w := w) authHeader tenant s₁
  show (Prog.bind (.ofExcept ((validateUcanToken w s₁.now authHeader tenant).mapError _)) _).Meets _
    _ _
  cases hv : validateUcanToken w s₁.now authHeader tenant with
  | error e =>
    intro h db hok
    cases hok
  | ok v =>
    rw [hv] at hload
    exact hrun (loadValidated_reads tenant v) (congrArg Prod.fst hload)

theorem getHandler_moves {authHeader : String}
    (hauth : headers.authorization = some (some authHeader)) :
    (getHandler w inst authHeader tenant).Meets (RpcMove w (.rpc inst headers tenant nonce req))
      (fun _ _ => True) [] := by
  refine .orErr trivial fun key hkey => .read (RpcMove.refl _ _ _) fun s₁ => ?_
  split
  · refine .read (RpcMove.refl _ _ _) fun s₂ => ?_
    split
    · trivial
    · exact fun s =>
        ⟨⟨rfl, fun j k h hget => .inl (Shrinks.invalidate s inst key j k h hget)⟩, trivial⟩
  · refine .bind (.mono ?_ (loadForToken_loads _ authHeader tenant _))
    rintro seen₂ (e | handler) hload
    · trivial
    refine .read (RpcMove.refl _ _ _) fun s₃ => ?_
    split
    · refine fun s₄ => ⟨⟨rfl, fun j k h hget => ?_⟩, trivial⟩
      -- the one statement that adds an entry
      by_cases hj : j = inst
      · subst hj
        rw [State.updateCache_self, Cache.get_insert] at hget
        split at hget
        · next hk =>
          subst hk
          cases hget
          exact .inr ⟨rfl, rfl, authHeader, hauth, hkey,
            fun db hdb => hload handler db rfl fun x hx => hdb x (List.mem_cons_of_mem _ hx)⟩
        · exact .inl hget
      · rw [State.updateCache_of_ne s₄ hj] at hget
        exact .inl hget
    · trivial

end Moves

theorem perform_moves (r : Work) : (perform w r).Meets (RpcMove w r) (fun _ _ => True) [] := by
  cases r with
  | rpc inst headers tenant nonce req =>
    refine .bind (.orErr trivial fun authHeader hauth => .bind (.mono ?_ (getHandler_moves ?_)))
    · rintro seen (e | handler) -
      · trivial
      refine .bind (.mono (Q := fun _ _ => True) ?_ ?_)
      · rintro seen' (e | result) -
        · trivial
        · trivial
      · have hsteps :=
          dispatch_steps (w := w) (G := fun s s' => s = s') (fun _ => rfl) handler nonce req
        refine (hsteps.does (P := fun _ s s' => s = s') fun _ _ _ heq => heq).meets ?_
          fun _ _ _ => trivial
        rintro l seen s s' rfl
        exact .refl _ l seen s
    · rcases hh : headers.authorization with _ | (_ | text)
      · simp [hh] at hauth
      · simp [hh] at hauth
      · simpa [hh] using hauth
  | revokeSession inst headers tenant bunker =>
    have hsteps := perform_steps (w := w) (G := fun _ _ => True) (fun _ => trivial)
      (.revokeSession inst headers tenant bunker) (fun _ _ => trivial) (fun _ _ _ _ => trivial)
    exact (hsteps.does (P := fun _ _ _ => True) fun _ _ _ _ => trivial).meets (fun _ => trivial)
      fun _ _ _ => trivial

/-! ## What a run of RPC requests leaves in the caches -/

/-- Every entry is what the slow path gives for a token, and was inserted by a request with that
token. -/
structure Isolated (w : Web) (db : Db) (now : Timestamp) (es : List Event) : Prop where
  meets : System.Meets (RpcMove w) (fun _ _ _ => True) (runFrom w db now es)
  tables : (runFrom w db now es).state.db = db
  seen : ∀ t ∈ (runFrom w db now es).threads, ∀ x ∈ t.seen, x.2.db = db
  requests : ∀ r ∈ (runFrom w db now es).threads.map (·.req), r.IsRpc
  entries : ∀ inst key h, ((runFrom w db now es).state.caches inst).get key = some h →
    ∃ authHeader tenant,
    computeTokenCacheKey w authHeader tenant = some key ∧ LoadedFrom w db authHeader tenant h ∧
    InsertedFor w db now es inst authHeader tenant h

section Runs

variable {db : Db} {now : Timestamp} {es : List Event}

theorem Isolated.boot : Isolated w db now [] where
  meets := fun _ ht => nomatch ht
  tables := rfl
  seen := fun _ ht => nomatch ht
  requests := fun _ hr => nomatch hr
  entries := by
    intro inst key h hget
    simp [runFrom, Conf.init, State.boot] at hget

theorem InsertedFor.snoc {inst : InstanceId} {authHeader : String} {tenant : TenantId}
    {h : HttpRpcHandler}
    (hi : InsertedFor w db now es inst authHeader tenant h) (e : Event) :
    InsertedFor w db now (es ++ [e]) inst authHeader tenant h := by
  obtain ⟨pre, i, post, t, headers, nonce, req, key, rfl, hins⟩ := hi
  exact ⟨pre, i, post ++ [e], t, headers, nonce, req, key, by simp, hins⟩

theorem runFrom_snoc (e : Event) :
    runFrom w db now (es ++ [e]) = (system w).step (runFrom w db now es) e :=
  runFrom_append w db now es [e]

theorem Isolated.snoc {e : Event} (hc : Isolated w db now es) (he : RpcOnly e) :
    Isolated w db now (es ++ [e]) := by
  have hseen : ∀ t ∈ (runFrom w db now (es ++ [e])).threads, ∀ x ∈ t.seen, x.2.db = db := by
    intro t ht x hx
    rw [runFrom_snoc] at ht
    rcases System.seen_step (system w) ht hx with ⟨t₀, ht₀, hx₀⟩ | hx₀
    · exact hc.seen t₀ ht₀ x hx₀
    · rw [hx₀]
      exact hc.tables
  have hreqs : ∀ r ∈ (runFrom w db now (es ++ [e])).threads.map (·.req), r.IsRpc := by
    intro r hr
    rw [runFrom_snoc, System.reqs_step, List.mem_append] at hr
    rcases hr with hr | hr
    · exact hc.requests r hr
    · cases e with
      | spawn r' =>
        rw [show r = r' by simpa [Ev.request?] using hr]
        exact he
      | exec | env => simp [Ev.request?] at hr
  -- what was there before is still what it was
  have hold : ∀ inst key h, ((runFrom w db now es).state.caches inst).get key = some h →
    ∃ authHeader tenant,
      computeTokenCacheKey w authHeader tenant = some key ∧ LoadedFrom w db authHeader tenant h ∧
      InsertedFor w db now (es ++ [e]) inst authHeader tenant h := by
    intro inst key h hget
    obtain ⟨authHeader, tenant, hkey, hload, hins⟩ := hc.entries inst key h hget
    exact ⟨authHeader, tenant, hkey, hload, hins.snoc e⟩
  have hmeets : System.Meets (RpcMove w) (fun _ _ _ => True) (runFrom w db now (es ++ [e])) := by
    rw [runFrom_snoc]
    exact System.meets_step perform_moves e hc.meets
  cases e with
  | spawn r =>
    have hstate : (runFrom w db now (es ++ [.spawn r])).state = (runFrom w db now es).state := by
      rw [runFrom_snoc]
      rfl
    exact ⟨hmeets, hstate ▸ hc.tables, hseen, hreqs, by rw [hstate]; exact hold⟩
  | env e =>
    have hstate : (runFrom w db now (es ++ [.env e])).state =
      envStep w e (runFrom w db now es).state := by
      rw [runFrom_snoc]
      rfl
    have hdb : (envStep w e (runFrom w db now es).state).db = (runFrom w db now es).state.db := by
      cases e with
      | tick | evict => rfl
      | revokeOAuth | revokeOAuthByOrigin | deleteUser | createOAuth | setPolicies => exact he.elim
    refine ⟨hmeets, hstate ▸ hdb.trans hc.tables, hseen, hreqs, fun inst key h hget => ?_⟩
    rw [hstate] at hget
    exact hold inst key h (Shrinks.envStep e _ inst key h hget)
  | exec i =>
    have hstate : (runFrom w db now (es ++ [.exec i])).state =
        ((system w).step (runFrom w db now es) (.exec i)).state := by
      rw [runFrom_snoc]
    rcases hc.meets.exec_cases (system w) i with ⟨hidle, -⟩ | ⟨t, l, ht, hl, hmove⟩
    · rw [hidle] at hstate
      exact ⟨hmeets, hstate ▸ hc.tables, hseen, hreqs, by rw [hstate]; exact hold⟩
    have hmem := List.mem_of_getElem? ht
    have hrpc := hc.requests t.req (List.mem_map_of_mem hmem)
    cases hreq : t.req with
    | revokeSession =>
      rw [hreq] at hrpc
      exact hrpc.elim
    | rpc inst headers tenant nonce req =>
      rw [hreq, ← hstate] at hmove
      obtain ⟨hdb, hadds⟩ := hmove
      refine ⟨hmeets, hdb.trans hc.tables, hseen, hreqs, fun j key h hget => ?_⟩
      rcases hadds j key h hget with hget' | ⟨rfl, rfl, authHeader, hauth, hkey, hload⟩
      · exact hold j key h hget'
      -- the entry is new: its request has seen these tables only
      exact ⟨authHeader, tenant, hkey, hload db (hc.seen t hmem), es, i, [], t, headers, nonce, req,
        key, rfl, ht, hreq,
        hauth, hkey, hl, hget⟩

theorem isolated_run (hes : ∀ e ∈ es, RpcOnly e) : Isolated w db now es := by
  induction es using List.reverseRecOn with
  | nil => exact .boot
  | append_singleton es e ih =>
    exact (ih fun e he => hes e (List.mem_append_left _ he)).snoc (hes e (by simp))

end Runs

/-! ## What a loaded handler is -/

/-- The token was signed by its user or by the server for this tenant, and the handler has the key
of that user; the authorization it names, if it names one, is the user's. -/
def TokenEntitles (w : Web) (Signed : PublicKey → String → Prop) (db : Db) (authHeader : String)
    (tenant : TenantId)
    (h : HttpRpcHandler) : Prop :=
  ∃ token ucan user encrypted, stripBearer authHeader = some token ∧
    w.decodeToken token = some ucan ∧
    ucan.audience = some user ∧
    (Signed user token ∨ ∃ server, w.serverPubkey = some server ∧ Signed server token) ∧
    ucan.fact "tenant_id" Json.asI64 = some tenant ∧
    db.encryptedKeyForTenant user tenant = some encrypted ∧
    decryptUserKeys w encrypted = .ok h.keys ∧
    ∀ bunker, ucan.fact "bunker_pubkey" Json.asStr = some bunker →
      ∃ row, db.oauthByBunker bunker = some row ∧
      row.userPubkey = user

theorem checkTenant_fact {ucan : Ucan} {tenant : TenantId} (htenant : tenant ≠ 0)
    (h : checkTenant ucan tenant = .ok ()) : ucan.fact "tenant_id" Json.asI64 = some tenant := by
  unfold checkTenant at h
  rw [if_neg htenant] at h
  split at h
  · next t ht =>
    split at h
    · next heq => rw [ht, heq]
    · cases h
  · cases h

theorem loadPreloadedUserHandler_run {user : PublicKey} {tenant : TenantId} {s s' : State}
    {h : HttpRpcHandler}
    (hrun : (loadPreloadedUserHandler w user tenant).run s = (.ok h, s')) :
    ∃ encrypted, s.db.encryptedKeyForTenant user tenant = some encrypted ∧
      decryptUserKeys w encrypted = .ok h.keys := by
  obtain ⟨unclaimed, _, h₁, hrun⟩ := Prog.run_bind_ok.mp hrun
  obtain ⟨-, rfl⟩ := Prog.run_read_ok.mp h₁
  split at hrun
  · exact absurd hrun (by simp)
  obtain ⟨o, _, h₂, hrun⟩ := Prog.run_bind_ok.mp hrun
  obtain ⟨rfl, rfl⟩ := Prog.run_read_ok.mp h₂
  obtain ⟨encrypted, _, h₃, hrun⟩ := Prog.run_bind_ok.mp hrun
  obtain ⟨henc, rfl⟩ := Prog.run_orErr_ok.mp h₃
  obtain ⟨keys, _, h₄, hrun⟩ := Prog.run_bind_ok.mp hrun
  obtain ⟨hkeys, rfl⟩ := Prog.run_ofExcept_ok.mp h₄
  obtain ⟨cacheKey, _, h₅, hrun⟩ := Prog.run_bind_ok.mp hrun
  obtain ⟨rfl, -⟩ := Prog.run_ret_ok.mp hrun
  exact ⟨encrypted, henc, hkeys⟩

/-- **What the slow path gives is the user's.** -/
theorem LoadedFrom.tokenEntitles {Signed : PublicKey → String → Prop} {db : Db}
    {authHeader : String} {tenant : TenantId}
    {h : HttpRpcHandler} (htenant : tenant ≠ 0)
    (hsigned : ∀ token ucan issuer, w.decodeToken token = some ucan → ucan.issuer = some issuer →
      w.checkSignature token = true → Signed issuer token)
    (hload : LoadedFrom w db authHeader tenant h) :
      TokenEntitles w Signed db authHeader tenant h := by
  obtain ⟨s, rfl, hload⟩ := hload
  rw [loadForToken_run] at hload
  cases hv : validateUcanToken w s.now authHeader tenant with
  | error e =>
    rw [hv] at hload
    cases hload
  | ok v =>
    rw [hv] at hload
    obtain ⟨user, origin, bunker, ucan⟩ := v
    obtain ⟨⟨token, htoken, hucan⟩, hbunker⟩ := validateUcanToken_accepted hv
    have hwho : Signed user token ∨ ∃ server, w.serverPubkey = some server ∧
      Signed server token := by
      rcases hucan.issuer with hissuer | ⟨server, hserver, hissuer⟩
      · exact .inl (hsigned token ucan user hucan.decoded hissuer hucan.signature)
      · exact .inr
          ⟨server, hserver, hsigned token ucan server hucan.decoded hissuer hucan.signature⟩
    have hfact := checkTenant_fact htenant hucan.tenant
    cases bunker with
    | some bunker =>
      obtain ⟨-, row, _, encrypted, keys, _, _, hrow, huser, -, henc, hkeys, -, rfl⟩ :=
        loadHandlerOnDemand_run (Prod.ext hload rfl)
      refine ⟨token, ucan, user, encrypted, htoken, hucan.decoded, hucan.audience, hwho, hfact,
        henc, hkeys, ?_⟩
      intro bunker' hb
      obtain rfl : bunker = bunker' := Option.some.inj (hbunker.trans hb)
      exact ⟨row, hrow, huser⟩
    | none =>
      have hpre : ∃ encrypted, s.db.encryptedKeyForTenant user tenant = some encrypted ∧
          decryptUserKeys w encrypted = .ok h.keys := by
        simp only [loadValidated] at hload
        split at hload
        · exact loadPreloadedUserHandler_run (Prod.ext hload rfl)
        · cases hload
      obtain ⟨encrypted, henc, hkeys⟩ := hpre
      refine ⟨token, ucan, user, encrypted, htoken, hucan.decoded, hucan.audience, hwho, hfact,
        henc, hkeys, ?_⟩
      intro bunker' hb
      cases hbunker.trans hb

/-! ## The result -/

theorem stripPrefix_inj {pre s s' rest : String} (h : stripPrefix pre s = some rest)
    (h' : stripPrefix pre s' = some rest) : s = s' := by
  have hwhole : ∀ {t : String}, stripPrefix pre t = some rest →
    t.toList = pre.toList ++ rest.toList := by
    intro t ht
    unfold stripPrefix at ht
    split at ht
    · next hpre =>
      obtain ⟨tail, htail⟩ := List.isPrefixOf_iff_prefix.mp hpre
      rw [← Option.some.inj ht, String.toList_ofList, ← htail, List.drop_left]
    · cases ht
  exact String.toList_inj.mp ((hwhole h).trans (hwhole h').symm)

theorem CollisionFree.same (hw : CollisionFree w) {authHeader authHeader' : String}
    {tenant tenant' : TenantId}
    {key : CacheKey} (h : computeTokenCacheKey w authHeader tenant = some key)
    (h' : computeTokenCacheKey w authHeader' tenant' = some key) : authHeader = authHeader' ∧
      tenant = tenant' := by
  obtain ⟨token, htoken, hkey⟩ := Option.map_eq_some_iff.mp h
  obtain ⟨token', htoken', hkey'⟩ := Option.map_eq_some_iff.mp h'
  obtain ⟨rfl, rfl⟩ := hw _ _ _ _ (hkey.trans hkey'.symm)
  exact ⟨stripPrefix_inj htoken htoken', rfl⟩

/-- The same tables and the same clock, with nothing cached. -/
def State.uncached (s : State) : State := { s with caches := fun _ => .empty }

/-- **A miss does not look at the caches.** -/
theorem getHandler_uncached {inst : InstanceId} {authHeader : String} {tenant : TenantId}
    {key : CacheKey} {s : State}
    {h : HttpRpcHandler} (hkey : computeTokenCacheKey w authHeader tenant = some key)
    (hmiss : (s.caches inst).get key = none)
    (hok : ((getHandler w inst authHeader tenant).run s).1 = .ok h) :
    ((loadForToken w authHeader tenant).run s).1 = .ok h ∧
      ((getHandler w inst authHeader tenant).run s.uncached).1 = .ok h := by
  have hsame : ((loadForToken w authHeader tenant).run s.uncached).1 =
    ((loadForToken w authHeader tenant).run s).1 := by
    rw [loadForToken_run, loadForToken_run]
    rw [show s.uncached.now = s.now from rfl]
    cases validateUcanToken w s.now authHeader tenant with
    | error e => rfl
    | ok v => exact (loadValidated_reads tenant v).run_congr rfl
  have hnone : (s.uncached.caches inst).get key = none := by simp [State.uncached]
  rw [getHandler_run] at hok ⊢
  simp only [hkey, hmiss, hnone, hsame] at hok ⊢
  cases hload : ((loadForToken w authHeader tenant).run s).1 with
  | error e =>
    rw [hload] at hok
    cases hok
  | ok handler =>
    simp only [hload] at hok ⊢
    split at hok
    · next hvalid =>
      cases hok
      refine ⟨rfl, ?_⟩
      rw [if_pos (show h.isValid s.uncached.now = true from hvalid)]
    · cases hok

/-- **No handler is for another's token.** In any run of RPC requests, whoever makes them,
`get_handler` returns what it would return with nothing cached, or a handler that a request with the
same token, to the same tenant, has inserted. Either way the handler is one the token entitles
to. -/
theorem handlers_do_not_leak {Signed : PublicKey → String → Prop} {db : Db} {now : Timestamp}
    {es : List Event}
    {inst : InstanceId} {authHeader : String} {tenant : TenantId} {h : HttpRpcHandler}
    (hblake3 : CollisionFree w)
    (hsigned : ∀ token ucan issuer, w.decodeToken token = some ucan → ucan.issuer = some issuer →
      w.checkSignature token = true → Signed issuer token)
    (hes : ∀ e ∈ es, RpcOnly e) (htenant : tenant ≠ 0)
    (hok : ((getHandler w inst authHeader tenant).run (runFrom w db now es).state).1 = .ok h) :
    (((getHandler w inst authHeader tenant).run (runFrom w db now es).state.uncached).1 = .ok h ∨
      InsertedFor w db now es inst authHeader tenant h) ∧
      TokenEntitles w Signed db authHeader tenant h := by
  have hc : Isolated w db now es := isolated_run hes
  cases hkey : computeTokenCacheKey w authHeader tenant with
  | none =>
    rw [getHandler_run, hkey] at hok
    cases hok
  | some key =>
    cases hget : ((runFrom w db now es).state.caches inst).get key with
    | none =>
      obtain ⟨hload, hempty⟩ := getHandler_uncached hkey hget hok
      exact ⟨.inl hempty, LoadedFrom.tokenEntitles htenant hsigned ⟨_, hc.tables, hload⟩⟩
    | some handler =>
      -- the entry is the one of this token, since no other has its hash
      obtain ⟨authHeader', tenant', hkey', hload, hinserted⟩ := hc.entries inst key handler hget
      obtain ⟨rfl, rfl⟩ := hblake3.same hkey hkey'
      rw [getHandler_run, hkey] at hok
      simp only [hget] at hok
      split at hok
      · cases hok
        exact ⟨.inr hinserted, hload.tokenEntitles htenant hsigned⟩
      · cases hok

/-! An app's token, used twice; the second request finds the handler of the first. -/

/-- A hash that keeps everything. -/
def spelledKey (tenant : TenantId) (token : String) : CacheKey :=
  String.ofList
    (List.replicate tenant.natAbs '1' ++ (if tenant < 0 then '-' else '+') :: token.toList)

theorem replicate_append_inj {α : Type} {c x y : α} {n m : Nat} {l l' : List α}
    (hx : x ≠ c) (hy : y ≠ c)
    (h : List.replicate n c ++ x :: l = List.replicate m c ++ y :: l') : n = m ∧
      x = y ∧ l = l' := by
  induction n generalizing m with
  | zero =>
    cases m with
    | zero => simpa using h
    | succ m =>
      rw [List.replicate_succ] at h
      exact absurd (List.cons.inj h).1 hx
  | succ n ih =>
    cases m with
    | zero =>
      rw [List.replicate_succ] at h
      exact absurd (List.cons.inj h).1.symm hy
    | succ m =>
      rw [List.replicate_succ, List.replicate_succ] at h
      obtain ⟨rfl, hrest⟩ := ih (List.cons.inj h).2
      exact ⟨rfl, hrest⟩

def spelledWeb : Web := { policyWeb with blake3 := spelledKey }

theorem spelledWeb_collisionFree : CollisionFree spelledWeb := by
  intro tenant tenant' token token' h
  have hlists :=
    congrArg String.toList (show spelledKey tenant token = spelledKey tenant' token' from h)
  rw [spelledKey, spelledKey, String.toList_ofList, String.toList_ofList] at hlists
  obtain ⟨habs, hsign, htoken⟩ :=
    replicate_append_inj (by split <;> decide) (by split <;> decide) hlists
  have hneg : tenant < 0 ↔ tenant' < 0 := by
    by_cases h₁ : tenant < 0 <;> by_cases h₂ : tenant' < 0 <;> simp [h₁, h₂] at hsign ⊢
  have heq : ∀ {a b : Int}, a.natAbs = b.natAbs → (a < 0 ↔ b < 0) → a = b := by omega
  exact ⟨heq habs hneg, String.toList_inj.mp htoken⟩

/-- A request, whole. -/
def policyRpc : List Event :=
  .spawn (.rpc 0 { authorization := some (some "Bearer A") } 1 0 { method := "get_public_key" }) ::
    List.replicate 8 (.exec 0)

theorem handlers_do_not_leak_again :
    (((getHandler spelledWeb 0 "Bearer A" 1).run
      (runFrom spelledWeb policyDb 0 policyRpc).state.uncached).1 =
        .ok (policyHandler [.allowedKinds (some [1])]) ∨
      InsertedFor spelledWeb policyDb 0 policyRpc 0 "Bearer A" 1
        (policyHandler [.allowedKinds (some [1])])) ∧
      TokenEntitles spelledWeb (fun issuer token => issuer = "pub:server" ∧
        token = "A") policyDb "Bearer A" 1
        (policyHandler [.allowedKinds (some [1])]) := by
  refine handlers_do_not_leak spelledWeb_collisionFree ?_ ?_ (by decide) (by decide +kernel)
  · intro token ucan issuer hdec hissuer _
    have htok : token = "A" ∧ ucan = policyToken := by
      have hlook : [("A", policyToken)].lookup token = some ucan := hdec
      rw [List.lookup_cons] at hlook
      split at hlook
      · next heq => exact ⟨by simpa using heq, (Option.some.inj hlook).symm⟩
      · cases hlook
    obtain ⟨rfl, rfl⟩ := htok
    exact ⟨(Option.some.inj hissuer).symm, rfl⟩
  · intro e he
    rcases List.mem_cons.mp he with rfl | he
    · trivial
    · rw [List.eq_of_mem_replicate he]
      trivial

end Keycast.Http
