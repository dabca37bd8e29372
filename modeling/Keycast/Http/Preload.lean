import Keycast.Http.Account
import Keycast.Http.FastPath

/-!
# `Http/Preload.lean` — what a preload token is good for

An imported account has a key but no email. Until its owner claims it, the server signs for it on
tokens it issues to its admins: server-signed, for the user's key, bound to no bunker. The claim
sets the email, and from then on `load_preloaded_user_handler` refuses.

That check is made when a handler is loaded. It is not made on a cache hit, and neither claiming
nor deleting drops the entries a preload token has made; `preload_user` answers a known vine id
with a token whoever has it now; and `change_key` leaves a row behind that looks unclaimed. The
result says that these are all the ways: a run that takes none of them is safe.

The proof is about one user. `Dead` says that the account is closed (claimed, or without its key
here) and that no instance has anything cached for a preload token of the user. A claim or a
deletion in a careful run leaves that behind (`Closes.dead`). Every statement but a cache insert is
`Tame`: it keeps a closed account closed and caches nothing. And an RPC with such a token gets as
far as the load, where it is refused (`validated_preload`), so that it inserts nothing either.
-/

set_option autoImplicit false

namespace Keycast.Http

open Lib

variable {w : Web} {u : PublicKey}

/-! ## Runs -/

/-- What happens in the deployment; an evicted entry is one more event. -/
inductive AccountCall
  | rpc (inst : InstanceId) (headers : Headers) (tenant : TenantId) (nonce : Nat)
      (req : NostrRpcRequest)
  | preloadUser (tenant : TenantId) (auth : UcanAuth) (fresh : Keys) (req : PreloadUserRequest)
  | getUserToken (tenant : TenantId) (auth : UcanAuth) (pubkey : String)
  | claimPost (tenant : TenantId) (form : ClaimForm)
  | changeKey (inst : InstanceId) (headers : Headers) (tenant : TenantId) (fresh : Keys)
      (req : ChangeKeyRequest)
  | deleteAccount (inst : InstanceId) (headers : Headers) (tenant : TenantId)
  | createClaimToken (row : ClaimToken)
  | tick (d : Nat)
  | evict (inst : InstanceId) (key : CacheKey)

def accountStep (w : Web) (s : State) : AccountCall → State
  | .rpc inst headers tenant nonce req => ((nostrRpc w inst headers tenant nonce req).run s).2
  | .preloadUser tenant auth fresh req => ((preloadUser w tenant auth fresh req).run s).2
  | .getUserToken tenant auth pubkey => ((getUserToken w tenant auth pubkey).run s).2
  | .claimPost tenant form => ((claimPost w tenant form).run s).2
  | .changeKey inst headers tenant fresh req =>
    ((changeKey w inst headers tenant fresh req).run s).2
  | .deleteAccount inst headers tenant => ((deleteAccount w inst headers tenant).run s).2
  | .createClaimToken row => s.withDb { s.db with claimTokens := s.db.claimTokens ++ [row] }
  | .tick d => { s with now := s.now + d }
  | .evict inst key => s.updateCache inst (·.invalidate key)

/-- The header an RPC comes with, and the tenant it is sent to. -/
def AccountCall.bearer : AccountCall → Option (String × TenantId)
  | .rpc _ headers tenant _ _ => (headers.authorization.bind id).map (·, tenant)
  | _ => none

/-- The keys `preload_user` generates, if it comes to that. -/
def AccountCall.generated : AccountCall → Option Keys
  | .preloadUser _ _ fresh _ => some fresh
  | _ => none

/-! ## The property -/

/-- The user a preload token is for: server-signed, and bound to no bunker. -/
def preloadTokenUser (w : Web) (authHeader : String) : Option PublicKey := do
  let token ← stripBearer authHeader
  let ucan ← w.decodeToken token
  if isServerSigned w ucan && (ucan.fact "bunker_pubkey" Json.asStr).isNone then ucan.audience
  else none

/-- The call claims or deletes the account of `u`, with success. -/
def Closes (w : Web) (u : PublicKey) (s : State) : AccountCall → Prop
  | .claimPost tenant form => ∃ token, ((claimPost w tenant form).run s).1 = .ok (u, token)
  | .deleteAccount inst headers tenant => ((deleteAccount w inst headers tenant).run s).1 = .ok u
  | _ => False

/-- The call signs for `u` on a preload token, or issues one. -/
def UsesPreload (w : Web) (u : PublicKey) (s : State) : AccountCall → Prop
  | .rpc inst headers tenant nonce req => ∃ authHeader r,
      headers.authorization = some (some authHeader) ∧ preloadTokenUser w authHeader = some u ∧
      ((nostrRpc w inst headers tenant nonce req).run s).1 = .ok r
  | .preloadUser tenant auth fresh req => ∃ r,
      ((preloadUser w tenant auth fresh req).run s).1 = .ok r ∧ w.publicKeyFromHex r.pubkey = .ok u
  | .getUserToken tenant auth pubkey => w.publicKeyFromHex pubkey = .ok u ∧
      ∃ token, ((getUserToken w tenant auth pubkey).run s).1 = .ok token
  | _ => False

/-- In the run, no call uses a preload token of `u` once the account is claimed or deleted. -/
def PreloadDies (w : Web) (u : PublicKey) (s : State) (calls : List AccountCall) : Prop :=
  ∀ pre c post, calls = pre ++ c :: post → Closes w u (run (accountStep w) s pre) c →
    Along (accountStep w) (fun s c => ¬ UsesPreload w u s c)
      (run (accountStep w) s (pre ++ [c])) post

/-! ## The condition -/

/-- The account of `u`, if there is one, is claimed or has no key here. -/
def Closed (u : PublicKey) (db : Db) : Prop :=
  (∀ r ∈ db.users, r.pubkey = u → r.email.isSome = true) ∨ ∀ k ∈ db.personalKeys, k.userPubkey ≠ u

instance (u : PublicKey) (db : Db) : Decidable (Closed u db) :=
  inferInstanceAs (Decidable (_ ∨ _))

/-- No instance has anything cached for those of the headers that hold a preload token of `u`. -/
def Cold (w : Web) (u : PublicKey) (bearers : List (String × TenantId)) (s : State) : Prop :=
  ∀ b ∈ bearers, preloadTokenUser w b.1 = some u →
    ∀ key ∈ computeTokenCacheKey w b.1 b.2, ∀ inst, (s.caches inst).get key = none

/-- A claim or deletion of `u` finds nothing cached; a token is issued only for an account that is
neither claimed nor without its key. -/
def Careful (w : Web) (u : PublicKey) (bearers : List (String × TenantId)) (s : State) :
    AccountCall → Prop
  | .claimPost _ form => ∀ t ∈ s.db.findValidClaimToken s.now form.token, t.userPubkey = u →
      Cold w u bearers s
  | .deleteAccount _ headers tenant =>
    deletionUser w s.now headers tenant = some u → Cold w u bearers s
  | .preloadUser tenant _ _ req => ∀ p ∈ s.db.findPubkeyByVineId req.vineId tenant,
      w.publicKeyFromHex p = .ok u → ¬ Closed u s.db
  | .getUserToken tenant _ pubkey => w.publicKeyFromHex pubkey = .ok u →
      s.db.isUnclaimed pubkey tenant = some true → ¬ Closed u s.db
  | _ => True

/-- Different tokens of the run have different cache keys. -/
def DistinctKeys (w : Web) (bearers : List (String × TenantId)) : Prop :=
  ∀ b ∈ bearers, ∀ b' ∈ bearers,
    computeTokenCacheKey w b.1 b.2 = computeTokenCacheKey w b'.1 b'.2 →
    stripBearer b.1 = stripBearer b'.1

/-- A generated key is no key that a user has had before. -/
def GeneratesNew (w : Web) (s : State) (calls : List AccountCall) : Prop :=
  ∀ pre mid c post, calls = pre ++ mid ++ c :: post → ∀ keys ∈ c.generated,
    ∀ r ∈ (run (accountStep w) s pre).db.users, r.pubkey ≠ w.publicKey keys

/-! ## What the statements do to a closed account -/

/-- The primary key of `users`. -/
def PkUnique (db : Db) : Prop := (db.users.map (·.pubkey)).Nodup

theorem PkUnique.insert {db : Db} (h : PkUnique db) {rows : List User} {r : User}
    (hrows : rows.map (·.pubkey) = db.users.map (·.pubkey))
    (hnew : ∀ r' ∈ db.users, r'.pubkey ≠ r.pubkey) : ((rows ++ [r]).map (·.pubkey)).Nodup := by
  rw [List.map_append, hrows, List.map_singleton, List.nodup_append]
  refine ⟨h, List.nodup_singleton _, ?_⟩
  intro p hp q hq
  obtain ⟨r', hr', rfl⟩ := List.mem_map.mp hp
  rw [List.mem_singleton.mp hq]
  exact hnew r' hr'

/-- What every statement but a cache insert does: the primary key stays one, the account of `u`
stays closed if no key generated meanwhile is `u`, and nothing is cached that was not. -/
structure Tame (new : Prop) (u : PublicKey) (s s' : State) : Prop where
  unique : PkUnique s.db → PkUnique s'.db
  closed : new → Closed u s.db → Closed u s'.db
  shrinks : Shrinks s s'

section Tame

variable {new : Prop}

theorem Tame.refl (s : State) : Tame new u s s := ⟨id, fun _ => id, fun _ _ _ h => h⟩

theorem Tame.trans {s₁ s₂ s₃ : State} (h : Tame new u s₁ s₂) (h' : Tame new u s₂ s₃) :
    Tame new u s₁ s₃ where
  unique := h'.unique ∘ h.unique
  closed := fun hnew => h'.closed hnew ∘ h.closed hnew
  shrinks := fun j key v hget => h.shrinks j key v (h'.shrinks j key v hget)

/-- A statement on tables the two facts are not about. -/
theorem Tame.ofTables {s s' : State} (husers : s'.db.users = s.db.users)
    (hkeys : s'.db.personalKeys = s.db.personalKeys) (hcaches : Shrinks s s') :
    Tame new u s s' where
  unique := by rw [PkUnique, PkUnique, husers]; exact id
  closed := by rw [Closed, Closed, husers, hkeys]; exact fun _ => id
  shrinks := hcaches

theorem Tame.createPreloadedUser {s : State} {db : Db} {pubkey : PublicKey} {tenant : TenantId}
    {vineId username : String} {enc : Bytes} (hne : new → pubkey ≠ u)
    (h : s.db.createPreloadedUser pubkey tenant vineId username enc = some db) :
    Tame new u s (s.withDb db) := by
  obtain ⟨r, rfl, husers, hkeys, hnew⟩ := Db.createPreloadedUser_eq h
  refine ⟨fun hpk => ?_, fun hn hclosed => ?_, fun _ _ _ h => h⟩
  · rw [State.withDb_db, PkUnique, husers]
    exact hpk.insert rfl hnew
  · rw [State.withDb_db, Closed, husers, hkeys]
    -- neither new row is about `u`
    refine hclosed.imp (fun hc r' hr' heq => ?_) (fun hc k hk => ?_)
    · rcases List.mem_append.mp hr' with hr' | hr'
      · exact hc r' hr' heq
      · rw [List.mem_singleton.mp hr'] at heq
        exact absurd heq (hne hn)
    · rcases List.mem_append.mp hk with hk | hk
      · exact hc k hk
      · rw [List.mem_singleton.mp hk]
        exact hne hn

/-- How `claim_account` succeeds. -/
theorem claimAccount_users {db db' : Db} {pubkey : PublicKey} {tenant : TenantId}
    {email hash : String} (h : db.claimAccount pubkey tenant email hash = .ok db') :
    (∃ r ∈ db.users, r.pubkey = pubkey ∧ r.tenantId = tenant ∧ r.email = none) ∧
      db'.personalKeys = db.personalKeys ∧
      db'.users = updateWhere
        (fun r => r.pubkey == pubkey && r.tenantId == tenant && r.email.isNone)
        (fun r => { r with email := some email, passwordHash := some hash, emailVerified := true })
        db.users := by
  obtain ⟨hrow, rfl⟩ := Db.claimAccount_rows h
  exact ⟨hrow, rfl, rfl⟩

theorem Tame.claimAccount {s : State} {db : Db} {pubkey : PublicKey} {tenant : TenantId}
    {email hash : String} (h : s.db.claimAccount pubkey tenant email hash = .ok db) :
    Tame new u s (s.withDb db) := by
  obtain ⟨-, hkeys, husers⟩ := claimAccount_users h
  refine ⟨fun hpk => ?_, fun hn hclosed => ?_, fun _ _ _ h => h⟩
  · rw [State.withDb_db, PkUnique, husers, map_updateWhere]
    · exact hpk
    · exact fun _ => rfl
  · rw [State.withDb_db, Closed, husers, hkeys]
    refine hclosed.imp_left fun hc r hr heq => ?_
    rcases mem_updateWhere.mp hr with ⟨r₀, -, -, rfl⟩ | ⟨hr, -⟩
    · rfl
    · exact hc r hr heq

theorem Tame.changeKeyTransaction {s : State} {db : Db} {oldPubkey newPubkey : PublicKey}
    {tenant : TenantId} {email hash : String} {enc : Bytes} {n : Nat}
    (h : s.db.changeKeyTransaction oldPubkey newPubkey tenant email hash enc = some (n, db)) :
    Tame new u s (s.withDb db) := by
  obtain ⟨r, rfl, hemail, husers, hkeys, hnew⟩ := Db.changeKeyTransaction_eq h
  refine ⟨fun hpk => ?_, fun hn hclosed => ?_, fun _ _ _ h => h⟩
  · rw [State.withDb_db, PkUnique, husers]
    refine hpk.insert ?_ hnew
    rw [map_updateWhere]
    exact fun _ => rfl
  rw [State.withDb_db, Closed, husers, hkeys]
  by_cases hu : r.pubkey = u
  · -- `u` is the new key: its only row is the new one, which has an email
    refine .inl fun r' hr' heq => ?_
    rcases List.mem_append.mp hr' with hr' | hr'
    · rcases mem_updateWhere.mp hr' with ⟨r₀, hr₀, -, rfl⟩ | ⟨hr', -⟩
      · exact absurd (heq.trans hu.symm) (hnew r₀ hr₀)
      · exact absurd (heq.trans hu.symm) (hnew r' hr')
    · rw [List.mem_singleton.mp hr', hemail]
      rfl
  by_cases hold : oldPubkey = u
  · -- `u` is the old key: it is gone
    subst hold
    refine .inr fun k hk => ?_
    rcases List.mem_append.mp hk with hk | hk
    · simpa using (List.mem_filter.mp hk).2
    · rw [List.mem_singleton.mp hk]
      exact hu
  · refine hclosed.imp (fun hc r' hr' heq => ?_) (fun hc k hk => ?_)
    · rcases List.mem_append.mp hr' with hr' | hr'
      · rcases mem_updateWhere.mp hr' with ⟨r₀, -, hp, rfl⟩ | ⟨hr', -⟩
        · simp only [Bool.and_eq_true, beq_iff_eq] at hp
          exact absurd (hp.1.symm.trans heq) hold
        · exact hc r' hr' heq
      · rw [List.mem_singleton.mp hr'] at heq
        exact absurd heq hu
    · rcases List.mem_append.mp hk with hk | hk
      · exact hc k (List.mem_filter.mp hk).1
      · rw [List.mem_singleton.mp hk]
        exact hu

theorem Tame.deletion {s : State} {db : Db} {user : PublicKey} {tenant : TenantId}
    {result : Db.DeleteAccountResult} (h : deletion w s.now s.db user tenant = (.ok result, db)) :
    Tame new u s (s.withDb db) := by
  obtain ⟨-, husers, hkeys⟩ := deletion_eq h
  refine ⟨fun hpk => ?_, fun hn hclosed => ?_, fun _ _ _ h => h⟩
  · rw [State.withDb_db, PkUnique, husers]
    exact hpk.sublist (List.filter_sublist.map _)
  · rw [State.withDb_db, Closed, husers, hkeys]
    exact hclosed.imp (fun hc r hr => hc r (List.mem_filter.mp hr).1)
      (fun hc k hk => hc k (List.mem_filter.mp hk).1)

theorem Shrinks.invalidateHandlersForUser (s : State) (inst : InstanceId) (user : PublicKey) :
    Shrinks s (s.invalidateHandlersForUser inst user) := by
  refine .updateCache fun key h hget => ?_
  rw [Cache.get_invalidateEntriesIf, Option.filter_eq_some_iff] at hget
  exact hget.1

/-- Every call but an RPC is tame. -/
theorem accountStep_tame {s : State} {c : AccountCall}
    (hrpc : ∀ inst headers tenant nonce req, c ≠ .rpc inst headers tenant nonce req) :
    Tame (∀ keys ∈ c.generated, w.publicKey keys ≠ u) u s (accountStep w s c) := by
  cases c with
  | rpc inst headers tenant nonce req => exact absurd rfl (hrpc inst headers tenant nonce req)
  | preloadUser tenant auth fresh req =>
    refine (preloadUser_steps Tame.refl tenant auth fresh req fun s enc db h => ?_).run Tame.refl
      (fun _ _ _ => Tame.trans) s
    exact .createPreloadedUser (fun hnew => hnew fresh rfl) h
  | getUserToken tenant auth pubkey =>
    exact (getUserToken_steps Tame.refl tenant auth pubkey).run Tame.refl
      (fun _ _ _ => Tame.trans) s
  | claimPost tenant form =>
    refine (claimPost_steps Tame.refl tenant form (fun s user email hash db h => ?_)
      fun s => ?_).run Tame.refl (fun _ _ _ => Tame.trans) s
    · exact .claimAccount h
    · exact .ofTables rfl rfl fun _ _ _ h => h
  | changeKey inst headers tenant fresh req =>
    refine (changeKey_steps Tame.refl inst headers tenant fresh req
      (fun s oldPubkey keys email hash enc n db h => ?_) fun s user => ?_).run Tame.refl
      (fun _ _ _ => Tame.trans) s
    · exact .changeKeyTransaction h
    · exact .ofTables rfl rfl (.invalidateHandlersForUser s inst user)
  | deleteAccount inst headers tenant =>
    refine (deleteAccount_steps Tame.refl inst headers tenant (fun s user bs db h => ?_)
      fun s b => ?_).run Tame.refl (fun _ _ _ => Tame.trans) s
    · exact .deletion h
    · exact .ofTables rfl rfl (.invalidateHandlersForBunker s inst b)
  | createClaimToken row => exact .ofTables rfl rfl fun _ _ _ h => h
  | tick d => exact .ofTables rfl rfl fun _ _ _ h => h
  | evict inst key => exact .ofTables rfl rfl (.invalidate s inst key)

end Tame

/-! ## What a preload token still opens -/

theorem Closed.no_load {db : Db} (h : Closed u db) (tenant : TenantId) :
    db.isUnclaimed u tenant ≠ some true ∨ db.encryptedKeyForTenant u tenant = none := by
  refine h.imp (fun hc hunclaimed => ?_) (fun hc => ?_)
  · obtain ⟨r, hfind, hemail⟩ := Option.map_eq_some_iff.mp hunclaimed
    have hpk : r.pubkey = u := by
      have := List.find?_some hfind
      simp only [Bool.and_eq_true, beq_iff_eq] at this
      exact this.1
    have hsome := hc r (List.mem_of_find?_eq_some hfind) hpk
    rw [Option.isNone_iff_eq_none] at hemail
    rw [hemail] at hsome
    cases hsome
  · refine Option.map_eq_none_iff.mpr (List.find?_eq_none.mpr fun k hk hp => ?_)
    simp only [Bool.and_eq_true, beq_iff_eq] at hp
    exact hc k hk hp.1

theorem preloadTokenUser_congr {header header' : String}
    (h : stripBearer header = stripBearer header') :
    preloadTokenUser w header = preloadTokenUser w header' := by
  unfold preloadTokenUser
  rw [h]

/-- How the slow path goes on for a preload token. -/
theorem validated_preload {now : Timestamp} {authHeader : String} {tenant : TenantId}
    {v : PublicKey × String × Option PublicKey × Ucan}
    (htoken : preloadTokenUser w authHeader = some u)
    (hvalid : validateUcanToken w now authHeader tenant = .ok v) :
    loadValidated w tenant v = loadPreloadedUserHandler w u tenant := by
  obtain ⟨user, origin, bunker, ucan⟩ := v
  obtain ⟨hdecode, haud, rfl⟩ := validateUcanToken_ok hvalid
  unfold preloadTokenUser at htoken
  obtain ⟨token, htok, htoken⟩ := Option.bind_eq_some_iff.mp htoken
  obtain ⟨ucan', hdec, htoken⟩ := Option.bind_eq_some_iff.mp htoken
  rw [htok, Option.bind_some, hdec, Option.some.injEq] at hdecode
  subst hdecode
  split at htoken
  · next hkind =>
    rw [Bool.and_eq_true, Option.isNone_iff_eq_none] at hkind
    rw [haud, Option.some.injEq] at htoken
    subst htoken
    rw [hkind.2]
    exact if_pos hkind.1
  · cases htoken

theorem loadForToken_closed {authHeader : String} {tenant : TenantId} {s : State}
    (htoken : preloadTokenUser w authHeader = some u) (hclosed : Closed u s.db)
    (h : HttpRpcHandler) :
    ((loadForToken w authHeader tenant).run s).1 ≠ .ok h := by
  rw [loadForToken_run]
  cases hvalid : validateUcanToken w s.now authHeader tenant with
  | error e => simp
  | ok v =>
    show ((loadValidated w tenant v).run s).1 ≠ _
    rw [validated_preload htoken hvalid]
    intro hrun
    obtain ⟨unclaimed, _, h₁, hrun⟩ := Prog.run_bind_ok.mp (Prod.ext hrun rfl)
    obtain ⟨rfl, rfl⟩ := Prog.run_read_ok.mp h₁
    split at hrun
    · cases hrun
    · next hunclaimed =>
      rw [not_not] at hunclaimed
      obtain ⟨enc, _, h₂, hrun⟩ := Prog.run_bind_ok.mp hrun
      obtain ⟨rfl, rfl⟩ := Prog.run_read_ok.mp h₂
      obtain ⟨secret, _, h₃, hrun⟩ := Prog.run_bind_ok.mp hrun
      obtain ⟨henc, -⟩ := Prog.run_orErr_ok.mp h₃
      rcases hclosed.no_load tenant with hno | hno
      · exact hno hunclaimed
      · rw [hno] at henc
        cases henc

theorem getHandler_db (inst : InstanceId) (authHeader : String) (tenant : TenantId) (s : State) :
    ((getHandler w inst authHeader tenant).run s).2.db = s.db := by
  rw [getHandler_run]
  repeat' split
  all_goals rfl

theorem nostrRpc_db (inst : InstanceId) (headers : Headers) (tenant : TenantId) (nonce : Nat)
    (req : NostrRpcRequest) (s : State) :
    ((nostrRpc w inst headers tenant nonce req).run s).2.db = s.db := by
  rw [nostrRpc_state]
  split
  · exact getHandler_db _ _ _ s
  · rfl

theorem nostrRpc_handler {inst : InstanceId} {headers : Headers} {tenant : TenantId} {nonce : Nat}
    {req : NostrRpcRequest} {s : State} {authHeader : String} {r : HttpRpcHandler × Json}
    (hauth : headers.authorization = some (some authHeader))
    (h : ((nostrRpc w inst headers tenant nonce req).run s).1 = .ok r) :
    ∃ handler, ((getHandler w inst authHeader tenant).run s).1 = .ok handler := by
  unfold nostrRpc at h
  obtain ⟨header, _, h₁, h⟩ := Prog.run_bind_ok.mp (Prod.ext h rfl)
  obtain ⟨hheader, rfl⟩ := Prog.run_orErr_ok.mp h₁
  obtain ⟨handler, s', h₂, -⟩ := Prog.run_bind_ok.mp h
  rw [hauth] at hheader
  cases hheader
  exact ⟨handler, by rw [h₂]⟩

/-- The account is closed and nothing is cached for its preload tokens. -/
structure Dead (w : Web) (u : PublicKey) (bearers : List (String × TenantId))
    (s : State) : Prop where
  closed : Closed u s.db
  cold : Cold w u bearers s

section Run

variable {bearers : List (String × TenantId)} {s : State} {c : AccountCall}

theorem Cold.shrinks {s' : State} (h : Cold w u bearers s) (hs : Shrinks s s') :
    Cold w u bearers s' := by
  intro b hb htoken key hkey inst
  cases hget : (s'.caches inst).get key with
  | none => rfl
  | some v =>
    have hold := hs inst key v hget
    rw [h b hb htoken key hkey inst] at hold
    cases hold

theorem Dead.rpc {inst : InstanceId} {headers : Headers} {tenant : TenantId} {nonce : Nat}
    {req : NostrRpcRequest} (hdead : Dead w u bearers s) (hkeys : DistinctKeys w bearers)
    (hmem : ∀ b ∈ (AccountCall.rpc inst headers tenant nonce req).bearer, b ∈ bearers) :
    Dead w u bearers (accountStep w s (.rpc inst headers tenant nonce req)) := by
  refine ⟨?_, ?_⟩
  · show Closed u ((nostrRpc w inst headers tenant nonce req).run s).2.db
    rw [nostrRpc_db]
    exact hdead.closed
  · intro b hb htoken key hkey j
    show (((nostrRpc w inst headers tenant nonce req).run s).2.caches j).get key = none
    rw [nostrRpc_state]
    split
    · next authHeader hauth =>
      cases hget : (((getHandler w inst authHeader tenant).run s).2.caches j).get key with
      | none => rfl
      | some h =>
        exfalso
        rcases getHandler_get hget with hold | ⟨-, hkey', hload⟩
        · rw [hdead.cold b hb htoken key hkey j] at hold
          cases hold
        · -- the request loaded it, so its token is a preload token of `u` too
          have hself : (authHeader, tenant) ∈ bearers := by
            apply hmem
            simp [AccountCall.bearer, hauth]
          have hsame : stripBearer authHeader = stripBearer b.1 :=
            hkeys _ hself b hb (hkey'.trans (Option.mem_def.mp hkey).symm)
          rw [← preloadTokenUser_congr hsame] at htoken
          exact loadForToken_closed htoken hdead.closed h hload
    · exact hdead.cold b hb htoken key hkey j

/-- What one call of a careful run does. -/
theorem PkUnique.accountStep (hpk : PkUnique s.db) (c : AccountCall) :
    PkUnique (accountStep w s c).db := by
  by_cases hrpc : ∃ inst headers tenant nonce req, c = .rpc inst headers tenant nonce req
  · obtain ⟨inst, headers, tenant, nonce, req, rfl⟩ := hrpc
    show PkUnique ((nostrRpc w inst headers tenant nonce req).run s).2.db
    rw [nostrRpc_db]
    exact hpk
  · push Not at hrpc
    exact (accountStep_tame (u := "") hrpc).unique hpk

theorem Dead.accountStep (hdead : Dead w u bearers s) (hkeys : DistinctKeys w bearers)
    (hmem : ∀ b ∈ c.bearer, b ∈ bearers) (hnew : ∀ keys ∈ c.generated, w.publicKey keys ≠ u) :
    Dead w u bearers (accountStep w s c) := by
  by_cases hrpc : ∃ inst headers tenant nonce req, c = .rpc inst headers tenant nonce req
  · obtain ⟨inst, headers, tenant, nonce, req, rfl⟩ := hrpc
    exact hdead.rpc hkeys hmem
  · push Not at hrpc
    have htame : Tame _ u s _ := accountStep_tame (w := w) hrpc
    exact ⟨htame.closed hnew hdead.closed, hdead.cold.shrinks htame.shrinks⟩

/-- How `preload_user` can have succeeded. -/
theorem preloadUser_ok {tenant : TenantId} {auth : UcanAuth} {fresh : Keys}
    {req : PreloadUserRequest}
    {r : PreloadUserResponse} (h : ((preloadUser w tenant auth fresh req).run s).1 = .ok r) :
    s.db.findPubkeyByVineId req.vineId tenant = some r.pubkey ∨ r.pubkey = w.publicKey fresh := by
  unfold preloadUser at h
  split at h
  · cases h
  obtain ⟨serverKeys, _, h₁, h⟩ := Prog.run_bind_ok.mp (Prod.ext h rfl)
  obtain ⟨-, rfl⟩ := Prog.run_ofExcept_ok.mp h₁
  obtain ⟨existing, _, h₂, h⟩ := Prog.run_bind_ok.mp h
  obtain ⟨hfind, rfl⟩ := Prog.run_read_ok.mp h₂
  split at h
  · next pubkey =>
    obtain ⟨user, _, -, h⟩ := Prog.run_bind_ok.mp h
    obtain ⟨token, _, -, h⟩ := Prog.run_bind_ok.mp h
    obtain ⟨rfl, -⟩ := Prog.run_ret_ok.mp h
    exact .inl hfind
  · obtain ⟨taken, _, -, h⟩ := Prog.run_bind_ok.mp h
    split at h
    · cases h
    · obtain ⟨encrypted, _, -, h⟩ := Prog.run_bind_ok.mp h
      obtain ⟨_, _, -, h⟩ := Prog.run_bind_ok.mp h
      obtain ⟨token, _, -, h⟩ := Prog.run_bind_ok.mp h
      obtain ⟨rfl, -⟩ := Prog.run_ret_ok.mp h
      exact .inr rfl

theorem getUserToken_ok {tenant : TenantId} {auth : UcanAuth} {pubkey token : String}
    (h : ((getUserToken w tenant auth pubkey).run s).1 = .ok token) :
    s.db.isUnclaimed pubkey tenant = some true := by
  unfold getUserToken at h
  split at h
  · cases h
  obtain ⟨user, _, h₁, h⟩ := Prog.run_bind_ok.mp (Prod.ext h rfl)
  obtain ⟨-, rfl⟩ := Prog.run_ofExcept_ok.mp h₁
  obtain ⟨unclaimed, _, h₂, h⟩ := Prog.run_bind_ok.mp h
  obtain ⟨hunclaimed, -⟩ := Prog.run_read_ok.mp h₂
  split at h
  · cases h
  · cases h
  · exact hunclaimed

theorem Dead.not_usesPreload (hdead : Dead w u bearers s)
    (hhex : ∀ keys, w.publicKeyFromHex (w.publicKey keys) = .ok (w.publicKey keys))
    (hcareful : Careful w u bearers s c) (hmem : ∀ b ∈ c.bearer, b ∈ bearers)
    (hnew : ∀ keys ∈ c.generated, w.publicKey keys ≠ u) : ¬ UsesPreload w u s c := by
  cases c with
  | rpc inst headers tenant nonce req =>
    rintro ⟨authHeader, r, hauth, htoken, hok⟩
    obtain ⟨handler, hget⟩ := nostrRpc_handler hauth hok
    rw [getHandler_run] at hget
    cases hkey : computeTokenCacheKey w authHeader tenant with
    | none => simp [hkey] at hget
    | some key =>
      have hself : (authHeader, tenant) ∈ bearers := by
        apply hmem
        simp [AccountCall.bearer, hauth]
      simp only [hkey, hdead.cold _ hself htoken key hkey inst] at hget
      cases hload : ((loadForToken w authHeader tenant).run s).1 with
      | error e => simp [hload] at hget
      | ok h => exact loadForToken_closed htoken hdead.closed h hload
  | preloadUser tenant auth fresh req =>
    rintro ⟨r, hok, huser⟩
    rcases preloadUser_ok hok with hfind | hfresh
    · exact hcareful r.pubkey hfind huser hdead.closed
    · rw [hfresh, hhex, Except.ok.injEq] at huser
      exact hnew fresh rfl huser
  | getUserToken tenant auth pubkey =>
    rintro ⟨huser, token, hok⟩
    exact hcareful huser (getUserToken_ok hok) hdead.closed
  | claimPost | changeKey | deleteAccount | createClaimToken | tick | evict => exact id

theorem closed_of_claimAccount {db db' : Db} {tenant : TenantId} {email hash : String}
    (hpk : PkUnique db) (h : db.claimAccount u tenant email hash = .ok db') : Closed u db' := by
  obtain ⟨⟨r₀, hr₀, hpub, htenant, hnone⟩, -, husers⟩ := claimAccount_users h
  refine .inl fun r hr heq => ?_
  rw [husers] at hr
  rcases mem_updateWhere.mp hr with ⟨r₁, -, -, rfl⟩ | ⟨hr, hmine⟩
  · rfl
  · -- there is only one row of `u`, and it was the one to claim
    obtain rfl : r = r₀ := List.inj_on_of_nodup_map hpk hr hr₀ (heq.trans hpub.symm)
    simp [hpub, htenant, hnone] at hmine

theorem closed_of_deletion {now : Timestamp} {db db' : Db} {tenant : TenantId}
    {result : Db.DeleteAccountResult} (h : deletion w now db u tenant = (.ok result, db')) :
    Closed u db' := by
  obtain ⟨-, husers, -⟩ := deletion_eq h
  refine .inl fun r hr heq => ?_
  rw [husers, List.mem_filter] at hr
  simp [heq] at hr

/-- The call that closes the account leaves it dead. -/
theorem Closes.dead (hcloses : Closes w u s c) (hpk : PkUnique s.db)
    (hcareful : Careful w u bearers s c) : Dead w u bearers (accountStep w s c) := by
  cases c with
  | claimPost tenant form =>
    obtain ⟨token, hok⟩ := hcloses
    obtain ⟨t, email, hash, db, hfind, huser, hclaim, hs'⟩ := claimPost_ok (Prod.ext hok rfl)
    have hstep : accountStep w s (.claimPost tenant form) =
      s.withDb (db.markUsed s.now form.token) := hs'
    have hclosed : Closed u db := closed_of_claimAccount hpk hclaim
    rw [hstep]
    exact ⟨hclosed, hcareful t hfind huser⟩
  | deleteAccount inst headers tenant =>
    obtain ⟨huser, result, db, hdelete, hs'⟩ := deleteAccount_ok (Prod.ext hcloses rfl)
    -- what follows the transaction drops entries and sends messages
    have hinvalidate : Tame True u (s.withDb db)
        ((invalidateBunkers w inst result.bunkerPubkeys : Prog Stmt State AuthError Unit).run
          (s.withDb db)).2 := by
      refine (invalidateBunkers_steps inst (fun s b => ?_) result.bunkerPubkeys).run Tame.refl
        (fun _ _ _ => Tame.trans) (s.withDb db)
      exact .ofTables rfl rfl (.invalidateHandlersForBunker s inst b)
    have htame :
      Tame True u (s.withDb db) (accountStep w s (.deleteAccount inst headers tenant)) := by
      have hstep : accountStep w s (.deleteAccount inst headers tenant) = _ := hs'
      rw [hstep]
      apply hinvalidate.trans
      exact (sendRemoves_steps Tame.refl _).run Tame.refl (fun _ _ _ => Tame.trans) _
    refine ⟨htame.closed trivial (closed_of_deletion hdelete), ?_⟩
    have hcold : Cold w u bearers (s.withDb db) := hcareful huser
    exact hcold.shrinks htame.shrinks
  | rpc | preloadUser | getUserToken | changeKey | createClaimToken | tick | evict =>
    exact hcloses.elim

/-- Whoever's account is closed is a user. -/
theorem Closes.user (hcloses : Closes w u s c) : ∃ r ∈ s.db.users, r.pubkey = u := by
  cases c with
  | claimPost tenant form =>
    obtain ⟨token, hok⟩ := hcloses
    obtain ⟨t, email, hash, db, -, -, hclaim, -⟩ := claimPost_ok (Prod.ext hok rfl)
    obtain ⟨⟨r, hr, hpub, -⟩, -⟩ := claimAccount_users hclaim
    exact ⟨r, hr, hpub⟩
  | deleteAccount inst headers tenant =>
    obtain ⟨-, result, db, hdelete, -⟩ := deleteAccount_ok (Prod.ext hcloses rfl)
    exact (deletion_eq hdelete).1
  | rpc | preloadUser | getUserToken | changeKey | createClaimToken | tick | evict =>
    exact hcloses.elim

end Run

/-! ## The result -/

/-- **A preload token dies with the claim**, in every run in which no claim or deletion of `u`
leaves a handler of such a token cached, and no admin asks for a token for an account that is
claimed or has lost its key. -/
theorem preload_token_dies {s : State} {calls : List AccountCall}
    (hhex : ∀ keys, w.publicKeyFromHex (w.publicKey keys) = .ok (w.publicKey keys))
    (hpk : PkUnique s.db) (hkeys : DistinctKeys w (calls.filterMap AccountCall.bearer))
    (hnew : GeneratesNew w s calls)
    (hcareful : Along (accountStep w) (Careful w u (calls.filterMap AccountCall.bearer)) s calls) :
    PreloadDies w u s calls := by
  intro pre c post hcalls hcloses
  have hsplit : calls = (pre ++ [c]) ++ post := by rw [hcalls, List.append_assoc]; rfl
  -- what is known of the calls after the cut
  have hmem : ∀ c' ∈ post, ∀ b ∈ c'.bearer, b ∈ calls.filterMap AccountCall.bearer := by
    intro c' hc' b hb
    refine List.mem_filterMap.mpr ⟨c', ?_, hb⟩
    rw [hsplit]
    exact List.mem_append_right _ hc'
  have hother : ∀ c' ∈ post, ∀ keys ∈ c'.generated, w.publicKey keys ≠ u := by
    intro c' hc' keys hgen
    obtain ⟨r, hr, rfl⟩ := hcloses.user
    obtain ⟨mid, rest, rfl⟩ := List.append_of_mem hc'
    exact (hnew pre (c :: mid) c' rest (by simp [hcalls]) keys hgen r hr).symm
  generalize calls.filterMap AccountCall.bearer = bearers at *
  rw [hsplit] at hcareful
  obtain ⟨hbefore, hafter⟩ := along_append.mp hcareful
  -- the call at the cut closes the account
  have hpk' : PkUnique (run (accountStep w) s pre).db :=
    run_invariant (I := fun s => PkUnique s.db) (fun s c h _ => h.accountStep c) hpk
      (along_append.mp hbefore).1
  have hdead : Dead w u bearers (run (accountStep w) s (pre ++ [c])) := by
    rw [run_append]
    exact hcloses.dead hpk' (along_singleton.mp (along_append.mp hbefore).2)
  -- and it stays so
  have hlater := hafter.and (.of_forall (fun c' hc' => And.intro (hmem c' hc') (hother c' hc')) _)
  refine along_of_invariant (I := Dead w u bearers) (fun s c h hc => ?_) (fun s c h hc => ?_) hdead
    hlater
  · exact h.accountStep hkeys hc.2.1 hc.2.2
  · exact h.not_usesPreload hhex hc.1 hc.2.1 hc.2.2

/-! An admin imports an account, and its owner claims it. -/

def preloadToken : String := "ucan of pub:sk for no bunker from preload"

def preloadWeb : Web :=
  .symbolic
    [(preloadToken,
        { issuer := some "pub:server", audience := some "pub:sk", exp := some 3000000
          facts := [.obj [("tenant_id", .int 1), ("redirect_origin", .str "preload")]] }),
      ("owner",
        { issuer := some "pub:sk", audience := some "pub:sk", exp := some 3000000
          facts := [.obj [("tenant_id", .int 1), ("redirect_origin", .str "https://app")]] })] []

def preloadCall : AccountCall := .preloadUser 1 ⟨"admin", some "full"⟩ "sk" ⟨"vine", "alice"⟩

def linkCall : AccountCall :=
  .createClaimToken { token := "link", userPubkey := "pub:sk", tenantId := 1, expiresAt := 1000 }

def claimCall : AccountCall := .claimPost 1 ⟨"link", "alice@example.com", "password", "password"⟩

def signCall : AccountCall :=
  .rpc 0 { authorization := some (some ("Bearer " ++ preloadToken)) } 1 0
    { method := "get_public_key" }

def removeCall : AccountCall := .deleteAccount 0 { authorization := some (some "Bearer owner") } 1

def rekeyCall : AccountCall :=
  .changeKey 0
    { authorization := some (some "Bearer owner"), origin := some (some "https://app") } 1 "sk2"
    ⟨"password", none⟩

def importedState : State := .boot {} 0

/-- Claimed before the token is ever used. -/
def quietRun : List AccountCall := [preloadCall, linkCall, claimCall, signCall]

theorem quietRun_new : GeneratesNew preloadWeb importedState quietRun := by
  intro pre mid c post hcalls keys hgen r hr
  cases pre with
  | nil => cases hr
  | cons p pre =>
    -- the only key is generated before there is any user
    have hc : c ∈ [linkCall, claimCall, signCall] := by
      have htail : [linkCall, claimCall, signCall] = pre ++ mid ++ c :: post :=
        (List.cons.inj hcalls).2
      rw [htail]
      simp
    simp only [List.mem_cons, List.not_mem_nil, or_false] at hc
    rcases hc with rfl | rfl | rfl <;> cases hgen

theorem quietRun_careful (bearers : List (String × TenantId)) :
    Along (accountStep preloadWeb) (Careful preloadWeb "pub:sk" bearers) importedState
      quietRun := by
  have hboot : Cold preloadWeb "pub:sk" bearers importedState :=
    fun _ _ _ key _ _ => Cache.get_empty key
  have hpreload : Shrinks importedState (accountStep preloadWeb importedState preloadCall) :=
    (accountStep_tame (u := "") fun _ _ _ _ _ => by simp [preloadCall]).shrinks
  refine ⟨?_, trivial, ?_, trivial, trivial⟩
  · intro p hp
    cases hp
  · intro t _ _
    exact (hboot.shrinks hpreload).shrinks fun _ _ _ h => h

theorem preload_token_dies_unused :
    Closes preloadWeb "pub:sk" (run (accountStep preloadWeb) importedState [preloadCall, linkCall])
        claimCall ∧
      ¬ UsesPreload preloadWeb "pub:sk"
        (run (accountStep preloadWeb) importedState [preloadCall, linkCall, claimCall])
          signCall := by
  have hcloses : Closes preloadWeb "pub:sk"
      (run (accountStep preloadWeb) importedState [preloadCall, linkCall]) claimCall :=
    ⟨"ucan of pub:sk for no bunker from claim", by decide⟩
  have hkeys : DistinctKeys preloadWeb (quietRun.filterMap AccountCall.bearer) := by
    intro b hb b' hb' _
    rw [List.mem_singleton.mp hb, List.mem_singleton.mp hb']
  have hdies : PreloadDies preloadWeb "pub:sk" importedState quietRun :=
    preload_token_dies (fun _ => rfl) List.nodup_nil hkeys quietRun_new (quietRun_careful _)
  exact ⟨hcloses,
    along_singleton.mp (hdies [preloadCall, linkCall] claimCall [signCall] rfl hcloses)⟩

/-! The four ways a preload token outlives its account. -/

theorem not_preloadDies {s : State} {pre : List AccountCall} (mid post : List AccountCall)
    {c c' : AccountCall} (hcloses : Closes w u (run (accountStep w) s pre) c)
    (huses : UsesPreload w u (run (accountStep w) s (pre ++ c :: mid)) c') :
    ¬ PreloadDies w u s (pre ++ c :: (mid ++ c' :: post)) := by
  intro hdies
  have hafter := along_append.mp (hdies pre c (mid ++ c' :: post) rfl hcloses)
  rw [← run_append] at hafter
  refine hafter.2.1 ?_
  rw [List.append_assoc]
  exact huses

def askCall : AccountCall := .getUserToken 1 ⟨"admin", some "full"⟩ "pub:sk"

theorem signCall_uses {s : State} (hok : ((nostrRpc preloadWeb 0
      { authorization := some (some ("Bearer " ++ preloadToken)) } 1 0
      { method := "get_public_key" }).run s).1.isOk = true) :
    UsesPreload preloadWeb "pub:sk" s signCall := by
  cases hrun :
    ((nostrRpc preloadWeb 0 { authorization := some (some ("Bearer " ++ preloadToken)) } 1 0
      { method := "get_public_key" }).run s).1 with
  | error e => rw [hrun] at hok; cases hok
  | ok r => exact ⟨"Bearer " ++ preloadToken, r, rfl, by decide, hrun⟩

/-- A cached handler is served after the claim, and after a deletion signed with the account's own
key (a claimed account has a claim token, and cannot be deleted); `preload_user` gives out a token
for a claimed vine id; and once the owner has changed the key, the row it leaves looks unclaimed to
`get_user_token`. -/
theorem preload_token_outlives_account :
    ¬ PreloadDies preloadWeb "pub:sk" importedState
        [preloadCall, linkCall, signCall, claimCall, signCall] ∧
      ¬ PreloadDies preloadWeb "pub:sk" importedState
        [preloadCall, signCall, removeCall, signCall] ∧
      ¬ PreloadDies preloadWeb "pub:sk" importedState
        [preloadCall, linkCall, claimCall, preloadCall] ∧
      ¬ PreloadDies preloadWeb "pub:sk" importedState
        [preloadCall, linkCall, claimCall, rekeyCall, askCall] := by
  have hclaimed : Closes preloadWeb "pub:sk"
      (run (accountStep preloadWeb) importedState [preloadCall, linkCall]) claimCall :=
    ⟨"ucan of pub:sk for no bunker from claim", by decide⟩
  have hclaimed' : Closes preloadWeb "pub:sk"
      (run (accountStep preloadWeb) importedState [preloadCall, linkCall, signCall]) claimCall :=
    ⟨"ucan of pub:sk for no bunker from claim", by decide⟩
  have hremoved : Closes preloadWeb "pub:sk"
      (run (accountStep preloadWeb) importedState [preloadCall, signCall]) removeCall := by
    show ((deleteAccount _ _ _ _).run _).1 = _
    decide
  refine ⟨?_, ?_, ?_, ?_⟩
  · refine not_preloadDies [] [] hclaimed' ?_
    exact signCall_uses (by decide)
  · refine not_preloadDies [] [] hremoved ?_
    exact signCall_uses (by decide)
  · refine not_preloadDies [] [] hclaimed ?_
    exact ⟨⟨"pub:sk", preloadToken⟩, by decide, rfl⟩
  · refine not_preloadDies [rekeyCall] [] hclaimed ?_
    exact ⟨rfl, preloadToken, by decide⟩

end Keycast.Http
