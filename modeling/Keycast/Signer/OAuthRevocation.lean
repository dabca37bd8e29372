import Keycast.Lib.Histories
import Keycast.Signer.System

/-!
# `Signer/OAuthRevocation.lean` — a revoked OAuth bunker does not answer

The daemon caches handlers and the cache goes stale: a handler loaded before a revocation is
still `Active` after it, a tombstone is evicted, an `Upsert` that was under way finishes late. The
reason none of that matters for OAuth bunkers is the client gate. Every sensitive request asks the
table again, inside the request, and a success is only possible after a `SELECT` that saw a live
row bound to this client, or bound to nobody.

The argument needs one invariant of the cache (`CacheOk`): the handler filed under an OAuth bunker
key is an OAuth handler with that very key. Without the first half the gate would be skipped;
without the second it would ask about another bunker. It is why the result has to assume that no
key is in both authorization tables, and why the stored bunker keys have to be the derived ones
(`Db.Derived`), which every creation site sees to.

The other half is about what the request itself has done. Its history names a `SELECT` that saw a
live row (`PassedGate.live_row`); where that row was bound to nobody, it also names an `UPDATE`.
`System.Meets.executed` finds the place of the run where the statement was executed, and there the
rows with this id are bound to the client (`storeClient_executed`, `BindsRows`).
-/

set_option autoImplicit false

namespace Keycast

open Lib

/-! ## Stored bunker keys are the derived ones -/

namespace Db

/-- Every stored bunker key is the one that derives from the user's key and the secret's hash. -/
def Derived (ext : External) (db : Db) : Prop :=
  ∀ a ∈ db.oauthAuthorizations, ∀ keys ∈ db.bunkerKeys ext a, ext.publicKey keys = a.bunkerPublicKey

instance (ext : External) (db : Db) : Decidable (db.Derived ext) :=
  inferInstanceAs (Decidable (∀ a ∈ db.oauthAuthorizations, ∀ keys ∈ db.bunkerKeys ext a,
    ext.publicKey keys = a.bunkerPublicKey))

variable {ext : External} {db : Db}

/-- An update of the columns the derivation does not involve. -/
theorem Derived.updateOAuth (h : db.Derived ext) {p : OAuthAuthorization → Bool}
    {f : OAuthAuthorization → OAuthAuthorization}
    (hf : ∀ a, (f a).userPubkey = a.userPubkey ∧ (f a).tenantId = a.tenantId ∧
      (f a).secretHash = a.secretHash ∧ (f a).bunkerPublicKey = a.bunkerPublicKey) :
    (db.updateOAuth p f).Derived ext := by
  intro a ha keys hkeys
  simp only [Db.updateOAuth, mem_updateWhere] at ha
  rcases ha with ⟨a₀, ha₀, -, rfl⟩ | ⟨ha, -⟩
  · obtain ⟨hu, ht, hs, hb⟩ := hf a₀
    rw [hb]
    refine h a₀ ha₀ keys ?_
    simpa only [bunkerKeys, personalKey, Db.updateOAuth, hu, ht, hs] using hkeys
  · exact h a ha keys hkeys

theorem personalKey_deleteUser {user u : PublicKey} {t : TenantId} {enc : Bytes}
    (h : (db.deleteUser user).personalKey u t = some enc) : db.personalKey u t = some enc := by
  simp only [personalKey, deleteUser, List.find?_filter, Option.map_eq_some_iff] at h ⊢
  obtain ⟨k, hk, rfl⟩ := h
  refine ⟨k, ?_, rfl⟩
  rw [← hk]
  -- a key of `u` was found, so `u` is not the deleted user and the filter drops none of its keys
  have hku := List.find?_some hk
  simp only [Bool.and_eq_true, bne_iff_ne, beq_iff_eq, decide_eq_true_eq] at hku
  congr 1
  funext k'
  by_cases hk' : k'.userPubkey = u
  · have : k'.userPubkey ≠ user := fun he => hku.1 (by rw [hku.2.1, ← hk', he])
    simp [this, BEq.beq]
  · simp [hk']

theorem Derived.deleteUser (h : db.Derived ext) (user : PublicKey) :
    (db.deleteUser user).Derived ext := by
  intro a ha keys hkeys
  have ha' : a ∈ db.oauthAuthorizations := (List.mem_filter.mp ha).1
  refine h a ha' keys ?_
  simp only [bunkerKeys, Option.mem_def, Option.bind_eq_some_iff] at hkeys ⊢
  obtain ⟨enc, henc, hk⟩ := hkeys
  exact ⟨enc, personalKey_deleteUser henc, hk⟩

theorem Derived.createOAuth (h : db.Derived ext) (row : OAuthAuthorization) :
    (db.createOAuth ext row).Derived ext := by
  intro a ha keys hkeys
  have hsame : (db.createOAuth ext row).bunkerKeys ext a = db.bunkerKeys ext a := by
    simp only [bunkerKeys, personalKey, createOAuth_personalKeys]
  rw [hsame] at hkeys
  rcases mem_createOAuth ha with ha | ⟨keys', hk', hu, ht, hs, hb⟩
  · exact h a ha keys hkeys
  · simp only [bunkerKeys, hu, ht, hs] at hkeys hk'
    rw [Option.mem_def, hk', Option.some.injEq] at hkeys
    rw [hb, hkeys]

end Db

namespace Signer

/-! ## The invariant -/

/-- The handlers that may be cached for an OAuth bunker key. -/
def HandlerFor (ext : External) (k : PublicKey) (h : Nip46Handler) : Prop :=
  h.isOauth = true ∧ ext.publicKey h.bunkerKeys = k

/-- The invariant of the shared state, for one OAuth bunker key. -/
structure CacheOk (ext : External) (k : PublicKey) (s : State) : Prop where
  derived : s.db.Derived ext
  cached : ∀ h, s.handlers.get k = some h → HandlerFor ext k h

def IsOAuthBunker (k : PublicKey) (s : State) : Prop :=
  ∃ a ∈ s.db.oauthAuthorizations, a.bunkerPublicKey = k

instance (k : PublicKey) (s : State) : Decidable (IsOAuthBunker k s) :=
  inferInstanceAs (Decidable (∃ a ∈ s.db.oauthAuthorizations, a.bunkerPublicKey = k))

def IsTeamBunker (k : PublicKey) (s : State) : Prop :=
  ∃ a ∈ s.db.authorizations, a.bunkerPublicKey = k

/-- Personal keys are not replaced while the daemon runs: what is there now was there before. -/
def KeysKept (s s' : State) : Prop :=
  ∀ u t enc, s'.db.personalKey u t = some enc → s.db.personalKey u t = some enc

theorem KeysKept.refl (s : State) : KeysKept s s := fun _ _ _ h => h

theorem KeysKept.trans {a b c : State} (h₁ : KeysKept a b) (h₂ : KeysKept b c) : KeysKept a c :=
  fun u t enc h => h₁ u t enc (h₂ u t enc h)

theorem KeysKept.of_eq {s s' : State} (h : s'.db.personalKeys = s.db.personalKeys) :
    KeysKept s s' := fun u t enc he => by
  simpa only [Db.personalKey, h] using he

variable {ext : External} {k : PublicKey}

theorem CacheOk.cacheInsert_ne {s : State} (h : CacheOk ext k s) {k' : PublicKey} (hne : k' ≠ k)
    (hd : Nip46Handler) : CacheOk ext k (s.cacheInsert k' hd) where
  derived := h.derived
  cached x hx := by
    simp only [State.cacheInsert, Cache.get_insert, if_neg hne.symm] at hx
    exact h.cached x hx

theorem CacheOk.cacheInsert {s : State} (h : CacheOk ext k s) {hd : Nip46Handler}
    (hh : HandlerFor ext k hd) : CacheOk ext k (s.cacheInsert k hd) where
  derived := h.derived
  cached x hx := by
    simp only [State.cacheInsert, Cache.get_insert_self, Option.some.injEq] at hx
    exact hx ▸ hh

theorem CacheOk.cacheInvalidate {s : State} (h : CacheOk ext k s) (k' : PublicKey) :
    CacheOk ext k (s.cacheInvalidate k') where
  derived := h.derived
  cached x hx := by
    simp only [State.cacheInvalidate, Cache.get_invalidate] at hx
    split at hx
    · exact absurd hx (by simp)
    · exact h.cached x hx

theorem CacheOk.storeClient {s : State} (h : CacheOk ext k s) (o : Bool) (id : RowId)
    (c : PublicKey) : CacheOk ext k (s.storeClient o id c) where
  cached := h.cached
  derived := by
    unfold State.storeClient
    cases o with
    | true => exact h.derived.updateOAuth fun _ => ⟨rfl, rfl, rfl, rfl⟩
    | false => exact h.derived

theorem CacheOk.envStep {s : State} (h : CacheOk ext k s) (e : EnvEvent) :
    CacheOk ext k (envStep ext e s) ∧ KeysKept s (envStep ext e s) := by
  cases e with
  | tick d => exact ⟨⟨h.derived, h.cached⟩, .refl s⟩
  | evict k' => exact ⟨h.cacheInvalidate k', .refl s⟩
  | revokeOAuth id =>
    exact ⟨⟨h.derived.updateOAuth fun _ => ⟨rfl, rfl, rfl, rfl⟩, h.cached⟩, .of_eq rfl⟩
  | revokeOAuthByBunker b u t =>
    exact ⟨⟨h.derived.updateOAuth fun _ => ⟨rfl, rfl, rfl, rfl⟩, h.cached⟩, .of_eq rfl⟩
  | revokeOAuthByOrigin u o t =>
    exact ⟨⟨h.derived.updateOAuth fun _ => ⟨rfl, rfl, rfl, rfl⟩, h.cached⟩, .of_eq rfl⟩
  | disconnectClient b u t =>
    exact ⟨⟨h.derived.updateOAuth fun _ => ⟨rfl, rfl, rfl, rfl⟩, h.cached⟩, .of_eq rfl⟩
  | deleteUser u =>
    exact ⟨⟨h.derived.deleteUser u, h.cached⟩, fun _ _ _ he => Db.personalKey_deleteUser he⟩
  | createOAuth row =>
    exact ⟨⟨h.derived.createOAuth row, h.cached⟩, .of_eq (Db.createOAuth_personalKeys _ _ row)⟩
  | revokeTeam t id r => exact ⟨⟨h.derived, h.cached⟩, .of_eq rfl⟩
  | deleteTeam t id => exact ⟨⟨h.derived, h.cached⟩, .of_eq rfl⟩
  | createTeam row =>
    have hdb : ∀ db : Db, (db.createTeam row).oauthAuthorizations = db.oauthAuthorizations ∧
        (db.createTeam row).personalKeys = db.personalKeys := fun db => by
      unfold Db.createTeam; split <;> exact ⟨rfl, rfl⟩
    refine ⟨⟨fun a ha keys hkeys => ?_, h.cached⟩, .of_eq (hdb _).2⟩
    refine h.derived a ((hdb _).1 ▸ ha) keys ?_
    simpa only [Db.bunkerKeys, Db.personalKey, Signer.envStep, State.withDb_db,
      (hdb _).2] using hkeys

/-! ## Loading keeps it -/

section Load

/-- The keys a load derives are those of the row it read, if the row's owner still has its key. -/
theorem bunkerKeys_of_load {s s' : State} {a : OAuthAuthorization} {enc : Bytes} {keys : Keys}
    (hi : CacheOk ext k s) (hkept : KeysKept s s') (ha : a ∈ s.db.oauthAuthorizations)
    (hak : a.bunkerPublicKey = k) (henc : s'.db.personalKey a.userPubkey a.tenantId = some enc)
    (hkeys : ext.bunkerKeysFrom enc a.secretHash = some keys) : ext.publicKey keys = k := by
  rw [← hak]
  refine hi.derived a ha keys ?_
  simp only [Db.bunkerKeys, Option.mem_def, Option.bind_eq_some_iff]
  exact ⟨enc, hkept _ _ _ henc, hkeys⟩

variable {β : Type} {C : Stmt → State → Prop}
  {Q : List (Stmt × State) → State → Except SignerError β → Prop}
  {seen : List (Stmt × State)} {s : State}

theorem deriveKeys_holds {enc : Bytes} {hash invalid : String} {g : Keys × Keys → SignerM β}
    (herr : ∀ e, Q seen s (.error e))
    (hok : ∀ u b, ext.bunkerKeysFrom enc hash = some b →
      (g (u, b)).Holds (CacheOk ext k) C KeysKept Q seen s) :
    ((deriveKeys ext enc hash invalid).bind g).Holds (CacheOk ext k) C KeysKept Q seen s := by
  unfold deriveKeys
  cases hdec : ext.kmsDecrypt enc with
  | error e => exact herr _
  | ok dec =>
    cases hsk : ext.secretKeyFromSlice dec with
    | error e => simpa [hsk, Except.mapError, Prog.Holds] using herr _
    | ok sk =>
      cases hbk : ext.deriveBunkerKeys sk hash with
      | none => simpa [hsk, hbk, Except.mapError, Prog.Holds] using herr _
      | some b =>
        have := hok sk b (by simp [External.bunkerKeysFrom, hdec, Except.bind, hsk, hbk,
          Except.toOption])
        simpa [hsk, hbk, Except.mapError] using this

/-- A handler built from an OAuth row of the bunker, cached under the bunker's key. -/
theorem insertLoaded_holds {b : PublicKey} {hd : Nip46Handler} {g : Unit → SignerM β}
    (hh : b = k → HandlerFor ext k hd)
    (hg : ∀ seen s, (g ()).Holds (CacheOk ext k) C KeysKept Q seen s) :
    ((Prog.write (.cacheInsert b) (State.cacheInsert · b hd)).bind g).Holds
      (CacheOk ext k) C KeysKept Q seen s := by
  refine .write fun s' _ hi _ => ⟨?_, .of_eq rfl, hg _ _⟩
  by_cases hb : b = k
  · subst hb; exact hi.cacheInsert (hh rfl)
  · exact hi.cacheInsert_ne hb hd

end Load

/-- What is assumed of every state a statement runs in. -/
def NotTeam (k : PublicKey) (_ : Stmt) (s : State) : Prop := ¬ IsTeamBunker k s

theorem loadOnDemand_holds (b : PublicKey) (seen : List (Stmt × State)) (s : State) :
    (loadOnDemand ext b).Holds (CacheOk ext k) (NotTeam k) KeysKept
      (fun _ _ r => ∀ h, r = .ok (some h) → b = k → HandlerFor ext k h) seen s := by
  refine .read .refl fun s₁ _ hi₁ _ => ?_
  cases ha : s₁.db.oauthByBunker b with
  | some a =>
    refine .read .refl fun s₂ h₂ _ _ => .read .refl fun s₃ h₃ _ _ =>
      .orErr (by simp) fun enc henc => deriveKeys_holds (by simp) fun u bk hbk => ?_
    have hmem := List.mem_of_find?_eq_some ha
    have hkey : a.bunkerPublicKey = b := by simpa using List.find?_some ha
    have hfor : ∀ st tomb, b = k → HandlerFor ext k
        { bunkerKeys := bk, userKeys := u, secretHash := a.secretHash, authorizationId := a.id,
          tenantId := a.tenantId, isOauth := true, status := st, tombstoneAt := tomb } :=
      fun st tomb hb => ⟨rfl, bunkerKeys_of_load hi₁ (h₂.trans h₃) hmem (hkey.trans hb) henc hbk⟩
    refine insertLoaded_holds (hfor _ _) fun seen s h hr hb => ?_
    cases hr
    exact hfor _ _ hb
  | none =>
    refine .read .refl fun s₂ _ _ hc₂ => ?_
    cases ht : s₂.db.teamByBunker b with
    | none => exact fun h hr => nomatch hr
    | some a =>
      -- a team row of another bunker: what is cached is filed under another key
      have hb : b ≠ k := fun hb => hc₂ ⟨a, List.mem_of_find?_eq_some ht, by
        simpa [hb] using List.find?_some ht⟩
      refine .read .refl fun _ _ _ _ => .read .refl fun _ _ _ _ =>
        .orErr (by simp) fun enc _ => deriveKeys_holds (by simp) fun u bk _ => ?_
      exact insertLoaded_holds (fun h => absurd h hb) fun _ _ _ _ h => absurd h hb

theorem getHandler_holds (b : PublicKey) (seen : List (Stmt × State)) (s : State) :
    (getHandler ext b).Holds (CacheOk ext k) (NotTeam k) KeysKept
      (fun _ _ r => ∀ h, r = .ok (some h) → b = k → HandlerFor ext k h) seen s := by
  refine .read .refl fun s₁ _ hi₁ _ => ?_
  cases hg : s₁.handlers.get b with
  | none => exact loadOnDemand_holds b _ _
  | some h =>
    rintro h' hr rfl
    cases hr
    exact hi₁.cached h hg

theorem loadSingleAuthorization_holds (b : PublicKey) (tenant : TenantId) (isOauth : Bool)
    (seen : List (Stmt × State)) (s : State) :
    (loadSingleAuthorization ext b tenant isOauth).Holds (CacheOk ext k) (NotTeam k) KeysKept
      (fun _ _ _ => True) seen s := by
  unfold loadSingleAuthorization
  split
  · refine .read .refl fun s₁ _ hi₁ _ => ?_
    split
    · next a ha =>
      refine .read .refl fun s₂ h₂ _ _ => .orErr trivial fun enc henc =>
        deriveKeys_holds (fun _ => trivial) fun u bk hbk => ?_
      have hmem := List.mem_of_find?_eq_some ha
      have hcond := List.find?_some ha
      simp only [Bool.and_eq_true, beq_iff_eq] at hcond
      refine insertLoaded_holds (g := .ret) (fun hb => ⟨rfl, ?_⟩) fun _ _ => trivial
      exact bunkerKeys_of_load hi₁ h₂ hmem (hcond.1.1.trans hb) (hcond.1.2 ▸ henc) hbk
    · trivial
  · refine .read .refl fun s₁ _ _ hc₁ => ?_
    split
    · next a ha =>
      have hb : b ≠ k := fun hb => hc₁ ⟨a, List.mem_of_find?_eq_some ha, by
        have hcond := List.find?_some ha
        simp only [Bool.and_eq_true, beq_iff_eq] at hcond
        exact hcond.1.2.trans hb⟩
      refine .orErr trivial fun _ _ => .read .refl fun _ _ _ _ => .orErr trivial fun enc _ =>
        deriveKeys_holds (fun _ => trivial) fun u bk _ => ?_
      exact insertLoaded_holds (g := .ret) (fun h => absurd h hb) fun _ _ => trivial
    · trivial

/-- A statement that stores a client or moves a cache entry is harmless, as long as what it caches
under `k` belongs there. Cleanup drops entries only. -/
theorem cleanup_holds (seen : List (Stmt × State)) (s : State) :
    cleanup.Holds (CacheOk ext k) (NotTeam k) KeysKept (fun _ _ _ => True) seen s := by
  refine .read .refl fun _ _ _ _ => .read .refl fun _ _ _ _ => ?_
  refine .of_steps (P := fun _ => True) ?_ (.trivial _) fun _ _ _ _ => trivial
  exact invalidateAll_steps (fun s k' h => ⟨h.cacheInvalidate k', .of_eq rfl⟩) _

theorem handleCommand_holds (c : AuthorizationCommand) (seen : List (Stmt × State)) (s : State) :
    (handleCommand ext c).Holds (CacheOk ext k) (NotTeam k) KeysKept
      (fun _ _ _ => True) seen s := by
  cases c with
  | upsert b tenant isOauth => exact loadSingleAuthorization_holds b tenant isOauth seen s
  | reloadAll => trivial
  | remove b =>
    refine .read .refl fun s₁ _ hi₁ _ => ?_
    cases hg : s₁.handlers.get b with
    | none => trivial
    | some h =>
      refine .read .refl fun s₂ _ _ _ => ?_
      refine insertLoaded_holds (g := .ret) (fun hb => ?_) fun _ _ => trivial
      exact hi₁.cached h (hb ▸ hg)

/-! ## The gate -/

/-- What a request that passed the gate has seen: a live row of the bunker bound to this client,
or one bound to nobody, for which it then executed its `UPDATE`. -/
def PassedGate (k client : PublicKey) (seen : List (Stmt × State)) : Prop :=
  (∃ s a, (Stmt.existsConnected true k client, s) ∈ seen ∧
    a ∈ s.db.oauthAuthorizations ∧ a.bunkerPublicKey = k ∧ a.live s.now = true ∧
      a.connectedClientPubkey = some client) ∨
  (∃ s s' a, [(Stmt.storeClient true a.id client, s'),
    (Stmt.selectUnconnected true k, s)] <:+: seen ∧
    a ∈ s.db.oauthAuthorizations ∧ a.bunkerPublicKey = k ∧ a.live s.now = true ∧
      a.connectedClientPubkey = none)

theorem PassedGate.append {client : PublicKey} {seen : List (Stmt × State)}
    (h : PassedGate k client seen) (news : List (Stmt × State)) :
    PassedGate k client (news ++ seen) := by
  rcases h with ⟨s, a, hs, hrow⟩ | ⟨s, s', a, hs, hrow⟩
  · exact .inl ⟨s, a, List.mem_append_right _ hs, hrow⟩
  · exact .inr ⟨s, s', a, hs.trans (List.suffix_append news seen).isInfix, hrow⟩

/-- A `SELECT` of a checked request saw a live row of the bunker. -/
theorem PassedGate.live_row {client : PublicKey} {seen : List (Stmt × State)}
    (h : PassedGate k client seen) :
    ∃ x ∈ seen, ∃ a ∈ x.2.db.oauthAuthorizations, a.bunkerPublicKey = k ∧
      a.live x.2.now = true := by
  rcases h with ⟨s, a, hs, ha, hk, hl, -⟩ | ⟨s, s', a, hs, ha, hk, hl, -⟩
  · exact ⟨_, hs, a, ha, hk, hl⟩
  · exact ⟨_, hs.subset (List.mem_cons_of_mem _ (List.mem_singleton.mpr rfl)), a, ha, hk, hl⟩

theorem validateAndStoreClient_holds {h : Nip46Handler} (hh : HandlerFor ext k h)
    (client : PublicKey) (seen : List (Stmt × State)) (s : State) :
    (h.validateAndStoreClient ext client).Holds (CacheOk ext k) (NotTeam k) KeysKept
      (fun seen _ r => r = .ok () → PassedGate k client seen) seen s := by
  obtain ⟨ho, hk⟩ := hh
  unfold Nip46Handler.validateAndStoreClient
  simp only [ho, hk]
  refine .read .refl fun s₁ _ _ _ => ?_
  split
  · next hex =>
    intro _
    simp only [State.existsConnected, if_true, List.any_eq_true, Bool.and_eq_true,
      beq_iff_eq] at hex
    obtain ⟨a, ha, ⟨hb, hc⟩, hl⟩ := hex
    exact .inl ⟨s₁, a, List.mem_cons_self, ha, hb, hl, hc⟩
  · refine .read .refl fun s₂ _ _ _ => ?_
    split
    · next id hid =>
      simp only [State.unconnected, if_true, Option.map_eq_some_iff] at hid
      obtain ⟨a, ha, rfl⟩ := hid
      have hcond := List.find?_some ha
      simp only [Bool.and_eq_true, beq_iff_eq, Option.isNone_iff_eq_none] at hcond
      refine fun s₃ _ hi₃ _ => ⟨hi₃.storeClient _ _ _, .of_eq ?_, fun _ => .inr ?_⟩
      · simp [State.storeClient, Db.storeOAuthClient, Db.updateOAuth]
      · exact ⟨s₂, s₃, a, ⟨[], _, rfl⟩, List.mem_of_find?_eq_some ha, hcond.1.1, hcond.2,
          hcond.1.2⟩
    · exact fun h => nomatch h

theorem respond_returns (h : Nip46Handler) (event : Nip46Event) (nonce : Nat) (useNip44 : Bool)
    (tags : List Tag) (method : String) (response : Response) :
    (respond ext h event nonce useNip44 tags method response).Returns
      (· = .sent method response) :=
  .bind_right fun _ => .bind_right fun _ => rfl

/-- The statements a request executes beside caching a handler. -/
theorem storeClient_harmless (s : State) (o : Bool) (id : RowId) (c : PublicKey)
    (h : CacheOk ext k s) :
    CacheOk ext k (s.storeClient o id c) ∧ KeysKept s (s.storeClient o id c) := by
  refine ⟨h.storeClient o id c, .of_eq ?_⟩
  cases o <;> rfl

theorem handleWith_holds {h : Nip46Handler} (hh : HandlerFor ext k h) (event : Nip46Event)
    (nonce : Nat) (seen : List (Stmt × State)) (s : State) :
    (handleWith ext h event nonce).Holds (CacheOk ext k) (NotTeam k) KeysKept
      (fun seen _ r => ∀ o, r = .ok o → o.sensitiveResult = true →
        PassedGate k event.pubkey seen) seen s := by
  refine .ofExcept (by simp) fun d _ => .orErr (by simp) fun request _ =>
    .orErr (by simp) fun method _ => ?_
  split
  · -- a tombstone answers with an error
    refine .of_steps (respond_steps ..) (respond_returns ..) ?_
    rintro news s r hr o rfl hs
    rw [hr o rfl] at hs
    simp [Outcome.sensitiveResult] at hs
  · refine .bind ?_
    unfold clientGate
    rw [hh.1, Bool.true_and]
    split
    · next hm =>
      refine .attempt (.mono ?_ (validateAndStoreClient_holds hh event.pubkey _ _))
      rintro seen s (e | _) hchecked
      · refine .of_steps (respond_steps ..) (respond_returns ..) ?_
        rintro news s r hr o rfl hs
        rw [hr o rfl] at hs
        simp [Outcome.sensitiveResult] at hs
      · refine .of_steps (P := fun _ => True) ?_ (.trivial _) fun news s r _ _ _ _ =>
          (hchecked rfl).append news
        exact .bind (dispatch_steps (fun s h => ⟨h, .refl s⟩) storeClient_harmless ..) fun _ =>
          respond_steps ..
    · next hm =>
      -- not one of the sensitive methods: the answer, whatever it is, says so
      change ((dispatch ext h event.pubkey nonce method request).bind _).Holds _ _ _ _ _ _
      refine .of_steps (P := fun o => ∃ resp, o = .sent method resp)
        (.bind (dispatch_steps (fun s h => ⟨h, .refl s⟩) storeClient_harmless ..) fun _ =>
          respond_steps ..)
        (.bind_right fun resp => .mono (fun o ho => ⟨resp, ho⟩) (respond_returns ..)) ?_
      rintro news s r hr o rfl hs
      obtain ⟨⟨id, body⟩, rfl⟩ := hr o rfl
      cases body with
      | error e => simp [Outcome.sensitiveResult] at hs
      | result v => exact absurd hs hm

/-- What a finished unit of work guarantees, for one OAuth bunker key. -/
def Guarded (k : PublicKey) (w : Work) (seen : List (Stmt × State)) (_ : State)
    (r : Except SignerError Outcome) : Prop :=
  ∀ event owned nonce, w = .request event owned nonce → event.bunkerPubkey = some k →
    ∀ o, r = .ok o → o.sensitiveResult = true → PassedGate k event.pubkey seen

theorem perform_holds (w : Work) (s : State) :
    (perform ext w).Holds (CacheOk ext k) (NotTeam k) KeysKept (Guarded k w) [] s := by
  cases w with
  | command c =>
    refine .bind (.mono ?_ (handleCommand_holds c [] s))
    rintro seen s (e | _) _ <;> exact fun _ _ _ h => nomatch h
  | cleanup =>
    refine .bind (.mono ?_ (cleanup_holds [] s))
    rintro seen s (e | _) _ <;> exact fun _ _ _ h => nomatch h
  | request event owned nonce =>
    refine .orErr (fun _ _ _ _ _ _ h => nomatch h) fun b hb => ?_
    split
    · refine .bind (.mono ?_ (getHandler_holds b [] s))
      rintro seen s (e | (_ | h)) hh
      · exact fun _ _ _ _ _ _ h => nomatch h
      · rintro _ _ _ _ _ _ ⟨⟩ hs
        simp [Outcome.sensitiveResult] at hs
      · by_cases hbk : b = k
        · refine .mono ?_ (handleWith_holds (hh h rfl hbk) event nonce seen s)
          rintro seen s r hr _ _ _ ⟨⟩ _
          exact hr
        · -- another bunker's request has nothing to show for `k`
          refine .of_steps (P := fun _ => True)
            (handleWith_steps (fun s h => ⟨h, .refl s⟩) storeClient_harmless h event nonce)
            (.trivial _) ?_
          rintro news s r _ _ _ _ ⟨⟩ hk
          exact absurd (Option.some.inj (hb.symm.trans hk)) hbk
    · rintro _ _ _ _ _ _ ⟨⟩ hs
      simp [Outcome.sensitiveResult] at hs

theorem system_guarantees :
    (system ext).Guarantees (CacheOk ext k) (NotTeam k) (fun _ _ => True) KeysKept (Guarded k) where
  refl := .refl
  trans _ _ _ := .trans
  post _ _ _ _ _ _ h := h
  prog w s _ := perform_holds w s
  env e _ _ h := h.envStep e

/-! ## Revocation is permanent -/

/-- Every row of the bunker is revoked (or there is none left). -/
def Revoked (k : PublicKey) (s : State) : Prop :=
  ∀ a ∈ s.db.oauthAuthorizations, a.bunkerPublicKey = k → a.revokedAt.isSome = true

/-- The event creates no authorization with this bunker key. -/
def CreatesNo (ext : External) (k : PublicKey) : EnvEvent → State → Prop
  | .createOAuth row, s => ∀ keys ∈ s.db.bunkerKeys ext row, ext.publicKey keys ≠ k
  | _, _ => True

theorem Revoked.withOAuth {s : State} (h : Revoked k s) {p : OAuthAuthorization → Bool}
    {f : OAuthAuthorization → OAuthAuthorization}
    (hf : ∀ a, (f a).bunkerPublicKey = a.bunkerPublicKey ∧
      (a.revokedAt.isSome = true → (f a).revokedAt.isSome = true)) :
    Revoked k (s.withDb (s.db.updateOAuth p f)) := by
  intro a ha hk
  simp only [State.withDb_db, Db.updateOAuth, mem_updateWhere] at ha
  rcases ha with ⟨a₀, ha₀, -, rfl⟩ | ⟨ha, -⟩
  · exact (hf a₀).2 (h a₀ ha₀ ((hf a₀).1 ▸ hk))
  · exact h a ha hk

theorem Revoked.storeClient {s : State} (h : Revoked k s) (o : Bool) (id : RowId)
    (c : PublicKey) : Revoked k (s.storeClient o id c) := by
  cases o with
  | true => exact h.withOAuth fun _ => ⟨rfl, fun hr => hr⟩
  | false => exact h

theorem Revoked.envStep {s : State} {e : EnvEvent} (hno : CreatesNo ext k e s)
    (h : Revoked k s) : Revoked k (envStep ext e s) := by
  cases e with
  | tick | evict => exact h
  | revokeOAuth | revokeOAuthByBunker | revokeOAuthByOrigin =>
    exact h.withOAuth fun _ => ⟨rfl, fun _ => rfl⟩
  | disconnectClient => exact h.withOAuth fun _ => ⟨rfl, fun hr => hr⟩
  | deleteUser u => exact fun a ha hk => h a (List.mem_filter.mp ha).1 hk
  | createOAuth row =>
    intro a ha hk
    rcases Db.mem_createOAuth ha with ha | ⟨keys, hkeys, -, -, -, hb⟩
    · exact h a ha hk
    · exact absurd (hb.symm.trans hk) (hno keys hkeys)
  | revokeTeam | deleteTeam => exact h
  | createTeam row =>
    have hdb : (s.db.createTeam row).oauthAuthorizations = s.db.oauthAuthorizations := by
      unfold Db.createTeam; split <;> rfl
    exact fun a ha hk => h a (hdb ▸ ha) hk

/-- Once every row of the bunker is revoked and none is created, that stays so. -/
theorem revoked_run {db : Db} {now : Timestamp} {pre post : List Event}
    (hrev : Revoked k (runFrom ext db now pre).state)
    (hno : Along (system ext).step (System.Allowed (fun _ _ => True) (CreatesNo ext k))
      (runFrom ext db now pre) post) :
    Revoked k (run (system ext).step (runFrom ext db now pre) post).state := by
  have hprog : ∀ w, ((system ext).prog w).Steps (fun s s' => Revoked k s → Revoked k s') :=
    perform_steps (fun _ h => h) (fun _ _ _ _ h => h.storeClient _ _ _) (fun _ _ _ h => h)
      (fun _ _ h => h)
  exact System.state_invariant hprog (fun _ _ => Revoked.envStep)
    (System.steps_run hprog (fun _ h => h) (Conf.steps_init _)) hrev hno

/-! ## The result -/

/-- No bunker key is in both authorization tables, at any two moments of the run. -/
def TablesDisjoint (states : List State) : Prop :=
  ∀ s ∈ states, ∀ s' ∈ states, ∀ a ∈ s.db.oauthAuthorizations, ∀ b ∈ s'.db.authorizations,
    a.bunkerPublicKey ≠ b.bunkerPublicKey

instance (states : List State) : Decidable (TablesDisjoint states) :=
  inferInstanceAs (Decidable (∀ s ∈ states, ∀ s' ∈ states, ∀ a ∈ s.db.oauthAuthorizations,
    ∀ b ∈ s'.db.authorizations, a.bunkerPublicKey ≠ b.bunkerPublicKey))

/-- Between the two states the rows with this id are bound to the client: each of them is still
there, and whatever has the id afterwards names the client. -/
structure BindsRows (id : RowId) (client : PublicKey) (s s' : State) : Prop where
  kept : ∀ a ∈ s.db.oauthAuthorizations, a.id = id →
    { a with connectedClientPubkey := some client, connectedAt := some s.now } ∈
      s'.db.oauthAuthorizations
  named : ∀ a ∈ s'.db.oauthAuthorizations, a.id = id → a.connectedClientPubkey = some client

theorem bindsRows_storeClient (s : State) (id : RowId) (client : PublicKey) :
    BindsRows id client s (s.storeClient true id client) := by
  constructor
  · intro a ha hid
    simp only [State.storeClient, if_true, Db.storeOAuthClient, Db.updateOAuth, mem_updateWhere]
    exact .inl ⟨a, ha, beq_iff_eq.mpr hid, rfl⟩
  · intro a ha hid
    simp only [State.storeClient, if_true, Db.storeOAuthClient, Db.updateOAuth,
      mem_updateWhere] at ha
    rcases ha with ⟨a₀, -, -, rfl⟩ | ⟨-, hne⟩
    · rfl
    · rw [beq_eq_false_iff_ne] at hne
      exact absurd hid hne

/-- What the `UPDATE` of a request does to the tables, where the run executes it. -/
theorem storeClient_executed {db : Db} {now : Timestamp} {es : List Event} {i : Nat}
    {t : Thread Work Stmt State SignerError Outcome}
    (ht : (runFrom ext db now es).threads[i]? = some t) {id : RowId}
    {client : PublicKey} {s : State}
    (hs : (Stmt.storeClient true id client, s) ∈ t.seen) :
    ∃ pre post, es = pre ++ .exec i :: post ∧ (runFrom ext db now pre).state = s ∧
      BindsRows id client s (runFrom ext db now (pre ++ [.exec i])).state := by
  -- of the statements only the label and the effect of this one matter
  have hprog : ∀ w, ((system ext).prog w).Meets (fun l _ s s' => ∀ id client,
      l = .storeClient true id client → BindsRows id client s s') (fun _ _ => True) [] := by
    intro w
    refine Prog.Does.meets (P := fun l s s' => ∀ id client,
      l = .storeClient true id client → BindsRows id client s s') (perform_does ?_ ?_ ?_ ?_ w)
      (fun h => h) fun _ _ _ => trivial
    · rintro l hl s id client rfl
      cases hl
    · rintro s o id c id' c' heq
      cases heq
      exact bindsRows_storeClient s id c
    · exact fun _ _ _ _ _ heq => nomatch heq
    · exact fun _ _ _ _ heq => nomatch heq
  obtain ⟨pre, post, -, hes, -, -, hpre, hdoes⟩ := System.Meets.executed
    (G := fun _ l _ s s' => ∀ id client, l = .storeClient true id client → BindsRows id client s s')
    (Q := fun _ _ _ => True) hprog ht hs
  exact ⟨pre, post, hes, hpre, hdoes id client rfl⟩

/-- What a request of the `i`-th thread that passed the gate has done: its `SELECT` saw a live row
of the bunker bound to this client, or one bound to nobody, which its own `UPDATE`, at a point of
the run, bound to this client. -/
def ClientChecked (ext : External) (db : Db) (now : Timestamp) (es : List Event) (i : Nat)
    (k client : PublicKey) (seen : List (Stmt × State)) : Prop :=
  (∃ s a, (Stmt.existsConnected true k client, s) ∈ seen ∧
    a ∈ s.db.oauthAuthorizations ∧ a.bunkerPublicKey = k ∧ a.live s.now = true ∧
      a.connectedClientPubkey = some client) ∨
  (∃ s s' a, [(Stmt.storeClient true a.id client, s'),
    (Stmt.selectUnconnected true k, s)] <:+: seen ∧
    a ∈ s.db.oauthAuthorizations ∧ a.bunkerPublicKey = k ∧ a.live s.now = true ∧
      a.connectedClientPubkey = none ∧
      ∃ pre post, es = pre ++ .exec i :: post ∧ (runFrom ext db now pre).state = s' ∧
        BindsRows a.id client s' (runFrom ext db now (pre ++ [.exec i])).state)

theorem PassedGate.checked {db : Db} {now : Timestamp} {es : List Event} {i : Nat}
    {t : Thread Work Stmt State SignerError Outcome}
    (ht : (runFrom ext db now es).threads[i]? = some t) {client : PublicKey}
    (h : PassedGate k client t.seen) : ClientChecked ext db now es i k client t.seen := by
  rcases h with hbound | ⟨s, s', a, hs, ha, hk, hlive, hfree⟩
  · exact .inl hbound
  · have hstored : (Stmt.storeClient true a.id client, s') ∈ t.seen := hs.subset List.mem_cons_self
    exact .inr ⟨s, s', a, hs, ha, hk, hlive, hfree, storeClient_executed ht hstored⟩

/-- **OAuth bunkers answer only for a live authorization.** In every run of the daemon, a sensitive
request to an OAuth bunker that ends in a success result passed the client gate: inside that very
request a `SELECT` saw a live row of the bunker, bound to the requester, or bound to nobody, and
then the request's own `UPDATE` bound that row to the requester. And a request that was started
after all rows of the bunker were revoked, with none created since, has no such result, whatever the
cache held. -/
theorem oauth_result_needs_live_row {db : Db} {now : Timestamp} {es : List Event}
    (hderived : db.Derived ext) (hdisjoint : TablesDisjoint (statesOf ext db now es))
    {i : Nat} {t : Thread Work Stmt State SignerError Outcome}
    (ht : (runFrom ext db now es).threads[i]? = some t)
    {event : Nip46Event} {owned : Bool} {nonce : Nat} (hreq : t.req = .request event owned nonce)
    (hk : event.bunkerPubkey = some k)
    (hbunker : ∃ s ∈ statesOf ext db now es, IsOAuthBunker k s)
    {o : Outcome} (hres : t.result? = some (.ok o)) (ho : o.sensitiveResult = true) :
    ClientChecked ext db now es i k event.pubkey t.seen ∧
      ∀ pre post, es = pre ++ post → Revoked k (runFrom ext db now pre).state →
        Along (system ext).step (System.Allowed (fun _ _ => True) (CreatesNo ext k))
          (runFrom ext db now pre) post →
        i < (runFrom ext db now pre).threads.length := by
  have hteam : Along (system ext).step (System.Allowed (NotTeam k) (fun _ _ => True))
      (.init (.boot db now)) es := by
    obtain ⟨s, hs, a, ha, rfl⟩ := hbunker
    refine along_iff_split.mpr fun pre e post hes => ?_
    cases e with
    | spawn | env => trivial
    | exec j =>
      rintro t - l - ⟨b, hb, hab⟩
      exact hdisjoint s hs _ (mem_statesOf hes) a ha b hb hab.symm
  have hchecked : PassedGate k event.pubkey t.seen :=
    system_guarantees.result ⟨hderived, fun h hh => absurd hh (by simp [State.boot])⟩ hteam
      (List.mem_of_getElem? ht) hres event owned nonce hreq hk o rfl ho
  refine ⟨hchecked.checked ht, fun pre post hes hrev hno => ?_⟩
  by_contra hlt
  obtain ⟨x, hx, a, ha, hak, hlive⟩ := hchecked.live_row
  rw [hes, runFrom_append] at ht
  obtain ⟨post₁, post₂, rfl, hpost⟩ := System.seen_reached _ (Nat.le_of_not_lt hlt) ht hx
  have hrev' := revoked_run hrev (along_append.mp hno).1
  rw [hpost] at hrev'
  have hsome := hrev' a ha hak
  simp only [OAuthAuthorization.live, Bool.and_eq_true, Option.isNone_iff_eq_none] at hlive
  simp [hlive.1] at hsome

/-! A request of a client that never connected, on an empty cache: the daemon loads the row, finds
it bound to nobody, binds it, and encrypts. -/

def sampleBunker : PublicKey := "pub:sk/keycast-bunker-nip46-v1-h"

def sampleExternal : External :=
  .symbolic [("c1", "req")]
    [("req", .obj [("id", .str "1"), ("method", .str "nip44_encrypt"),
      ("params", .arr [.str "bob", .str "hi"])])]

def sampleDb : Db where
  personalKeys := [⟨"alice", 1, "sk"⟩]
  oauthAuthorizations :=
    [{ id := 1, tenantId := 1, userPubkey := "alice", bunkerPublicKey := sampleBunker,
       secretHash := "h" }]

def sampleEvent : Nip46Event := ⟨"e1", "client", [["p", sampleBunker]], "c1"⟩

def sampleRun : List Event := .spawn (.request sampleEvent true 0) :: List.replicate 9 (.exec 0)

theorem sampleRun_answers :
    ((runFrom sampleExternal sampleDb 0 sampleRun).threads[0]?).any
      (answered sampleEvent) = true := by
  decide

theorem oauth_result_needs_live_row_sample :
    (∃ t, (runFrom sampleExternal sampleDb 0 sampleRun).threads[0]? = some t ∧
      ClientChecked sampleExternal sampleDb 0 sampleRun 0 sampleBunker "client" t.seen) ∧
      ∃ a ∈ (runFrom sampleExternal sampleDb 0 sampleRun).state.db.oauthAuthorizations,
        a.id = 1 ∧ a.connectedClientPubkey = some "client" := by
  obtain ⟨t, ht, ha⟩ := Conf.exists_thread sampleRun_answers
  obtain ⟨hreq, o, hres, ho⟩ := answered_iff.mp ha
  exact ⟨⟨t, ht, (oauth_result_needs_live_row (by decide) (by decide) ht hreq rfl
    (by decide) hres ho).1⟩, by decide⟩

end Signer

end Keycast
