import Keycast.Lib.Ledger
import Keycast.Signer.OAuthRevocation
import Keycast.Signer.ClientBinding

/-!
# `Signer/ConnectedClient.lean` — who gets a result

`process_connect` checks the connection secret and stores the client's key "for future request
validation", for OAuth and team authorizations alike; `validate_and_store_client` has a query for
either table too. But the gate that calls it starts with `handler.is_oauth &&`, so what is stored
for a team authorization is never looked at: a team bunker answers every client that knows its
public key. And an OAuth bunker asks its gate once, before it reads the policy: the client it let in
may have lost its place when the answer goes out (`bunkers_answer_strangers` has both).

`results_go_to_connected_client` says under which condition that does not happen. It compares the
requester with the client that the table names in the state the answer is given in, and it says of
that client that it was not just there: going back along the run it was recorded when the daemon
started, or by a request of that client: a `connect` with a secret that matches the hash of that
authorization, or the first use of an authorization without a client (`Entitled`).

Two invariants carry it. Handlers are cached, so that the hash `process_connect` compares with is
the one of the authorization it writes to is an invariant of the cache (`Vouched`). And every
request that has passed the gate and waits for its answer is named by its row (`Holding`): the
`SELECT` of the gate saw it there or the `UPDATE` of the first use has put it there, and in an
undisturbed run (`Undisturbed`) no statement and no act of the API server takes it away
(`named_step`).
-/

set_option autoImplicit false

namespace Keycast.Signer

open Lib

/-! ## Whose secret a handler knows -/

/-- What a handler has in common with the row it was loaded from. -/
structure Credential where
  isOauth : Bool
  id : RowId
  secretHash : String
  deriving DecidableEq, Repr

def Nip46Handler.credential (h : Nip46Handler) : Credential :=
  ⟨h.isOauth, h.authorizationId, h.secretHash⟩

/-- A row of the table has this id and this hash. -/
def State.Stores (s : State) (cred : Credential) : Prop :=
  if cred.isOauth then
    ∃ a ∈ s.db.oauthAuthorizations, a.id = cred.id ∧ a.secretHash = cred.secretHash
  else ∃ a ∈ s.db.authorizations, a.id = cred.id ∧ a.secretHash = cred.secretHash

def State.Caches (s : State) (cred : Credential) : Prop :=
  ∃ k h, s.handlers.get k = some h ∧ h.credential = cred

/-- One of the states the thread has seen had the credential, in a table or in the cache. -/
def Held (seen : List (Stmt × State)) (cred : Credential) : Prop :=
  ∃ x ∈ seen, x.2.Stores cred ∨ x.2.Caches cred

theorem Held.mono {seen seen' : List (Stmt × State)} {cred : Credential} (h : Held seen cred)
    (hs : seen ⊆ seen') : Held seen' cred := by
  obtain ⟨x, hx, hcred⟩ := h
  exact ⟨x, hs hx, hcred⟩

theorem Held.cons {seen : List (Stmt × State)} {cred : Credential} (h : Held seen cred)
    (x : Stmt × State) : Held (x :: seen) cred := h.mono (List.subset_cons_self _ _)

/-! ## Why a client is recorded -/

/-- The request in an event, as a handler decrypts it. -/
def requestOf (ext : External) (h : Nip46Handler) (event : Nip46Event) : Option Json :=
  (decryptRequest ext h event).toOption.bind fun d => ext.parseJson d.1

/-- A unit of work that may record `client` as the client of an authorization. -/
inductive Entitled (ext : External) (known : Credential → Prop) (isOauth : Bool) (id : RowId)
    (client : PublicKey) : Work → List (Stmt × State) → Prop
  /-- A `connect` request with the secret of that authorization. -/
  | connect {event : Nip46Event} {owned : Bool} {nonce : Nat} {h : Nip46Handler} {request : Json}
      {secret : String} {seen : List (Stmt × State)} (hclient : event.pubkey = client)
      (hknown : known h.credential) (hkind : h.isOauth = isOauth) (hid : h.authorizationId = id)
      (hrequest : requestOf ext h event = some request)
      (hmethod : (request.field "method").asStr = some "connect")
      (hsecret : ((request.field "params").index 1).asStr = some secret)
      (hverify : ext.verifySecret secret h.secretHash = true) :
      Entitled ext known isOauth id client (.request event owned nonce) seen
  /-- A request for a sensitive method that found the authorization without a client. -/
  | firstUse {event : Nip46Event} {owned : Bool} {nonce : Nat} {h : Nip46Handler} {request : Json}
      {method : String} {seen : List (Stmt × State)} {s : State} (hclient : event.pubkey = client)
      (hknown : known h.credential) (hkind : h.isOauth = isOauth)
      (hrequest : requestOf ext h event = some request)
      (hmethod : (request.field "method").asStr = some method)
      (hsensitive : requiresValidation method = true)
      (hseen : (Stmt.selectUnconnected isOauth (ext.publicKey h.bunkerKeys), s) ∈ seen)
      (hfree : s.unconnected isOauth (ext.publicKey h.bunkerKeys) = some id) :
      Entitled ext known isOauth id client (.request event owned nonce) seen

theorem Entitled.mono {ext : External} {known known' : Credential → Prop} {isOauth : Bool}
    {id : RowId} {client : PublicKey} {w : Work} {seen seen' : List (Stmt × State)}
    (hknown : ∀ cred, known cred → known' cred) (hs : seen ⊆ seen')
    (h : Entitled ext known isOauth id client w seen) :
    Entitled ext known' isOauth id client w seen' := by
  cases h with
  | connect hc hk hkind hid hr hm hs hv =>
    exact .connect hc (hknown _ hk) hkind hid hr hm hs hv
  | firstUse hc hk hkind hr hm hsens hseen hfree =>
    exact .firstUse hc (hknown _ hk) hkind hr hm hsens (hs hseen) hfree

/-! ## What a statement writes, and why -/

/-- What a statement does to the state, given what its thread has seen. -/
def Writes (ext : External) (w : Work) : Stmt → List (Stmt × State) → State → State → Prop
  | .storeClient isOauth id client, seen, s, s' =>
    s' = s.storeClient isOauth id client ∧ Entitled ext (Held seen) isOauth id client w seen
  | .cacheInsert bunker, seen, s, s' =>
    ∃ h, s' = s.cacheInsert bunker h ∧ Held seen h.credential
  | .cacheInvalidate bunker, _, s, s' => s' = s.cacheInvalidate bunker
  | _, _, s, s' => s' = s

def Looks (l : Stmt) (s s' : State) : Prop := l.reads = true ∧ s' = s

theorem Looks.read {l : Stmt} (h : l.reads = true) (s : State) : Looks l s s := ⟨h, rfl⟩

theorem Looks.writes {ext : External} {w : Work} {l : Stmt} {seen : List (Stmt × State)}
    {s s' : State} (h : Looks l s s') : Writes ext w l seen s s' := by
  obtain ⟨hl, rfl⟩ := h
  cases l with
  | storeClient | cacheInsert | cacheInvalidate => simp [Stmt.reads] at hl
  | _ => rfl

section Walk

variable {ext : External}

/-- A part of a program that only reads, after which anything goes. -/
theorem looks_meets {α : Type} {w : Work} {p : SignerM α} {seen : List (Stmt × State)}
    (h : p.Does Looks) : p.Meets (Writes ext w) (fun _ _ => True) seen :=
  h.meets Looks.writes fun _ _ _ => trivial

/-! ## Requests -/

variable {h : Nip46Handler} {event : Nip46Event} {owned : Bool} {nonce : Nat} {request : Json}
  {method : String} {seen : List (Stmt × State)}

theorem processConnect_meets {secret : String} (hh : Held seen h.credential)
    (hreq : requestOf ext h event = some request)
    (hmethod : (request.field "method").asStr = some "connect")
    (hsecret : ((request.field "params").index 1).asStr = some secret) :
    (h.processConnect ext event.pubkey secret).Meets (Writes ext (.request event owned nonce))
      (fun _ _ => True) seen := by
  unfold Nip46Handler.processConnect
  split
  · next hverify =>
    refine .read (fun _ => rfl) fun s => ?_
    split
    · split <;> trivial
    · refine .write fun s' => ⟨⟨rfl, ?_⟩, trivial⟩
      exact .connect rfl (hh.cons _) rfl rfl hreq hmethod hsecret hverify
  · trivial

theorem validateAndStoreClient_meets (hh : Held seen h.credential)
    (hreq : requestOf ext h event = some request)
    (hmethod : (request.field "method").asStr = some method)
    (hsensitive : requiresValidation method = true) :
    (h.validateAndStoreClient ext event.pubkey).Meets (Writes ext (.request event owned nonce))
      (fun _ _ => True) seen := by
  refine .read (fun _ => rfl) fun s => ?_
  split
  · trivial
  · refine .read (fun _ => rfl) fun s' => ?_
    split
    · next id hid =>
      refine .write (g := .ret) fun s'' => ⟨⟨rfl, ?_⟩, trivial⟩
      exact .firstUse rfl ((hh.cons _).cons _) rfl hreq hmethod hsensitive List.mem_cons_self hid
    · trivial

theorem handleConnect_meets (hh : Held seen h.credential)
    (hreq : requestOf ext h event = some request)
    (hmethod : (request.field "method").asStr = some "connect") :
    (handleConnect ext h event.pubkey request).Meets (Writes ext (.request event owned nonce))
      (fun _ _ => True) seen := by
  unfold handleConnect
  split
  · next secret hsecret =>
    refine .bind (.attempt (.mono ?_ (processConnect_meets hh hreq hmethod hsecret)))
    rintro seen' (e | result) _ <;> trivial
  · trivial

/-- Storing the client is the one thing a request does to the tables, and it is entitled to it. -/
theorem handleWith_meets (hh : Held seen h.credential) :
    (handleWith ext h event nonce).Meets (Writes ext (.request event owned nonce))
      (fun _ _ => True) seen := by
  refine .ofExcept (fun _ => trivial) fun d hd => .orErr trivial fun request hparse =>
    .orErr trivial fun method hmethod => ?_
  have hreq : requestOf ext h event = some request := by
    simpa [requestOf, hd, Except.toOption] using hparse
  split
  · exact looks_meets (respond_does ..)
  have hgate : (clientGate ext h event.pubkey method).Meets
      (Writes ext (.request event owned nonce)) (fun _ _ => True) seen := by
    unfold clientGate
    split
    · next hcond =>
      rw [Bool.and_eq_true] at hcond
      exact .attempt (validateAndStoreClient_meets hh hreq hmethod hcond.2)
    · trivial
  refine .bind (.mono ?_ (hgate.keeps (List.Subset.refl seen)))
  rintro seen' (e | (e | _)) ⟨-, hs⟩
  · trivial
  · exact looks_meets (respond_does ..)
  by_cases hm : method = "connect"
  · subst hm
    refine .bind (.mono ?_ (handleConnect_meets (hh.mono hs) hreq hmethod))
    rintro seen'' (e | response) _
    · trivial
    · exact looks_meets (respond_does ..)
  · -- every other method only reads
    exact looks_meets (.bind (dispatch_does Looks.read h event.pubkey nonce method request
      fun hconnect => absurd hconnect hm) fun _ => respond_does ..)

/-! ## Loading -/

section Load

variable {w : Work} {β : Type} {Q : List (Stmt × State) → Except SignerError β → Prop}
  {cred : Credential}

theorem deriveKeys_meets {enc : Bytes} {hash invalid : String} {g : Keys × Keys → SignerM β}
    (hh : Held seen cred) (herr : ∀ seen e, Q seen (.error e))
    (hok : ∀ seen u b, Held seen cred → (g (u, b)).Meets (Writes ext w) Q seen) :
    ((deriveKeys ext enc hash invalid).bind g).Meets (Writes ext w) Q seen := by
  refine .bind (.mono ?_ ((looks_meets (deriveKeys_does _ _ _)).keeps (List.Subset.refl _)))
  rintro seen' (e | ⟨u, b⟩) ⟨-, hs⟩
  · exact herr _ _
  · exact hok _ u b (hh.mono hs)

theorem cacheInsert_meets {bunker : PublicKey} {hd : Nip46Handler} {g : Unit → SignerM β}
    (hh : Held seen hd.credential)
    (hg : ∀ seen, Held seen hd.credential → (g ()).Meets (Writes ext w) Q seen) :
    ((Prog.write (.cacheInsert bunker) (State.cacheInsert · bunker hd)).bind g).Meets
      (Writes ext w) Q seen :=
  .write fun _ => ⟨⟨hd, rfl, hh⟩, hg _ (hh.cons _)⟩

end Load

theorem loadOnDemand_meets {w : Work} (bunker : PublicKey) :
    (loadOnDemand ext bunker).Meets (Writes ext w)
      (fun seen r => ∀ h, r = .ok (some h) → Held seen h.credential) seen := by
  refine .read (fun _ => rfl) fun s₁ => ?_
  cases ha : s₁.db.oauthByBunker bunker with
  | some a =>
    have hheld : Held ((Stmt.selectOAuth bunker, s₁) :: seen) ⟨true, a.id, a.secretHash⟩ :=
      ⟨_, List.mem_cons_self, .inl ⟨a, List.mem_of_find?_eq_some ha, rfl, rfl⟩⟩
    refine .read (fun _ => rfl) fun s₂ => .read (fun _ => rfl) fun s₃ =>
      .orErr (fun _ hr => nomatch hr) fun enc _ =>
        deriveKeys_meets ((hheld.cons _).cons _) (fun _ _ _ hr => nomatch hr) fun _ u b hh => ?_
    refine cacheInsert_meets hh fun _ hh h hr => ?_
    cases hr
    exact hh
  | none =>
    refine .read (fun _ => rfl) fun s₂ => ?_
    cases ht : s₂.db.teamByBunker bunker with
    | none => exact fun _ hr => nomatch hr
    | some a =>
      have hheld : Held ((Stmt.selectTeam bunker, s₂) :: (Stmt.selectOAuth bunker, s₁) :: seen)
          ⟨false, a.id, a.secretHash⟩ :=
        ⟨_, List.mem_cons_self, .inl ⟨a, List.mem_of_find?_eq_some ht, rfl, rfl⟩⟩
      refine .read (fun _ => rfl) fun s₃ => .read (fun _ => rfl) fun s₄ =>
        .orErr (fun _ hr => nomatch hr) fun enc _ =>
          deriveKeys_meets ((hheld.cons _).cons _) (fun _ _ _ hr => nomatch hr) fun _ u b hh => ?_
      refine cacheInsert_meets hh fun _ hh h hr => ?_
      cases hr
      exact hh

theorem getHandler_meets {w : Work} (bunker : PublicKey) :
    (getHandler ext bunker).Meets (Writes ext w)
      (fun seen r => ∀ h, r = .ok (some h) → Held seen h.credential) seen := by
  refine .read (fun _ => rfl) fun s => ?_
  cases hg : s.handlers.get bunker with
  | none => exact loadOnDemand_meets bunker
  | some h =>
    rintro h' hr
    cases hr
    exact ⟨_, List.mem_cons_self, .inr ⟨bunker, h, hg, rfl⟩⟩

theorem loadSingleAuthorization_meets {w : Work} (bunker : PublicKey) (tenant : TenantId)
    (isOauth : Bool) :
    (loadSingleAuthorization ext bunker tenant isOauth).Meets (Writes ext w) (fun _ _ => True)
      seen := by
  unfold loadSingleAuthorization
  split
  · refine .read (fun _ => rfl) fun s₁ => ?_
    split
    · next a ha =>
      have hheld : Held ((Stmt.selectOAuth bunker, s₁) :: seen) ⟨true, a.id, a.secretHash⟩ :=
        ⟨_, List.mem_cons_self, .inl ⟨a, List.mem_of_find?_eq_some ha, rfl, rfl⟩⟩
      refine .read (fun _ => rfl) fun s₂ => .orErr trivial fun enc _ =>
        deriveKeys_meets (hheld.cons _) (fun _ _ => trivial) fun _ u b hh => ?_
      exact cacheInsert_meets (g := .ret) hh fun _ _ => trivial
    · trivial
  · refine .read (fun _ => rfl) fun s₁ => ?_
    split
    · next a ha =>
      have hheld : Held ((Stmt.selectTeam bunker, s₁) :: seen) ⟨false, a.id, a.secretHash⟩ :=
        ⟨_, List.mem_cons_self, .inl ⟨a, List.mem_of_find?_eq_some ha, rfl, rfl⟩⟩
      refine .orErr trivial fun _ _ => .read (fun _ => rfl) fun s₂ => .orErr trivial fun enc _ =>
        deriveKeys_meets (hheld.cons _) (fun _ _ => trivial) fun _ u b hh => ?_
      exact cacheInsert_meets (g := .ret) hh fun _ _ => trivial
    · trivial

theorem handleCommand_meets {w : Work} (c : AuthorizationCommand) :
    (handleCommand ext c).Meets (Writes ext w) (fun _ _ => True) seen := by
  cases c with
  | upsert bunker tenant isOauth => exact loadSingleAuthorization_meets bunker tenant isOauth
  | reloadAll => trivial
  | remove bunker =>
    refine .read (fun _ => rfl) fun s₁ => ?_
    cases hg : s₁.handlers.get bunker with
    | none => trivial
    | some h =>
      have hheld : Held ((Stmt.cacheGet bunker, s₁) :: seen) h.credential :=
        ⟨_, List.mem_cons_self, .inr ⟨bunker, h, hg, rfl⟩⟩
      refine .read (fun _ => rfl) fun s₂ => ?_
      exact cacheInsert_meets (g := .ret) (hheld.cons _) fun _ _ => trivial

theorem invalidateAll_meets {w : Work} (ks : List PublicKey) (seen : List (Stmt × State)) :
    (invalidateAll ks).Meets (Writes ext w) (fun _ _ => True) seen := by
  induction ks generalizing seen with
  | nil => trivial
  | cons k ks ih => exact .write fun _ => ⟨rfl, ih _⟩

/-- **Every statement of the daemon**, with what entitles its thread to it. -/
theorem perform_meets (w : Work) :
    (perform ext w).Meets (Writes ext w) (fun _ _ => True) [] := by
  cases w with
  | request event owned nonce =>
    refine .orErr trivial fun bunker _ => ?_
    split
    · refine .bind (.mono ?_ (getHandler_meets bunker))
      rintro seen (e | (_ | h)) hh
      · trivial
      · trivial
      · exact handleWith_meets (hh h rfl)
    · trivial
  | command c =>
    refine .bind (.mono ?_ (handleCommand_meets c))
    rintro seen (e | _) _ <;> trivial
  | cleanup =>
    refine .bind (.mono ?_ (.read (fun _ => rfl) fun _ => .read (fun _ => rfl) fun _ =>
      invalidateAll_meets _ _))
    rintro seen (e | _) _ <;> trivial

end Walk

/-! ## The cache is vouched for -/

/-- All credentials around are known ones. -/
structure Vouched (known : Credential → Prop) (s : State) : Prop where
  stored : ∀ cred, s.Stores cred → known cred
  cached : ∀ cred, s.Caches cred → known cred

theorem Vouched.held {known : Credential → Prop} {seen : List (Stmt × State)}
    (h : ∀ x ∈ seen, Vouched known x.2) {cred : Credential} (hcred : Held seen cred) :
    known cred := by
  obtain ⟨x, hx, hs | hc⟩ := hcred
  · exact (h x hx).stored cred hs
  · exact (h x hx).cached cred hc

theorem stores_storeClient {s : State} {o : Bool} {id : RowId} {c : PublicKey} {cred : Credential}
    (h : (s.storeClient o id c).Stores cred) : s.Stores cred := by
  obtain ⟨isOauth, id', hash⟩ := cred
  cases o <;> cases isOauth
  · simp only [State.Stores, State.storeClient, Bool.false_eq_true, if_false, Db.storeTeamClient,
      Db.updateTeam, mem_updateWhere] at h ⊢
    obtain ⟨a, ⟨a₀, ha₀, -, rfl⟩ | ⟨ha, -⟩, hid⟩ := h
    · exact ⟨a₀, ha₀, hid⟩
    · exact ⟨a, ha, hid⟩
  · exact h
  · exact h
  · simp only [State.Stores, State.storeClient, if_true, Db.storeOAuthClient, Db.updateOAuth,
      mem_updateWhere] at h ⊢
    obtain ⟨a, ⟨a₀, ha₀, -, rfl⟩ | ⟨ha, -⟩, hid⟩ := h
    · exact ⟨a₀, ha₀, hid⟩
    · exact ⟨a, ha, hid⟩

theorem caches_cacheInvalidate {s : State} {k : PublicKey} {cred : Credential}
    (h : (s.cacheInvalidate k).Caches cred) : s.Caches cred := by
  obtain ⟨k', h', hg, hcred⟩ := h
  simp only [State.cacheInvalidate, Cache.get_invalidate] at hg
  split at hg
  · cases hg
  · exact ⟨k', h', hg, hcred⟩

theorem caches_cacheInsert {s : State} {k : PublicKey} {hd : Nip46Handler} {cred : Credential}
    (h : (s.cacheInsert k hd).Caches cred) : hd.credential = cred ∨ s.Caches cred := by
  obtain ⟨k', h', hg, hcred⟩ := h
  simp only [State.cacheInsert, Cache.get_insert] at hg
  split at hg
  · cases hg
    exact .inl hcred
  · exact .inr ⟨k', h', hg, hcred⟩

theorem caches_envStep {ext : External} {e : EnvEvent} {s : State} {cred : Credential}
    (h : (envStep ext e s).Caches cred) : s.Caches cred := by
  cases e with
  | evict k => exact caches_cacheInvalidate h
  | _ => exact h

variable {ext : External} {known : Credential → Prop}

theorem Writes.vouched {w : Work} {l : Stmt} {seen : List (Stmt × State)} {s s' : State}
    (hw : Writes ext w l seen s s') (hseen : ∀ x ∈ seen, Vouched known x.2)
    (hs : Vouched known s) : Vouched known s' := by
  cases l with
  | storeClient o id c =>
    obtain ⟨rfl, -⟩ := hw
    exact ⟨fun cred hc => hs.stored cred (stores_storeClient hc), fun cred hc => hs.cached cred hc⟩
  | cacheInsert k =>
    obtain ⟨hd, rfl, hheld⟩ := hw
    refine ⟨fun cred hc => hs.stored cred hc, fun cred hc => ?_⟩
    rcases caches_cacheInsert hc with rfl | hc
    · exact Vouched.held hseen hheld
    · exact hs.cached cred hc
  | cacheInvalidate k =>
    cases hw
    exact ⟨fun cred hc => hs.stored cred hc,
      fun cred hc => hs.cached cred (caches_cacheInvalidate hc)⟩
  | _ => cases hw; exact hs

/-- The environment introduces no unknown row. -/
def Introduces (ext : External) (known : Credential → Prop) (e : EnvEvent) (s : State) : Prop :=
  ∀ cred, (envStep ext e s).Stores cred → known cred

theorem system_traces (known : Credential → Prop) :
    System.Traces (system ext) (fun _ _ => True) (Introduces ext known) (Writes ext)
      (fun _ _ _ => True) (Vouched known) (fun _ _ => True) where
  prog := perform_meets
  refl _ := trivial
  trans _ _ _ _ _ := trivial
  exec hs hseen _ hw := ⟨hw.vouched (fun x hx => (hseen x hx).1) hs, trivial⟩
  env hs he := ⟨⟨he, fun cred hc => hs.cached cred (caches_envStep hc)⟩, trivial⟩

/-! ## Every recorded client was recorded by someone entitled to it -/

/-- A row of a run's state names a client only if a request of the run stored it, or it was
there. -/
def ClientsStored (db : Db) (c : Pool) : Prop :=
  ∀ a ∈ c.state.db.oauthAuthorizations, ∀ client, a.connectedClientPubkey = some client →
    (∃ a₀ ∈ db.oauthAuthorizations, a₀.id = a.id ∧ a₀.connectedClientPubkey = some client) ∨
      ∃ t ∈ c.threads, ∃ s, (Stmt.storeClient true a.id client, s) ∈ t.seen

theorem client_createOAuth {db : Db} {row a : OAuthAuthorization} {client : PublicKey}
    (h : a ∈ (db.createOAuth ext row).oauthAuthorizations)
    (hc : a.connectedClientPubkey = some client) : a ∈ db.oauthAuthorizations := by
  unfold Db.createOAuth at h
  split at h
  · exact h
  split at h
  · exact h
  · rcases List.mem_append.mp h with h | h
    · exact h
    · rw [List.mem_singleton.mp h] at hc
      cases hc

theorem client_updateOAuth {db : Db} {p : OAuthAuthorization → Bool}
    {f : OAuthAuthorization → OAuthAuthorization} {a : OAuthAuthorization} {client : PublicKey}
    (h : a ∈ (db.updateOAuth p f).oauthAuthorizations)
    (hc : a.connectedClientPubkey = some client)
    (hf : ∀ a, (f a).id = a.id ∧ ((f a).connectedClientPubkey = some client →
      a.connectedClientPubkey = some client)) :
    ∃ a₀ ∈ db.oauthAuthorizations, a₀.id = a.id ∧ a₀.connectedClientPubkey = some client := by
  simp only [Db.updateOAuth, mem_updateWhere] at h
  rcases h with ⟨a₀, ha₀, -, rfl⟩ | ⟨h, -⟩
  · exact ⟨a₀, ha₀, (hf a₀).1.symm, (hf a₀).2 hc⟩
  · exact ⟨a, h, rfl, hc⟩

/-- The environment records no client. -/
theorem client_envStep {e : EnvEvent} {s : State} {a : OAuthAuthorization} {client : PublicKey}
    (h : a ∈ (envStep ext e s).db.oauthAuthorizations)
    (hc : a.connectedClientPubkey = some client) :
    ∃ a₀ ∈ s.db.oauthAuthorizations, a₀.id = a.id ∧ a₀.connectedClientPubkey = some client := by
  cases e with
  | tick | evict | revokeTeam | deleteTeam => exact ⟨a, h, rfl, hc⟩
  | revokeOAuth | revokeOAuthByBunker | revokeOAuthByOrigin =>
    exact client_updateOAuth h hc fun _ => ⟨rfl, fun h => h⟩
  | disconnectClient => exact client_updateOAuth h hc fun _ => ⟨rfl, fun h => nomatch h⟩
  | deleteUser u => exact ⟨a, (List.mem_filter.mp h).1, rfl, hc⟩
  | createOAuth row => exact ⟨a, client_createOAuth h hc, rfl, hc⟩
  | createTeam row =>
    have hdb : (s.db.createTeam row).oauthAuthorizations = s.db.oauthAuthorizations := by
      unfold Db.createTeam; split <;> rfl
    exact ⟨a, hdb ▸ h, rfl, hc⟩

/-- So does a statement, unless it stores the client. -/
theorem client_writes {w : Work} {l : Stmt} {seen : List (Stmt × State)} {s s' : State}
    (hw : Writes ext w l seen s s') {a : OAuthAuthorization} {client : PublicKey}
    (h : a ∈ s'.db.oauthAuthorizations) (hc : a.connectedClientPubkey = some client) :
    l = .storeClient true a.id client ∨ ∃ a₀ ∈ s.db.oauthAuthorizations, a₀.id = a.id ∧
      a₀.connectedClientPubkey = some client := by
  cases l with
  | storeClient o id c =>
    obtain ⟨rfl, -⟩ := hw
    cases o with
    | false => exact .inr ⟨a, h, rfl, hc⟩
    | true =>
      simp only [State.storeClient, if_true, Db.storeOAuthClient, Db.updateOAuth,
        mem_updateWhere] at h
      rcases h with ⟨a₀, ha₀, hid, rfl⟩ | ⟨h, -⟩
      · rw [beq_iff_eq] at hid
        cases hc
        exact .inl (by rw [← hid])
      · exact .inr ⟨a, h, rfl, hc⟩
  | cacheInsert k =>
    obtain ⟨hd, rfl, -⟩ := hw
    exact .inr ⟨a, h, rfl, hc⟩
  | _ => cases hw; exact .inr ⟨a, h, rfl, hc⟩

theorem clientsStored_run {db : Db} {now : Timestamp} {es : List Event} :
    ClientsStored db (runFrom ext db now es) := by
  have htraces : System.Traces (system ext) _ _ _ _ _ _ := system_traces fun _ => True
  have hvouched : Vouched (fun _ => True) (State.boot db now) :=
    ⟨fun _ _ => trivial, fun _ _ => trivial⟩
  refine htraces.induct (K := ClientsStored db) ?_ ?_ ?_ (System.traced_init hvouched)
    (fun a ha client hc => .inl ⟨a, ha, rfl, hc⟩) (along_iff_split.mpr ?_)
  · intro c w hK a ha client hc
    rcases hK a ha client hc with hdb | ⟨t, ht, hs⟩
    · exact .inl hdb
    · exact .inr ⟨t, List.mem_append_left _ ht, hs⟩
  · intro c i t l s' rest hK ht _ _ _ hw a ha client hc
    obtain ⟨hi, hget⟩ := List.getElem?_eq_some_iff.mp ht
    rcases client_writes hw ha hc with rfl | ⟨a₀, ha₀, hid, hc₀⟩
    · exact .inr ⟨_, List.mem_set hi _, _, List.mem_cons_self⟩
    · rcases hK a₀ ha₀ client hc₀ with hdb | ⟨t', ht', s, hs⟩
      · exact .inl (hid ▸ hdb)
      · rw [hid] at hs
        obtain ⟨j, hj, rfl⟩ := List.mem_iff_getElem.mp ht'
        by_cases hij : i = j
        · -- the thread that stored it has just made another step
          subst hij
          rw [hget] at hs
          exact .inr ⟨_, List.mem_set hi _, s, List.mem_cons_of_mem _ hs⟩
        · exact .inr ⟨_, List.mem_iff_getElem.mpr ⟨j, by simpa using hj,
            List.getElem_set_ne hij _⟩, s, hs⟩
  · intro c e hK _ _ a ha client hc
    obtain ⟨a₀, ha₀, hid, hc₀⟩ := client_envStep ha hc
    rw [← hid]
    exact hK a₀ ha₀ client hc₀
  · rintro pre (r | i | e) post -
    · trivial
    · exact fun _ _ _ _ => trivial
    · exact fun _ _ => trivial

/-- The credentials of the authorizations there have been. -/
def KnownIn (ext : External) (db : Db) (now : Timestamp) (es : List Event) (cred : Credential) :
    Prop :=
  ∃ s ∈ statesOf ext db now es, s.Stores cred

/-- A thread that stored a client was entitled to. -/
theorem entitled_run {db : Db} {now : Timestamp} {es : List Event}
    {t : Thread Work Stmt State SignerError Outcome} (ht : t ∈ (runFrom ext db now es).threads)
    {isOauth : Bool} {id : RowId} {client : PublicKey} {s : State}
    (hs : (Stmt.storeClient isOauth id client, s) ∈ t.seen) :
    Entitled ext (KnownIn ext db now es) isOauth id client t.req t.seen := by
  have htraces : System.Traces (system ext) _ _ _ _ _ _ := system_traces (KnownIn ext db now es)
  have hboot : Vouched (KnownIn ext db now es) (State.boot db now) :=
    ⟨fun cred hc => ⟨_, mem_statesOf (List.nil_append es).symm, hc⟩,
      fun cred hcached => by
        obtain ⟨k, h, hg, -⟩ := hcached
        exact absurd hg (by simp [State.boot])⟩
  have hok : Along (system ext).step (System.Allowed (fun _ _ => True)
      (Introduces ext (KnownIn ext db now es))) (.init (.boot db now)) es := by
    refine along_iff_split.mpr ?_
    rintro pre (r | i | e) post hes
    · trivial
    · exact fun _ _ _ _ => trivial
    · intro cred hc
      refine ⟨_, mem_statesOf (hes.trans (by simp) : es = (pre ++ [.env e]) ++ post), ?_⟩
      rw [runFrom_append]
      exact hc
  refine htraces.history (K := fun w seen => ∀ o id client s,
    (Stmt.storeClient o id client, s) ∈ seen →
      Entitled ext (KnownIn ext db now es) o id client w seen)
    (fun _ _ _ _ _ h => absurd h List.not_mem_nil) ?_ hboot hok ht _ _ _ _ hs
  intro w l seen s s' hK hseen _ hw o id client s₀ hmem
  rcases List.mem_cons.mp hmem with heq | hmem
  · cases heq
    obtain ⟨-, hent⟩ := hw
    exact hent.mono (fun _ => Vouched.held fun x hx => (hseen x hx).1) (List.subset_cons_self _ _)
  · exact (hK _ _ _ _ hmem).mono (fun _ h => h) (List.subset_cons_self _ _)

/-! ## The result -/

/-- Why `client` is the recorded client of an authorization after the given events: it was when the
daemon started, or a request that was entitled to has stored it. -/
def Recorded (ext : External) (db : Db) (now : Timestamp) (es : List Event) (isOauth : Bool)
    (id : RowId) (client : PublicKey) : Prop :=
  (∃ g ∈ (State.boot db now).grants isOauth, g.id = id ∧ g.client = some client) ∨
    ∃ t ∈ (runFrom ext db now es).threads,
      (∃ s, (Stmt.storeClient isOauth id client, s) ∈ t.seen) ∧
        Entitled ext (KnownIn ext db now es) isOauth id client t.req t.seen

/-- Every sensitive result of the run from this bunker went to the client that was recorded for one
of its authorizations when the answer was given. -/
def ResultsToConnected (ext : External) (db : Db) (now : Timestamp) (es : List Event)
    (k : PublicKey) : Prop :=
  ∀ pre e post, es = pre ++ e :: post →
    ∀ (i : Nat) (t : Thread Work Stmt State SignerError Outcome),
    (runFrom ext db now (pre ++ [e])).threads[i]? = some t →
    (∀ t₀, (runFrom ext db now pre).threads[i]? = some t₀ → t₀.result? = none) →
    ∀ event owned nonce, t.req = .request event owned nonce → event.bunkerPubkey = some k →
      ∀ o, t.result? = some (.ok o) → o.sensitiveResult = true →
        ∃ isOauth, ∃ g ∈ (runFrom ext db now (pre ++ [e])).state.grants isOauth,
          g.bunker = k ∧ g.client = some event.pubkey ∧
            Recorded ext db now (pre ++ [e]) isOauth g.id event.pubkey

theorem mem_grants_of_mem {s : State} {a : OAuthAuthorization}
    (h : a ∈ s.db.oauthAuthorizations) :
    (⟨a.id, a.tenantId, a.bunkerPublicKey, a.connectedClientPubkey, a.live s.now⟩ : Grant) ∈
      s.grants true := by
  rw [State.grants, if_pos rfl]
  exact List.mem_map_of_mem h

theorem recorded_run {db : Db} {now : Timestamp} {es : List Event} {a : OAuthAuthorization}
    {client : PublicKey} (ha : a ∈ (runFrom ext db now es).state.db.oauthAuthorizations)
    (hc : a.connectedClientPubkey = some client) : Recorded ext db now es true a.id client := by
  rcases clientsStored_run a ha client hc with ⟨a₀, ha₀, hid, hc₀⟩ | ⟨t, ht, s, hs⟩
  · exact .inl ⟨_, mem_grants_of_mem ha₀, hid, hc₀⟩
  · exact .inr ⟨t, ht, ⟨s, hs⟩, entitled_run ht hs⟩

/-! ## Who waits for an answer

Between the gate and the answer the handler reads the policy, and in that time another request's
`UPDATE` may record another client, or the owner may disconnect this one. -/

/-- The authorization with this id is of the bunker, and names the client. -/
def State.Names (s : State) (k : PublicKey) (id : RowId) (client : PublicKey) : Prop :=
  ∃ a ∈ s.db.oauthAuthorizations, a.id = id ∧ a.bunkerPublicKey = k ∧
    a.connectedClientPubkey = some client

instance (s : State) (k : PublicKey) (id : RowId) (client : PublicKey) :
    Decidable (s.Names k id client) :=
  inferInstanceAs (Decidable (∃ a ∈ s.db.oauthAuthorizations, a.id = id ∧ a.bunkerPublicKey = k ∧
    a.connectedClientPubkey = some client))

/-- The gate has let the client in for this authorization: the row named it, or named nobody and the
`UPDATE` of the first use followed. -/
def LetIn (k : PublicKey) (id : RowId) (client : PublicKey) (seen : List (Stmt × State)) : Prop :=
  (∃ x ∈ seen, x.1 = .existsConnected true k client ∧ x.2.Names k id client) ∨
    [.storeClient true id client, .selectUnconnected true k] <:+: seen.map (·.1)

instance (k : PublicKey) (id : RowId) (client : PublicKey) (seen : List (Stmt × State)) :
    Decidable (LetIn k id client seen) :=
  inferInstanceAs (Decidable (_ ∨ _))

/-- The client of a request to the bunker that has no answer yet. -/
def waiting? (k : PublicKey) (t : Thread Work Stmt State SignerError Outcome) : Option PublicKey :=
  match t.req, t.result? with
  | .request event _ _, none => if event.bunkerPubkey = some k then some event.pubkey else none
  | _, _ => none

/-- The `UPDATE` of a client for an OAuth authorization, as the next statement of a thread: when it
is the first use's it still finds its row, and it does not name another client than one that has
been let in and waits for its answer. -/
def StoresUndisturbed (k : PublicKey) (c : Pool) (seen : List (Stmt × State)) (id : RowId)
    (client : PublicKey) : Prop :=
  ((seen.map (·.1)).head? = some (.selectUnconnected true k) →
    ∃ a ∈ c.state.db.oauthAuthorizations, a.id = id ∧ a.bunkerPublicKey = k) ∧
  ∀ t ∈ c.threads, ∀ client' ∈ waiting? k t, LetIn k id client' t.seen → client' = client

instance (k : PublicKey) (c : Pool) (seen : List (Stmt × State)) (id : RowId) (client : PublicKey) :
    Decidable (StoresUndisturbed k c seen id client) :=
  inferInstanceAs (Decidable ((_ → ∃ a ∈ c.state.db.oauthAuthorizations, a.id = id ∧
    a.bunkerPublicKey = k) ∧ ∀ t ∈ c.threads, ∀ client' ∈ waiting? k t, _ → client' = client))

/-- The side condition of an event: the `UPDATE` of a client is undisturbing, and nothing the API
server does takes the name of a client that has been let in and waits from its row. -/
def Undisturbed (ext : External) (k : PublicKey) (c : Pool) : Event → Prop
  | .spawn _ => True
  | .exec i => ∀ t ∈ c.threads[i]?, ∀ l ∈ t.next?, ∀ x ∈ l.stores?, x.1 = true →
      StoresUndisturbed k c t.seen x.2.1 x.2.2
  | .env e => ∀ t ∈ c.threads, ∀ client ∈ waiting? k t, ∀ a ∈ c.state.db.oauthAuthorizations,
      LetIn k a.id client t.seen → c.state.Names k a.id client →
        (envStep ext e c.state).Names k a.id client

instance Undisturbed.decidable (ext : External) (k : PublicKey) :
    ∀ (c : Pool) (e : Event), Decidable (Undisturbed ext k c e)
  | _, .spawn _ => .isTrue trivial
  | c, .exec i =>
    inferInstanceAs (Decidable (∀ t ∈ c.threads[i]?, ∀ l ∈ t.next?, ∀ x ∈ l.stores?, x.1 = true →
      StoresUndisturbed k c t.seen x.2.1 x.2.2))
  | c, .env e =>
    inferInstanceAs (Decidable (∀ t ∈ c.threads, ∀ client ∈ waiting? k t,
      ∀ a ∈ c.state.db.oauthAuthorizations, LetIn k a.id client t.seen →
        c.state.Names k a.id client → (envStep ext e c.state).Names k a.id client))

theorem waiting_of_request {k : PublicKey} {t : Thread Work Stmt State SignerError Outcome}
    {event : Nip46Event} {owned : Bool} {nonce : Nat} (hreq : t.req = .request event owned nonce)
    (hk : event.bunkerPubkey = some k) (hres : t.result? = none) :
    waiting? k t = some event.pubkey := by
  simp only [waiting?, hreq, hres, if_pos hk]

theorem request_of_waiting {k client : PublicKey} {t : Thread Work Stmt State SignerError Outcome}
    (h : waiting? k t = some client) :
    ∃ event owned nonce, t.req = .request event owned nonce ∧ event.bunkerPubkey = some k ∧
      event.pubkey = client ∧ t.result? = none := by
  unfold waiting? at h
  split at h
  · next event owned nonce hreq hres =>
    split at h
    · next hk => exact ⟨event, owned, nonce, hreq, hk, Option.some.inj h, hres⟩
    · cases h
  · cases h

theorem PassedGate.letIn {k client : PublicKey} {seen : List (Stmt × State)}
    (h : PassedGate k client seen) : ∃ id, LetIn k id client seen := by
  rcases h with ⟨s, a, hs, ha, hk, -, hc⟩ | ⟨s, s', a, hs, -⟩
  · exact ⟨a.id, .inl ⟨_, hs, rfl, a, ha, rfl, hk, hc⟩⟩
  · exact ⟨a.id, .inr (hs.map Prod.fst)⟩

/-- What a statement does to a row that names a client: it goes on naming it, unless the statement
stores another. -/
theorem Writes.names {w : Work} {l : Stmt} {seen : List (Stmt × State)} {s s' : State}
    {k client : PublicKey} {id : RowId} (hw : Writes ext w l seen s s') (hs : s.Names k id client)
    (hl : ∀ c, l = .storeClient true id c → c = client) : s'.Names k id client := by
  cases l with
  | storeClient o id' c =>
    obtain ⟨rfl, -⟩ := hw
    obtain ⟨a, ha, hid, hk, hc⟩ := hs
    cases o with
    | false => exact ⟨a, ha, hid, hk, hc⟩
    | true =>
      simp only [State.Names, State.storeClient, if_true, Db.storeOAuthClient, Db.updateOAuth,
        mem_updateWhere]
      by_cases heq : a.id = id'
      · refine ⟨_, .inl ⟨a, ha, beq_iff_eq.mpr heq, rfl⟩, hid, hk, ?_⟩
        rw [hl c (by rw [← heq, hid])]
      · exact ⟨a, .inr ⟨ha, beq_eq_false_iff_ne.mpr heq⟩, hid, hk, hc⟩
  | cacheInsert k' =>
    obtain ⟨hd, rfl, -⟩ := hw
    exact hs
  | _ => cases hw; exact hs

/-- The `UPDATE` of a client makes the row name it. -/
theorem Writes.named {w : Work} {seen : List (Stmt × State)} {s s' : State} {k client : PublicKey}
    {id : RowId} (hw : Writes ext w (.storeClient true id client) seen s s')
    (hrow : ∃ a ∈ s.db.oauthAuthorizations, a.id = id ∧ a.bunkerPublicKey = k) :
    s'.Names k id client := by
  obtain ⟨rfl, -⟩ := hw
  obtain ⟨a, ha, hid, hk⟩ := hrow
  exact ⟨_, (bindsRows_storeClient s id client).kept a ha hid, hid, hk, rfl⟩

/-- A request that waits for its answer and has been let in is still named. -/
def Holding (k : PublicKey) (c : Pool) : Prop :=
  ∀ t ∈ c.threads, ∀ client ∈ waiting? k t, ∀ id, LetIn k id client t.seen →
    c.state.Names k id client

/-- **One event.** Afterwards every request that was waiting before it, or has just come, is named
if it has been let in, also the one that the event has answered. -/
theorem named_step {c : Pool} {e : Event} {k : PublicKey}
    (hmeets : System.Meets (Writes ext) (fun _ _ _ => True) c) (hc : Holding k c)
    (hok : Undisturbed ext k c e) {i : Nat} {t : Thread Work Stmt State SignerError Outcome}
    (ht : ((system ext).step c e).threads[i]? = some t)
    (hbefore : ∀ t₀, c.threads[i]? = some t₀ → t₀.result? = none) {event : Nip46Event}
    {owned : Bool}
    {nonce : Nat} (hreq : t.req = .request event owned nonce) (hk : event.bunkerPubkey = some k)
    {id : RowId} (hin : LetIn k id event.pubkey t.seen) :
    ((system ext).step c e).state.Names k id event.pubkey := by
  -- a request that was let in before the event is named before it, and stays named
  have hstays : ∀ t₀, c.threads[i]? = some t₀ → t₀.req = t.req → LetIn k id event.pubkey t₀.seen →
      ((system ext).step c e).state.Names k id event.pubkey := by
    intro t₀ ht₀ hreq₀ hin₀
    have hmem := List.mem_of_getElem? ht₀
    have hwaits := waiting_of_request (hreq₀.trans hreq) hk (hbefore t₀ ht₀)
    have hnamed := hc t₀ hmem _ hwaits id hin₀
    cases e with
    | spawn r => exact hnamed
    | env e =>
      obtain ⟨a, ha, rfl, -⟩ := hnamed
      exact hok t₀ hmem _ hwaits a ha hin₀ (hc t₀ hmem _ hwaits a.id hin₀)
    | exec j =>
      rcases hmeets.exec_cases (system ext) j with ⟨hidle, -⟩ | ⟨u, l, hu, hl, hw⟩
      · rwa [hidle]
      · refine hw.names hnamed fun client hstore => ?_
        exact ((hok u hu l hl ⟨true, id, client⟩ (by rw [hstore]; rfl) rfl).2 t₀ hmem _ hwaits
          hin₀).symm
  rcases System.getElem?_step (system ext) ht with
    ⟨hsame, -⟩ | ⟨r, -, rfl⟩ | ⟨t₀, l, rfl, ht₀, hl, hreq₀, hseen⟩
  · exact hstays t hsame rfl hin
  · rcases hin with ⟨x, hx, -⟩ | hinfix
    · cases hx
    · cases List.infix_nil.mp hinfix
  · have hw := hmeets.exec (system ext) ht₀ hl
    rw [hseen] at hin
    rcases hin with ⟨x, hx, hlabel, hnames⟩ | hinfix
    · rcases List.mem_cons.mp hx with rfl | hx
      · -- the `SELECT` that found the client has just been executed
        refine hw.names hnames fun client hstore => ?_
        cases hlabel.symm.trans hstore
      · exact hstays t₀ ht₀ hreq₀.symm (.inl ⟨x, hx, hlabel, hnames⟩)
    · rw [List.map_cons, List.infix_cons_iff] at hinfix
      rcases hinfix with hprefix | hinfix
      · -- the `UPDATE` of the first use has just been executed
        obtain ⟨rfl, hselect⟩ := List.cons_prefix_cons.mp hprefix
        have hhead : (t₀.seen.map (·.1)).head? = some (.selectUnconnected true k) := by
          obtain ⟨rest, hrest⟩ := hselect
          rw [← hrest]
          rfl
        exact hw.named ((hok t₀ ht₀ _ hl ⟨true, id, event.pubkey⟩ rfl rfl).1 hhead)
      · exact hstays t₀ ht₀ hreq₀.symm (.inr hinfix)

theorem Holding.step {c : Pool} {e : Event} {k : PublicKey}
    (hmeets : System.Meets (Writes ext) (fun _ _ _ => True) c) (hc : Holding k c)
    (hok : Undisturbed ext k c e) : Holding k ((system ext).step c e) := by
  intro t ht client hwaits id hin
  obtain ⟨event, owned, nonce, hreq, hk, rfl, hnone⟩ := request_of_waiting hwaits
  obtain ⟨i, hi⟩ := List.mem_iff_getElem?.mp ht
  refine named_step hmeets hc hok hi (fun t₀ ht₀ => ?_) hreq hk hin
  -- a request without an answer had none before
  cases hres : t₀.result? with
  | none => rfl
  | some x =>
    have hdone : t₀.next? = none := by
      unfold Thread.result? at hres
      unfold Thread.next?
      cases hrest : t₀.rest with
      | ret | err => rfl
      | atom l upd k => simp [hrest] at hres
    cases (System.getElem?_run_of_done (system ext) ht₀ hdone [e]).symm.trans hi
    cases hres.symm.trans hnone

/-- **The run.** -/
theorem holding_run {db : Db} {now : Timestamp} {es : List Event} {k : PublicKey}
    (hok : Along (system ext).step (Undisturbed ext k) (.init (.boot db now)) es) :
    System.Meets (Writes ext) (fun _ _ _ => True) (runFrom ext db now es) ∧
      Holding k (runFrom ext db now es) := by
  refine run_invariant (I := fun c => System.Meets (Writes ext) (fun _ _ _ => True) c ∧ Holding k c)
    (fun c e hc he => ⟨System.meets_step perform_meets e hc.1, hc.2.step hc.1 he⟩) ?_ hok
  exact ⟨fun t ht => absurd ht (by simp [Conf.init]), fun t ht => absurd ht (by simp [Conf.init])⟩

/-! ## Results go to the connected client -/

instance (k : PublicKey) (s : State) : Decidable (IsTeamBunker k s) :=
  inferInstanceAs (Decidable (∃ a ∈ s.db.authorizations, a.bunkerPublicKey = k))

/-- **Results go to the connected client.** In every undisturbed run of the daemon, and for every
bunker key that is no team authorization's, a sensitive result is an answer to the client that is
recorded for an authorization of the bunker in the state the answer is given in; and a recorded
client was recorded at the start, by a `connect` with the secret of that authorization, or by the
first use of it. -/
theorem results_go_to_connected_client {db : Db} {now : Timestamp} {es : List Event}
    {k : PublicKey} (hderived : db.Derived ext)
    (hteam : ∀ s ∈ statesOf ext db now es, ¬ IsTeamBunker k s)
    (hok : Along (system ext).step (Undisturbed ext k) (.init (.boot db now)) es) :
    ResultsToConnected ext db now es k := by
  intro pre e post hes i t ht hbefore event owned nonce hreq hk o hres ho
  have hsplit : es = (pre ++ [e]) ++ post := by rw [hes, List.append_assoc, List.singleton_append]
  have hgate : Along (system ext).step (System.Allowed (NotTeam k) (fun _ _ => True))
      (.init (.boot db now)) (pre ++ [e]) := by
    refine along_iff_split.mpr ?_
    rintro pre' (r | j | e') post' hpre
    · trivial
    · have hrest : es = pre' ++ (.exec j :: post' ++ post) := by
        rw [hsplit, hpre, List.append_assoc]
      exact fun _ _ _ _ => hteam _ (mem_statesOf hrest)
    · trivial
  have hpassed : PassedGate k event.pubkey t.seen :=
    system_guarantees.result ⟨hderived, fun h hh => absurd hh (by simp [State.boot])⟩ hgate
      (List.mem_of_getElem? ht) hres event owned nonce hreq hk o rfl ho
  obtain ⟨id, hin⟩ := hpassed.letIn
  rw [hes] at hok
  obtain ⟨hpre, he, -⟩ := along_append.mp hok
  obtain ⟨hmeets, hholding⟩ := holding_run hpre
  have hstep : runFrom ext db now (pre ++ [e]) = (system ext).step (runFrom ext db now pre) e := by
    rw [runFrom_append, run_cons, run_nil]
  obtain ⟨a, ha, rfl, hak, hac⟩ :
    (runFrom ext db now (pre ++ [e])).state.Names k id event.pubkey := by
    rw [hstep] at ht ⊢
    exact named_step hmeets hholding he ht hbefore hreq hk hin
  exact ⟨true, _, mem_grants_of_mem ha, hak, hac, recorded_run ha hac⟩

/-! Two clients of one bunker: `a` connects with the secret, `b` has never seen it. -/

def sharedExternal : External :=
  .symbolic [("c0", "connect"), ("c1", "encrypt")]
    [("connect", .obj [("id", .str "0"), ("method", .str "connect"),
      ("params", .arr [.str "bunker", .str "secret"])]),
     ("encrypt", .obj [("id", .str "1"), ("method", .str "nip44_encrypt"),
      ("params", .arr [.str "bob", .str "hi"])])]

def sharedBunker : PublicKey := "pub:sk/keycast-bunker-nip46-v1-bcrypt:secret"

def connectAs (client : PublicKey) : Work :=
  .request ⟨"e0", client, [["p", sharedBunker]], "c0"⟩ true 0

def encryptFor (client : PublicKey) : Nip46Event := ⟨"e1", client, [["p", sharedBunker]], "c1"⟩

/-- `a` connects; then `client` asks for an encryption. -/
def sharedRun (client : PublicKey) : List Event :=
  (.spawn (connectAs "a") :: List.replicate 8 (.exec 0)) ++
    (.spawn (.request (encryptFor client) true 0) :: List.replicate 8 (.exec 1))

def oauthShared : Db where
  personalKeys := [⟨"alice", 1, "sk"⟩]
  oauthAuthorizations :=
    [{ id := 1, tenantId := 1, userPubkey := "alice", bunkerPublicKey := sharedBunker,
       secretHash := "bcrypt:secret" }]

theorem oauthShared_answers :
    ((runFrom sharedExternal oauthShared 0 (sharedRun "a")).threads[1]?).any
      (answered (encryptFor "a")) = true := by
  decide

/-- `a`, the client of the bunker, is answered and still named when it is. -/
theorem results_go_to_connected_client_shared :
    ResultsToConnected sharedExternal oauthShared 0 (sharedRun "a") sharedBunker ∧
      ((runFrom sharedExternal oauthShared 0 (sharedRun "a")).threads[1]?).any
        (answered (encryptFor "a")) = true ∧
      (runFrom sharedExternal oauthShared 0 (sharedRun "a")).state.Names sharedBunker 1 "a" :=
  ⟨results_go_to_connected_client (by decide) (by decide) (by decide),
    oauthShared_answers, by decide⟩

/-- The same bunker as a team's. -/
def teamShared : Db where
  storedKeys := [{ id := 7, tenantId := 1, secretKey := "sk" }]
  authorizations :=
    [{ id := 1, tenantId := 1, storedKeyId := 7, bunkerPublicKey := sharedBunker,
       secretHash := "bcrypt:secret" }]

/-- Two clients of the OAuth bunker, neither connected: both find no client recorded before either's
`UPDATE`. -/
def firstUses : List Event :=
  [.spawn (.request (encryptFor "a") true 0), .spawn (.request (encryptFor "b") true 0)] ++
    List.replicate 7 (.exec 0) ++ List.replicate 3 (.exec 1) ++ [.exec 0, .exec 1, .exec 0]

/-- An answer to a client that no authorization names. -/
theorem not_resultsToConnected {db : Db} {now : Timestamp} (pre post : List Event)
    (e : Event) (i : Nat)
    {k : PublicKey} {event : Nip46Event} (hk : event.bunkerPubkey = some k)
    (hbefore : ((runFrom ext db now pre).threads[i]?).any (·.result?.isSome) = false)
    (hanswer : ((runFrom ext db now (pre ++ [e])).threads[i]?).any (answered event) = true)
    (hother : ∀ isOauth, ∀ g ∈ (runFrom ext db now (pre ++ [e])).state.grants isOauth,
      g.client ≠ some event.pubkey) : ¬ ResultsToConnected ext db now (pre ++ e :: post) k := by
  intro h
  obtain ⟨t, ht, ha⟩ := Conf.exists_thread hanswer
  obtain ⟨hreq, o, hres, ho⟩ := answered_iff.mp ha
  have hnone : ∀ t₀, (runFrom ext db now pre).threads[i]? = some t₀ → t₀.result? = none := by
    intro t₀ ht₀
    simpa [ht₀] using hbefore
  obtain ⟨isOauth, g, hg, -, hclient, -⟩ :=
    h pre e post rfl i t ht hnone event _ _ hreq hk o hres ho
  exact hother isOauth g hg hclient

/-- **Bunkers answer strangers.** A team bunker answers `b`, who never connected, while `a` is the
connected client all along; and an OAuth bunker answers `a` when `b` has just been recorded in its
place. -/
theorem bunkers_answer_strangers :
    (teamShared.Derived sharedExternal ∧
      ¬ ResultsToConnected sharedExternal teamShared 0 (sharedRun "b") sharedBunker) ∧
    oauthShared.Derived sharedExternal ∧
      (∀ s ∈ statesOf sharedExternal oauthShared 0 firstUses, ¬ IsTeamBunker sharedBunker s) ∧
      ¬ ResultsToConnected sharedExternal oauthShared 0 firstUses sharedBunker := by
  refine ⟨⟨by decide, ?_⟩, by decide, by decide, ?_⟩
  · have hevent : (encryptFor "b").bunkerPubkey = some sharedBunker := by decide
    exact not_resultsToConnected ((sharedRun "b").take 12) (List.replicate 5 (.exec 1)) (.exec 1) 1
      hevent (by decide) (by decide) (by decide)
  · have hevent : (encryptFor "a").bunkerPubkey = some sharedBunker := by decide
    exact not_resultsToConnected (firstUses.take 14) [] (.exec 0) 0 hevent (by decide) (by decide)
      (by decide)

end Keycast.Signer
