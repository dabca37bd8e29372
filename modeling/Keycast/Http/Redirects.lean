import Keycast.Core.RegisteredClients
import Keycast.Http.OAuth
import Keycast.Lib.Within

/-!
# `Http/Redirects.lean` — where codes are sent

Every way to a row of `oauth_codes`: `authorize_get`, `authorize_post`, `oauth_register`, the three
headless endpoints and `verify_email`, over the table of registered clients. That table has no
endpoint of its own; whoever runs the server may change it at any time.

One of the seven checks the redirect URI. Four take it from the request as it is, and so does
`headless_login`; `verify_email` takes it from the registration, where one of them has put it.

What is known of a call under way is one of four things (`Called`): nothing yet, that it stores no
code, that it stores one for the target of an unchecked request, or one for a target that is
allowed. `Called.exec` is the step: it says what the next statement does and what is known after it.
`CodesSent` is the invariant of the run, the same for every call under way and for every
registration that waits; it survives a change of the clients that takes nothing from them
(`Called.setClients`).
-/

set_option autoImplicit false

namespace Keycast.Http

open Lib

/-- `registered_clients`: the patterns of a client of a tenant. -/
abbrev Clients := TenantId → String → Option (List String)

/-- Where a code goes. -/
structure Target where
  tenant : TenantId
  clientId : String
  redirectUri : String
  deriving DecidableEq, Repr

/-- A client that is registered has a pattern for the URI. -/
def Clients.Allows (clients : Clients) (x : Target) : Prop :=
  ∀ patterns, clients x.tenant x.clientId = some patterns →
    ∃ pattern ∈ patterns, matchesRedirectPattern pattern x.redirectUri = some true

def codeTarget (c : OAuthCode) : Target := ⟨c.tenantId, c.clientId, c.redirectUri⟩

/-! ## The endpoints -/

structure HeadlessLoginRequest extends CodeParams where
  email : String
  password : String
  scope : Option String := none
  deriving DecidableEq, Repr

/-- `UserRepository::find_with_password`. -/
def findWithPassword (db : Db) (email : String) (tenant : TenantId) :
    Option (PublicKey × String × Bool) := do
  let user ← db.users.find? fun u => u.email == some email && u.tenantId == tenant &&
    u.passwordHash.isSome
  let hash ← user.passwordHash
  return (user.pubkey, hash, user.emailVerified)

/-- `headless_login`. -/
def headlessLogin (w : Web) (tenant : TenantId) (code : String) (req : HeadlessLoginRequest) :
    Prog Stmt State HeadlessError String := do
  let email := w.toLowercase req.email
  let _ ← .ofExcept ((extractOrigin w req.redirectUri).mapError fun e =>
    .invalidRequest ("Invalid redirect_uri: " ++ e.debug))
  let user ← .read .findPubkeyByEmail fun s => findWithPassword s.db email tenant
  let (pubkey, hash, verified) ← .orErr user .unauthorized
  let valid ← .ofExcept
    ((w.bcryptVerify req.password hash).mapError fun _ => .internal "Password verification failed")
  if !valid then .err .unauthorized
  else if !verified then .err .emailNotVerified
  else
    storeCode (.conflict "Resource already exists")
      (req.row tenant code pubkey (req.scope.getD "policy:full") none true)
    return code

inductive CodeCall
  | authorizeGet (tenant : TenantId) (headers : Headers) (code : String) (params : AuthorizeRequest)
  | authorizePost (tenant : TenantId) (headers : Headers) (code : String) (req : ApproveRequest)
  | oauthRegister (tenant : TenantId) (allowed : Bool) (drawn : Drawn) (req : OAuthRegisterRequest)
  | headlessRegister (tenant : TenantId) (allowed : Bool) (drawn : Drawn)
    (req : HeadlessRegisterRequest)
  | headlessLogin (tenant : TenantId) (code : String) (req : HeadlessLoginRequest)
  | headlessAuthorize (tenant : TenantId) (headers : Headers) (code : String)
    (req : HeadlessAuthorizeRequest)
  | verifyEmail (tenant : TenantId) (headers : Headers) (redis : Redis) (newCode token : String)

/-- Where a request that is not checked wants its code to go. -/
def CodeCall.unchecked? : CodeCall → Option Target
  | .authorizePost tenant _ _ req => some ⟨tenant, req.clientId, req.redirectUri⟩
  | .oauthRegister tenant _ _ req => some ⟨tenant, req.clientId, req.redirectUri⟩
  | .headlessRegister tenant _ _ req => some ⟨tenant, req.clientId, req.redirectUri⟩
  | .headlessLogin tenant _ req => some ⟨tenant, req.clientId, req.redirectUri⟩
  | .headlessAuthorize tenant _ _ req => some ⟨tenant, req.clientId, req.redirectUri⟩
  | .authorizeGet .. | .verifyEmail .. => none

structure ClientWorld where
  web : State
  clients : Clients

inductive CodeStmt
  | validateRedirectUri
  | web (l : Stmt)
  deriving DecidableEq, Repr

abbrev CodeProg := Prog CodeStmt ClientWorld Unit Unit

/-- An endpoint over the web server's state; its answer does not matter here. -/
def endpoint {ε α : Type} (p : Prog Stmt State ε α) : CodeProg :=
  ((p.mapErr fun _ => ()).bind fun _ => .ret ()).within .web ClientWorld.web fun x web =>
    { x with web }

def codeProg (w : Web) : CodeCall → CodeProg
  | .authorizeGet tenant headers code params => do
    let check ← .read .validateRedirectUri fun x =>
      validateRedirectUri (x.clients tenant params.clientId) params.clientId params.redirectUri
    match check with
    | some check => endpoint (authorizeGet w tenant headers check code params)
    | none => .err ()
  | .authorizePost tenant headers code req => endpoint (authorizePost w tenant headers code req)
  | .oauthRegister tenant allowed drawn req => endpoint (oauthRegister w tenant allowed drawn req)
  | .headlessRegister tenant allowed drawn req =>
    endpoint (headlessRegister w tenant allowed drawn req)
  | .headlessLogin tenant code req => endpoint (headlessLogin w tenant code req)
  | .headlessAuthorize tenant headers code req =>
    endpoint (headlessAuthorize w tenant headers code req)
  | .verifyEmail tenant headers redis newCode token =>
    endpoint (verifyEmail w tenant headers redis newCode token)

/-- The clients are changed, or something else happens in the meantime, in which codes can only
go. -/
inductive CodeEnv
  | setClients (clients : Clients)
  | rest (state : State) (stays : OAuthCode → Bool)

def codeEnv : CodeEnv → ClientWorld → ClientWorld
  | .setClients clients, x => { x with clients }
  | .rest s stays, x =>
    { x with web := s.withDb { s.db with oauthCodes := x.web.db.oauthCodes.filter stays } }

def codeSystem (w : Web) : System CodeCall CodeStmt ClientWorld Unit Unit CodeEnv :=
  ⟨codeProg w, codeEnv⟩

abbrev CodeThread := Thread CodeCall CodeStmt ClientWorld Unit Unit

abbrev CodeConf := Conf CodeCall CodeStmt ClientWorld Unit Unit

abbrev CodeEv := Ev CodeCall CodeEnv

/-- A server that has no codes yet. -/
def ClientWorld.start (db : Db) (now : Timestamp) (clients : Clients) : ClientWorld :=
  ⟨.boot { db with oauthCodes := [] } now, clients⟩

/-! ## The property and the condition -/

def CodeStmt.inserts : CodeStmt → Bool
  | .web .storeCode | .web .storePending | .web (.storeVerifiedCode ..) => true
  | _ => false

/-- A code that is stored goes where its client allows, if that is registered then. -/
def StoredAllowed (w : Web) (c : CodeConf) (e : CodeEv) : Prop :=
  ∀ row ∈ ((codeSystem w).step c e).state.web.db.oauthCodes, row ∉ c.state.web.db.oauthCodes →
    ((codeSystem w).step c e).state.clients.Allows (codeTarget row)

/-- What a call under way holds on to: the checked URI, or the one of the registration it has
found. -/
def Carries (r : CodeCall) (seen : List (CodeStmt × ClientWorld)) (x : Target) : Prop :=
  match r with
  | .authorizeGet tenant _ _ params => x = ⟨tenant, params.clientId, params.redirectUri⟩
  | .verifyEmail tenant _ _ _ token => ∃ x₀ row, (.web .findPendingByToken, x₀) ∈ seen ∧
      x₀.web.db.findPendingByToken x₀.web.now token tenant = some row ∧ x = codeTarget row
  | _ => False

/-- A target that a registration waits with, or a call that has not ended. -/
def Waiting (c : CodeConf) (x : Target) : Prop :=
  (∃ row ∈ c.state.web.db.oauthCodes, row.pendingEmailVerificationToken.isSome = true ∧
    codeTarget row = x) ∨
    ∃ t ∈ c.threads, t.next?.isSome = true ∧ Carries t.req t.seen x

/-- What is asked of a run: a request that is not checked stores only what is allowed, and a change
of the clients takes nothing from a registration or a call that is under way. -/
def SentWell (c : CodeConf) : CodeEv → Prop
  | .exec i =>
    ∀ t l x, c.threads[i]? = some t → t.next? = some l → l.inserts = true →
    t.req.unchecked? = some x →
      c.state.clients.Allows x
  | .env (.setClients clients) => ∀ x, Waiting c x → c.state.clients.Allows x → clients.Allows x
  | _ => True

/-! ## What the statements store -/

theorem matchesAny_eq_true {uri : String} {patterns : List String}
    (h : matchesAny uri patterns = some true) :
    ∃ pattern ∈ patterns, matchesRedirectPattern pattern uri = some true := by
  induction patterns with
  | nil => cases h
  | cons pattern patterns ih =>
    rw [matchesAny, Option.bind_eq_bind, Option.bind_eq_some_iff] at h
    obtain ⟨found, hfound, h⟩ := h
    cases found with
    | true => exact ⟨pattern, List.mem_cons_self, hfound⟩
    | false =>
      obtain ⟨pattern', hmem, hmatch⟩ := ih h
      exact ⟨pattern', List.mem_cons_of_mem _ hmem, hmatch⟩

/-- **What the check is for.** -/
theorem allows_of_validateRedirectUri {clients : Clients} {x : Target}
    (h : validateRedirectUri (clients x.tenant x.clientId) x.clientId x.redirectUri =
      some (.ok ())) :
    clients.Allows x := by
  intro patterns hpatterns
  rw [hpatterns] at h
  cases patterns with
  | nil => cases h
  | cons pattern patterns =>
    obtain ⟨found, hfound, hok⟩ := Option.map_eq_some_iff.mp h
    cases found with
    | true => exact matchesAny_eq_true hfound
    | false => cases hok

/-- Codes stay, go, or one is inserted that goes to `x`. -/
def Stores (x : Target) (l : Stmt) (s s' : State) : Prop :=
  ∀ row ∈ s'.db.oauthCodes, row ∈ s.db.oauthCodes ∨ (CodeStmt.web l).inserts = true ∧
    codeTarget row = x

/-- Codes only go. -/
def NoCodes (s s' : State) : Prop := ∀ row ∈ s'.db.oauthCodes, row ∈ s.db.oauthCodes

section Stores

variable {w : Web} {x : Target} {tenant : TenantId} {l : Stmt}

theorem Stores.refl (x : Target) (l : Stmt) (s : State) : Stores x l s s := fun _ => .inl

theorem NoCodes.stores {s s' : State} (h : NoCodes s s') : Stores x l s s' :=
  fun row hrow => .inl (h row hrow)

theorem Stores.insert (hl : (CodeStmt.web l).inserts = true) {s : State} {c : OAuthCode} {db : Db}
    (h : s.db.storeOAuthCode c = some db) (hc : codeTarget c = x) : Stores x l s (s.withDb db) := by
  unfold Db.storeOAuthCode at h
  split at h
  · cases h
  cases h
  intro row hrow
  rcases List.mem_append.mp hrow with hrow | hrow
  · exact .inl hrow
  · rw [List.mem_singleton.mp hrow]
    exact .inr ⟨hl, hc⟩

/-- A transaction that stores a code. -/
theorem insert_does {ε : Type} {e : ε} (hl : (CodeStmt.web l).inserts = true)
    {row : State → OAuthCode}
    (hrow : ∀ s, codeTarget (row s) = x) :
    (transact l e fun s => (s.db.storeOAuthCode (row s)).map (((), ·))).Does (Stores x) := by
  refine transact_does (fun s => .refl x l s) fun s _ db h => ?_
  obtain ⟨db', hdb', heq⟩ := Option.map_eq_some_iff.mp h
  cases heq
  exact .insert hl hdb' (hrow s)

theorem autoApprove_does {code : String} {user : PublicKey} {params : AuthorizeRequest}
    {previous : Option RowId} :
    (autoApprove tenant code user params previous).Does
      (Stores ⟨tenant, params.clientId, params.redirectUri⟩) :=
  .bind (insert_does rfl fun _ => rfl) fun _ => trivial

theorem authorizeGet_does {headers : Headers} {check : Except String Unit} {code : String}
    {params : AuthorizeRequest} :
    (authorizeGet w tenant headers check code params).Does
      (Stores ⟨tenant, params.clientId, params.redirectUri⟩) := by
  refine .bind (.ofExcept _) fun _ => .bind (.read (Stores.refl _ _) _) fun _ =>
    .bind ?_ fun user => ?_
  · unfold authorizeAccount
    split
    · trivial
    split
    · trivial
    exact .bind (.read (Stores.refl _ _) _) fun _ => trivial
  split
  · trivial
  refine .bind ?_ fun previous => ?_
  · unfold previousAuthorization
    split
    · exact .read (Stores.refl _ _) _
    · trivial
  split
  · exact autoApprove_does
  refine .bind (.ofExcept _) fun _ => .bind (.read (Stores.refl _ _) _) fun _ => ?_
  split
  · exact autoApprove_does
  · trivial

theorem authorizePost_does {headers : Headers} {code : String} {req : ApproveRequest} :
    (authorizePost w tenant headers code req).Does
      (Stores ⟨tenant, req.clientId, req.redirectUri⟩) := by
  unfold authorizePost
  split
  · trivial
  exact .bind (.read (Stores.refl _ _) _) fun _ => .bind (.orErr _ _) fun _ =>
    .bind (insert_does rfl fun _ => rfl) fun _ => trivial

theorem oauthRegister_does {allowed : Bool} {drawn : Drawn} {req : OAuthRegisterRequest} :
    (oauthRegister w tenant allowed drawn req).Does
      (Stores ⟨tenant, req.clientId, req.redirectUri⟩) := by
  unfold oauthRegister
  split
  · trivial
  refine .bind (.read (Stores.refl _ _) _) fun _ => ?_
  split
  · trivial
  refine .bind (.ofExcept _) fun _ => .bind (.ofExcept _) fun _ =>
    .bind (.read (Stores.refl _ _) _) fun _ => ?_
  split
  · trivial
  refine .bind (.read (Stores.refl _ _) _) fun _ => ?_
  split
  · trivial
  exact .bind (.ofExcept _) fun _ => .bind (insert_does rfl fun _ => rfl) fun _ => trivial

theorem headlessRegister_does {allowed : Bool} {drawn : Drawn} {req : HeadlessRegisterRequest} :
    (headlessRegister w tenant allowed drawn req).Does
      (Stores ⟨tenant, req.clientId, req.redirectUri⟩) := by
  unfold headlessRegister
  split
  · trivial
  refine .bind (.ofExcept _) fun _ => .bind ?_ fun _ => .bind (.ofExcept _) fun _ =>
    .bind ?_ fun _ => ?_
  · unfold checkHeadlessScope
    split
    · exact .bind (.ofExcept _) fun _ => .bind (.read (Stores.refl _ _) _) fun _ =>
        .bind (.orErr _ _) fun _ => trivial
    · trivial
  · unfold headlessKeyKnown
    split
    · exact .read (Stores.refl _ _) _
    · trivial
  split
  · trivial
  refine .bind (.read (Stores.refl _ _) _) fun _ => ?_
  split
  · trivial
  exact .bind (.ofExcept _) fun _ => .bind (.ofExcept _) fun _ =>
    .bind (insert_does rfl fun _ => rfl) fun _ => trivial

theorem headlessLogin_does {code : String} {req : HeadlessLoginRequest} :
    (headlessLogin w tenant code req).Does (Stores ⟨tenant, req.clientId, req.redirectUri⟩) := by
  refine .bind (.ofExcept _) fun _ => .bind (.read (Stores.refl _ _) _) fun _ =>
    .bind (.orErr _ _) fun _ =>
    .bind (.ofExcept _) fun _ => ?_
  split
  · trivial
  split
  · trivial
  exact .bind (insert_does rfl fun _ => rfl) fun _ => trivial

theorem headlessAuthorize_does {headers : Headers} {code : String}
    {req : HeadlessAuthorizeRequest} :
    (headlessAuthorize w tenant headers code req).Does
      (Stores ⟨tenant, req.clientId, req.redirectUri⟩) :=
  .bind (.read (Stores.refl _ _) _) fun _ => .bind (.ofExcept _) fun _ =>
    .bind (.ofExcept _) fun _ =>
    .bind (insert_does rfl fun _ => rfl) fun _ => trivial

theorem verifyRegistration_does {redis : Redis} {newCode token : String} {pending : OAuthCode} :
    (verifyRegistration tenant redis newCode token pending).Does
      (Stores ⟨tenant, pending.clientId, pending.redirectUri⟩) := by
  have hfewer : ∀ {l : Stmt} (s : State) (q : OAuthCode → Bool),
    Stores ⟨tenant, pending.clientId, pending.redirectUri⟩ l s
      (s.withDb { s.db with oauthCodes := s.db.oauthCodes.filter q }) :=
    fun s q => NoCodes.stores fun row hrow => (List.mem_filter.mp hrow).1
  refine .bind (.orErr _ _) fun email => .bind (.orErr _ _) fun passwordHash => .bind ?_ fun _ => ?_
  · have hsteps : (ensureVerifiedUser pending tenant email passwordHash token).Steps NoCodes := by
      refine ensureVerifiedUser_steps (fun _ _ => id) (fun s u db keys hinsert row hrow => ?_)
        pending _ _ token
      rw [(Db.insertUser_eq_some hinsert).2] at hrow
      exact hrow
    exact hsteps.does fun _ _ _ => NoCodes.stores
  · unfold storeVerifiedCode
    split
    · trivial
    refine .bind (insert_does rfl fun _ => rfl) fun _ => .bind ?_ fun _ =>
      .bind (.write fun s => hfewer s _) fun _ => trivial
    unfold announceCode
    split
    · split
      · exact .write (Stores.refl _ _)
      · exact .bind (.write (Stores.refl _ _)) fun _ =>
          .bind (.write fun s => hfewer s _) fun _ => trivial
    · split
      · exact .write (Stores.refl _ _)
      · trivial

end Stores

/-! ## Runs -/

/-- A statement of a call that may store a code for `x`. -/
def WorldStores (x : Target) (l : CodeStmt) (a b : ClientWorld) : Prop :=
  b.clients = a.clients ∧
    ∀ row ∈ b.web.db.oauthCodes, row ∈ a.web.db.oauthCodes ∨ l.inserts = true ∧ codeTarget row = x

/-- A statement of a call that stores none. -/
def WorldQuiet (_ : CodeStmt) (a b : ClientWorld) : Prop :=
  b.clients = a.clients ∧ ∀ row ∈ b.web.db.oauthCodes, row ∈ a.web.db.oauthCodes

/-- What is known of a call under way, by what it has done: nothing yet, or it stores no code, or
one for the target of an unchecked request, or one for a target that is allowed. -/
inductive Called (w : Web) (r : CodeCall) (p : CodeProg) (seen : List (CodeStmt × ClientWorld))
    (clients : Clients) :
    Prop
  | fresh (start : p = codeProg w r) (nothing : seen = []) (checked : r.unchecked? = none)
  | quiet (does : p.Does WorldQuiet)
  | unchecked (x : Target) (target : r.unchecked? = some x) (does : p.Does (WorldStores x))
  | checked (x : Target) (carries : Carries r seen x) (does : p.Does (WorldStores x))
    (allows : clients.Allows x)

/-- Every call is known, and every registration waits with a target that is allowed. -/
structure CodesSent (w : Web) (c : CodeConf) : Prop where
  calls : ∀ t ∈ c.threads, Called w t.req t.rest t.seen c.state.clients
  pending : ∀ row ∈ c.state.web.db.oauthCodes, row.pendingEmailVerificationToken.isSome = true →
    c.state.clients.Allows (codeTarget row)

section Runs

variable {w : Web} {c : CodeConf} {e : CodeEv} {x : Target}

theorem endpoint_does {ε α : Type} {p : Prog Stmt State ε α} (h : p.Does (Stores x)) :
    (endpoint p).Does (WorldStores x) :=
  Prog.Does.within (fun _ _ _ hstores => ⟨rfl, hstores⟩) (h.mapErr.bind fun _ => trivial)

theorem endpoint_quiet {ε α : Type} {p : Prog Stmt State ε α} (h : p.Steps NoCodes) :
    (endpoint p).Does WorldQuiet :=
  Prog.Does.within (P := fun _ => NoCodes) (fun _ _ _ hstores => ⟨rfl, hstores⟩)
    ((h.does fun _ _ _ => id).mapErr.bind fun _ => trivial)

/-- A new call. -/
theorem Called.spawn (r : CodeCall) (clients : Clients) : Called w r (codeProg w r) [] clients := by
  cases r with
  | authorizeGet => exact .fresh rfl rfl rfl
  | verifyEmail => exact .fresh rfl rfl rfl
  | authorizePost tenant headers code req =>
    exact .unchecked _ rfl (endpoint_does authorizePost_does)
  | oauthRegister tenant allowed drawn req =>
    exact .unchecked _ rfl (endpoint_does oauthRegister_does)
  | headlessRegister tenant allowed drawn req =>
    exact .unchecked _ rfl (endpoint_does headlessRegister_does)
  | headlessLogin tenant code req => exact .unchecked _ rfl (endpoint_does headlessLogin_does)
  | headlessAuthorize tenant headers code req =>
    exact .unchecked _ rfl (endpoint_does headlessAuthorize_does)

/-- The first statement of `authorize_get` checks. -/
theorem authorizeGet_first {tenant : TenantId} {headers : Headers} {code : String}
    {params : AuthorizeRequest}
    {l : CodeStmt} {upd : ClientWorld → ClientWorld} {k : ClientWorld → CodeProg} {a : ClientWorld}
    (h : codeProg w (.authorizeGet tenant headers code params) = .atom l upd k) :
    upd a = a ∧ Called w (.authorizeGet tenant headers code params) (k a) [(l, a)] a.clients := by
  cases h
  refine ⟨rfl, ?_⟩
  show Called w _
    (match validateRedirectUri (a.clients tenant params.clientId) params.clientId
      params.redirectUri with
    | some check => endpoint (authorizeGet w tenant headers check code params)
    | none => .err ()) _ _
  cases hcheck : validateRedirectUri (a.clients tenant params.clientId) params.clientId
    params.redirectUri with
  | none => exact .quiet trivial
  | some check =>
    cases check with
    | error e => exact .quiet trivial
    | ok u =>
      refine .checked ⟨tenant, params.clientId, params.redirectUri⟩ rfl
        (endpoint_does authorizeGet_does) ?_
      exact allows_of_validateRedirectUri hcheck

theorem verifyEmail_first {tenant : TenantId} {headers : Headers} {redis : Redis}
    {newCode token : String}
    {l : CodeStmt} {upd : ClientWorld → ClientWorld} {k : ClientWorld → CodeProg} {a : ClientWorld}
    (h : codeProg w (.verifyEmail tenant headers redis newCode token) = .atom l upd k)
    (hpending : ∀ row ∈ a.web.db.oauthCodes, row.pendingEmailVerificationToken.isSome = true →
      a.clients.Allows (codeTarget row)) :
    upd a = a ∧
      Called w (.verifyEmail tenant headers redis newCode token) (k a) [(l, a)] a.clients := by
  cases h
  refine ⟨rfl, ?_⟩
  dsimp only
  cases hfound : a.web.db.findPendingByToken a.web.now token tenant with
  | some pending =>
    have hrow := List.find?_some hfound
    simp only [Bool.and_eq_true, beq_iff_eq] at hrow
    have htarget : codeTarget pending = ⟨tenant, pending.clientId, pending.redirectUri⟩ := by
      rw [codeTarget, hrow.1.2]
    refine .checked (codeTarget pending) ⟨a, pending, List.mem_cons_self, hfound, rfl⟩ ?_ ?_
    · rw [htarget]
      exact endpoint_does verifyRegistration_does
    · exact hpending pending (List.mem_of_find?_eq_some hfound) (by rw [hrow.1.1]; rfl)
  | none =>
    exact .quiet (endpoint_quiet (verifyUser_steps (fun _ _ => id) (fun _ _ _ => id) headers token))

/-- What the next statement of a call does, and what is known of the call after it. -/
theorem Called.exec (h : CodesSent w c) {i : Nat} {t : CodeThread} (ht : c.threads[i]? = some t)
    {l : CodeStmt}
    {upd : ClientWorld → ClientWorld} {k : ClientWorld → CodeProg} (hrest : t.rest = .atom l upd k)
    (hwell : SentWell c (.exec i)) :
    (upd c.state).clients = c.state.clients ∧
      (∀ row ∈ (upd c.state).web.db.oauthCodes, row ∈ c.state.web.db.oauthCodes ∨
        c.state.clients.Allows (codeTarget row)) ∧
      Called w t.req (k c.state) ((l, c.state) :: t.seen) c.state.clients := by
  have hnext : t.next? = some l := by rw [Thread.next?, hrest]
  have hcall := h.calls t (List.mem_of_getElem? ht)
  rw [hrest] at hcall
  cases hcall with
  | fresh start nothing checked =>
    rw [nothing]
    cases hreq : t.req with
    | authorizeGet tenant headers code params =>
      rw [hreq] at start
      obtain ⟨hsame, hcalled⟩ := authorizeGet_first start.symm (a := c.state)
      rw [hsame]
      exact ⟨rfl, fun row => .inl, hcalled⟩
    | verifyEmail tenant headers redis newCode token =>
      rw [hreq] at start
      obtain ⟨hsame, hcalled⟩ := verifyEmail_first start.symm h.pending
      rw [hsame]
      exact ⟨rfl, fun row => .inl, hcalled⟩
    | authorizePost | oauthRegister | headlessRegister | headlessLogin | headlessAuthorize =>
      rw [hreq] at checked
      cases checked
  | quiet does =>
    obtain ⟨hquiet, hk⟩ := does c.state
    exact ⟨hquiet.1, fun row hrow => .inl (hquiet.2 row hrow), .quiet hk⟩
  | unchecked x target does =>
    obtain ⟨hstores, hk⟩ := does c.state
    refine ⟨hstores.1, fun row hrow => ?_, .unchecked x target hk⟩
    rcases hstores.2 row hrow with hold | ⟨hinserts, htarget⟩
    · exact .inl hold
    · rw [htarget]
      exact .inr (hwell t l x ht hnext hinserts target)
  | checked x carries does allows =>
    obtain ⟨hstores, hk⟩ := does c.state
    refine ⟨hstores.1, fun row hrow => ?_, .checked x ?_ hk allows⟩
    · rcases hstores.2 row hrow with hold | ⟨-, htarget⟩
      · exact .inl hold
      · rw [htarget]
        exact .inr allows
    · unfold Carries at carries ⊢
      split at carries
      · exact carries
      · obtain ⟨x₀, row, hseen, hfound⟩ := carries
        exact ⟨x₀, row, List.mem_cons_of_mem _ hseen, hfound⟩
      · exact carries


/-- A thread that has nothing more to execute. -/
theorem Called.of_next_none {t : CodeThread} (h : t.next? = none) (clients : Clients) :
    Called w t.req t.rest t.seen clients := by
  unfold Thread.next? at h
  cases hrest : t.rest with
  | ret | err => exact .quiet trivial
  | atom l upd k => simp [hrest] at h

theorem CodesSent.exec (h : CodesSent w c) {i : Nat} (hwell : SentWell c (.exec i)) :
    CodesSent w ((codeSystem w).step c (.exec i)) ∧ StoredAllowed w c (.exec i) := by
  unfold StoredAllowed
  simp only [System.step]
  cases ht : c.threads[i]? with
  | none => exact ⟨h, fun row hrow hnew => absurd hrow hnew⟩
  | some t =>
    cases hrest : t.rest with
    | ret | err =>
      have hset : c.threads.set i t = c.threads := by
        obtain ⟨hi, rfl⟩ := List.getElem?_eq_some_iff.mp ht
        exact List.set_getElem_self hi
      simp only [Thread.step, hrest, hset]
      exact ⟨h, fun row hrow hnew => absurd hrow hnew⟩
    | atom l upd k =>
      obtain ⟨hclients, hrows, hcalled⟩ := Called.exec h ht hrest hwell
      simp only [Thread.step, hrest]
      refine ⟨⟨fun t' ht' => ?_, fun row hrow hpending => ?_⟩, fun row hrow hnew => ?_⟩
      · rw [hclients]
        rcases List.mem_or_eq_of_mem_set ht' with hmem | rfl
        · exact h.calls t' hmem
        · exact hcalled
      · rw [hclients]
        rcases hrows row hrow with hold | hallowed
        · exact h.pending row hold hpending
        · exact hallowed
      · rw [hclients]
        exact (hrows row hrow).resolve_left hnew

/-- A change of the clients that takes nothing from who waits. -/
theorem Called.setClients {t : CodeThread} (ht : t ∈ c.threads) {clients : Clients}
    (h : Called w t.req t.rest t.seen c.state.clients)
    (hkeeps : ∀ x, Waiting c x → c.state.clients.Allows x → clients.Allows x) :
    Called w t.req t.rest t.seen clients := by
  cases hnext : t.next? with
  | none => exact .of_next_none hnext clients
  | some l =>
    cases h with
    | fresh start nothing checked => exact .fresh start nothing checked
    | quiet does => exact .quiet does
    | unchecked x target does => exact .unchecked x target does
    | checked x carries does allows =>
      refine .checked x carries does (hkeeps x (.inr ⟨t, ht, ?_, carries⟩) allows)
      rw [hnext]
      rfl

theorem CodesSent.step (h : CodesSent w c) (hwell : SentWell c e) :
    CodesSent w ((codeSystem w).step c e) ∧ StoredAllowed w c e := by
  cases e with
  | exec i => exact h.exec hwell
  | spawn r =>
    refine ⟨⟨fun t ht => ?_, h.pending⟩, fun row hrow hnew => absurd hrow hnew⟩
    rcases List.mem_append.mp ht with ht | ht
    · exact h.calls t ht
    · rw [List.mem_singleton.mp ht]
      exact .spawn r _
  | env e =>
    cases e with
    | setClients clients =>
      refine ⟨⟨fun t ht => Called.setClients (c := c) ht (h.calls t ht) hwell,
        fun row hrow hpending => ?_⟩,
        fun row hrow hnew => absurd hrow hnew⟩
      exact hwell _ (.inl ⟨row, hrow, hpending, rfl⟩) (h.pending row hrow hpending)
    | rest s stays =>
      have hfewer : ∀ row ∈ (codeEnv (.rest s stays) c.state).web.db.oauthCodes,
        row ∈ c.state.web.db.oauthCodes :=
        fun row hrow => (List.mem_filter.mp hrow).1
      exact ⟨⟨h.calls, fun row hrow hpending => h.pending row (hfewer row hrow) hpending⟩,
        fun row hrow hnew => absurd (hfewer row hrow) hnew⟩

theorem CodesSent.start (db : Db) (now : Timestamp) (clients : Clients) :
    CodesSent w (.init (.start db now clients)) :=
  ⟨fun _ ht => (nomatch ht), fun _ hrow => (nomatch hrow)⟩

end Runs

/-- **Codes of registered clients.** In every run in which the unchecked requests store only what is
allowed, and no change of the clients takes a URI from a registration or a call that is under way,
every code that is stored goes where its client allows. -/
theorem codes_go_where_allowed (w : Web) (db : Db) (now : Timestamp) (clients : Clients)
    (es : List CodeEv)
    (h : Along (codeSystem w).step SentWell (.init (.start db now clients)) es) :
    Along (codeSystem w).step (StoredAllowed w) (.init (.start db now clients)) es :=
  along_of_invariant (fun _ _ hsent hwell => (hsent.step hwell).1)
    (fun _ _ hsent hwell => (hsent.step hwell).2)
    (CodesSent.start db now clients) h

/-- One client of one tenant, with one URI. -/
def oneClient : Clients := fun tenant clientId =>
  if tenant = 1 ∧ clientId = "app" then some ["https://app.example/callback"] else none

/-- Somebody registers through the app, which names the URI. -/
def registerWith (redirectUri : String) : List CodeEv :=
  [.spawn (.oauthRegister 1 true ⟨"key", "code", "device", "token"⟩
    { email := "a@example.com", password := "secret", clientId := "app", redirectUri }), .exec 0,
      .exec 0, .exec 0, .exec 0]

theorem codes_go_where_allowed_registration :
    Along (codeSystem (.symbolic [] [])).step (StoredAllowed (.symbolic [] []))
      (.init (.start {} 0 oneClient)) (registerWith "https://app.example/callback") := by
  have hallows : oneClient.Allows ⟨1, "app", "https://app.example/callback"⟩ := by
    intro patterns hpatterns
    cases hpatterns
    exact ⟨_, List.mem_singleton.mpr rfl, by decide⟩
  apply codes_go_where_allowed
  refine ⟨trivial, ?_, ?_, ?_, ?_, trivial⟩
  all_goals
    intro t l x ht _ _ hx
    cases ht
    cases hx
    exact hallows

/-- **It happens.** The registration is stored with a URI of somebody else. -/
theorem registration_goes_elsewhere :
    ¬ Along (codeSystem (.symbolic [] [])).step (StoredAllowed (.symbolic [] []))
      (.init (.start {} 0 oneClient)) (registerWith "https://evil.example/callback") := by
  intro h
  have hlast :=
    along_iff_split.mp h ((registerWith "https://evil.example/callback").take 4) (.exec 0) [] rfl
  have hin : ((run (codeSystem (.symbolic [] [])).step (.init (.start {} 0 oneClient))
      (registerWith "https://evil.example/callback")).state.web.db.oauthCodes.any
        fun row =>
          codeTarget row == ⟨1, "app", "https://evil.example/callback"⟩) = true := by decide
  have hbefore : (run (codeSystem (.symbolic [] [])).step (.init (.start {} 0 oneClient))
      ((registerWith "https://evil.example/callback").take 4)).state.web.db.oauthCodes =
        [] := by decide
  obtain ⟨row, hrow, htarget⟩ := List.any_eq_true.mp hin
  have hallowed := hlast row hrow (hbefore ▸ List.not_mem_nil)
  rw [beq_iff_eq.mp htarget] at hallowed
  obtain ⟨pattern, hpattern, hmatch⟩ := hallowed ["https://app.example/callback"] rfl
  rw [List.mem_singleton.mp hpattern] at hmatch
  exact absurd hmatch (by decide)

end Keycast.Http
