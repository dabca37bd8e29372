import Keycast.Http.SupportAccess
import Keycast.Http.SupportAdmins
import Keycast.Http.Tenancy

/-!
# `Http/ApiCalls.lean` — what can be called with a token

The endpoints that take a session token, or what a session token leads to, as calls of one system:
those of `oauth.rs`, `headless.rs` and `auth.rs` that turn a session into a code, a token or an
authorization; those of `teams.rs` and `admin.rs`, where any valid bearer token is a `UcanAuth`; and
`claim_post`, which answers with a session. `customer_tenant_guard` stands in front of most of them.

The rest of the API is one call, `others`. Such an endpoint may write what it likes to the tables
that are not named below. Of codes, refresh tokens and authorizations it may take rows away or mark
them, as a revocation does, and it makes no policy.

Whoever calls holds tokens, codes and refresh tokens. Each answer adds to them, and a call presents
only what is held.
-/

set_option autoImplicit false

namespace Keycast.Http

open Lib

/-! ## Who calls -/

/-- `UcanAuth::from_request_parts`, for a caller without a key: a `Nostr` header decides by itself,
and there is nobody to sign one. -/
def sessionAuth (w : Web) (now : Timestamp) (tenant : TenantId) (headers : Headers) :
    Option UcanAuth :=
  if (headers.authorization.bind id).any fun text => (stripPrefix "Nostr " text).isSome then none
  else (ucanToken headers).bind fun token => (tokenAuth w now tenant ("Bearer " ++ token)).toOption

/-! ## The API -/

inductive ApiCall
  | headlessAuthorize (tenant : TenantId) (headers : Headers) (code : String)
      (req : HeadlessAuthorizeRequest)
  | authorizeGet (tenant : TenantId) (headers : Headers) (redirectCheck : Except String Unit)
      (code : String) (params : AuthorizeRequest)
  | authorizePost (tenant : TenantId) (headers : Headers) (code : String) (req : ApproveRequest)
  | token (inst : InstanceId) (tenant : TenantId) (drawn : GrantDrawn) (req : TokenRequest)
  | createBunker (tenant : TenantId) (headers : Headers) (pair : Option SecretPair) (newId : RowId)
      (req : CreateBunkerRequest)
  | connectPost (tenant : TenantId) (headers : Headers) (handle : String) (newId : RowId)
      (form : ConnectApprovalForm)
  | deleteAccount (inst : InstanceId) (headers : Headers) (tenant : TenantId)
  | team (tenant : TenantId) (headers : Headers) (team : RowId) (call : TeamCall)
  | createTeam (tenant : TenantId) (headers : Headers) (listed : Bool)
      (team policy permission : RowId)
  | acceptInvitation (tenant : TenantId) (headers : Headers) (token : String)
  | grantSupport (tenant : TenantId) (headers : Headers) (listed : Bool) (team id : RowId)
      (pair : Option SecretPair) (req : GrantSupportAccessRequest)
  | adminToken (tenant : TenantId) (headers : Headers)
  | userToken (tenant : TenantId) (headers : Headers) (pubkey : String)
  | preloadUser (tenant : TenantId) (headers : Headers) (fresh : Keys) (req : PreloadUserRequest)
  | claimPost (tenant : TenantId) (form : ClaimForm)
  | work (work : Work)
  | others (db : Db)
  | tick (d : Nat)

/-- The tenant of a call to a route that `is_customer_route` does not list. Deletion has a route of
its own there, with the same handler. -/
def ApiCall.guardedTenant : ApiCall → Option TenantId
  | .headlessAuthorize tenant .. | .authorizeGet tenant .. | .authorizePost tenant ..
  | .token _ tenant .. | .createBunker tenant .. | .connectPost tenant .. | .team tenant ..
  | .createTeam tenant .. | .acceptInvitation tenant .. | .grantSupport tenant ..
  | .adminToken tenant .. | .userToken tenant .. | .preloadUser tenant .. | .claimPost tenant ..
  | .work (.revokeSession _ _ tenant _) => some tenant
  | .deleteAccount .. | .work (.rpc ..) | .others _ | .tick _ => none

/-- `customer_tenant_guard`. -/
def customerTenantGuard (w : Web) (call : ApiCall) : Bool :=
  !(call.guardedTenant.isSome && call.guardedTenant == w.customerTenant)

inductive Answer
  | page
  | code (code : String)
  | token (response : TokenResponse)
  /-- A token that comes without an authorization. -/
  | session (token : String)
  | bunker (response : BunkerResponse)
  | connected (id : RowId)
  | deleted (user : PublicKey)
  deriving DecidableEq, Repr

/-- The access token in an answer. -/
def Answer.accessToken : Answer → Option String
  | .token response => some response.accessToken
  | .session text => some text
  | _ => none

/-- The answer of a handler that succeeds. -/
def answer {ε α : Type} (p : Prog Stmt State ε α) (f : α → Answer) (s : State) :
    Option Answer × State :=
  ((p.run s).1.toOption.map f, (p.run s).2)

/-- A handler that takes a `UcanAuth`. -/
def withAuth (w : Web) (tenant : TenantId) (headers : Headers) (s : State)
    (f : UcanAuth → Option Answer × State) : Option Answer × State :=
  (sessionAuth w s.now tenant headers).elim (none, s) f

/-- The tables after an endpoint that adds none of the rows below made `after` of them. -/
def addingNothing (db after : Db) : Db :=
  { after with
    oauthCodes := after.oauthCodes.filter db.oauthCodes.contains
    refreshTokens := after.refreshTokens.filter fun t => db.refreshTokens.any fun t₀ =>
      t₀.tokenHash == t.tokenHash && t₀.authorizationId == t.authorizationId
    oauthAuthorizations := after.oauthAuthorizations.filter fun a =>
      db.oauthAuthorizations.any fun b =>
        b.id == a.id && b.policyId == a.policyId && b.userPubkey == a.userPubkey
    authorizations := after.authorizations.filter fun a =>
      db.authorizations.any fun b => b.id == a.id && b.policyId == a.policyId
    policies := db.policies
    permissions := db.permissions
    policyPermissions := db.policyPermissions }

def dispatchCall (w : Web) (s : State) : ApiCall → Option Answer × State
  | .headlessAuthorize tenant headers code req =>
    answer (headlessAuthorize w tenant headers code req) .code s
  | .authorizeGet tenant headers redirectCheck code params =>
    answer (authorizeGet w tenant headers redirectCheck code params) (·.elim .page .code) s
  | .authorizePost tenant headers code req =>
    answer (authorizePost w tenant headers code req) (·.elim .page .code) s
  | .token inst tenant drawn req => answer (token w inst tenant drawn req) .token s
  | .createBunker tenant headers pair newId req =>
    answer (createBunker w tenant headers pair newId req) .bunker s
  | .connectPost tenant headers handle newId form =>
    answer (connectPost w tenant headers handle newId form) (·.elim .page .connected) s
  | .deleteAccount inst headers tenant => answer (deleteAccount w inst headers tenant) .deleted s
  | .team tenant headers team call => withAuth w tenant headers s fun auth =>
    (some .page, serveTeam w tenant auth team s call)
  | .createTeam tenant headers listed team policy permission =>
    withAuth w tenant headers s fun auth =>
      answer (createTeam w tenant auth listed team policy permission) (fun _ => .page) s
  | .acceptInvitation tenant headers token => withAuth w tenant headers s fun auth =>
    answer (acceptInvitation w tenant auth token) (fun _ => .page) s
  | .grantSupport tenant headers listed team id pair req => withAuth w tenant headers s fun auth =>
    answer (grantTeamSupportAccess w tenant auth listed team id pair req) (fun _ => .page) s
  | .adminToken tenant headers => withAuth w tenant headers s fun auth =>
    ((adminTokenFor w s.now tenant auth).toOption.map (.session ·.2), s)
  | .userToken tenant headers pubkey => withAuth w tenant headers s fun auth =>
    answer (getUserToken w tenant auth pubkey) .session s
  | .preloadUser tenant headers fresh req => withAuth w tenant headers s fun auth =>
    answer (preloadUser w tenant auth fresh req) (.session ·.token) s
  | .claimPost tenant form => answer (claimPost w tenant form) (.session ·.2) s
  | .work work => answer (perform w work) (fun _ => .page) s
  | .others db => (none, s.withDb (addingNothing s.db db))
  | .tick d => (none, { s with now := s.now + d })

/-- A call with the guard in front. -/
def serve (w : Web) (call : ApiCall) (s : State) : Option Answer × State :=
  if customerTenantGuard w call then dispatchCall w s call else (none, s)

/-! ## The attacker -/

structure Held where
  tokens : List String
  codes : List String := []
  refreshTokens : List String := []
  deriving DecidableEq, Repr

/-- What an answer adds. -/
def Held.learn (held : Held) : Option Answer → Held
  | some (.code code) => { held with codes := code :: held.codes }
  | some (.token r) =>
    { held with
      tokens := r.accessToken :: held.tokens, refreshTokens :=
        r.refreshToken :: held.refreshTokens }
  | some (.session token) => { held with tokens := token :: held.tokens }
  | _ => held

/-- The headers carry no other token than one that is held. -/
def Held.headers (held : Held) (headers : Headers) : Prop :=
  (∀ text token, headers.authorization = some (some text) → stripBearer text = some token →
      token ∈ held.tokens) ∧
    ∀ token, extractUcanFromCookie headers = some token → token ∈ held.tokens

/-- A call the attacker can make. -/
def Presents (x : State × Held) : ApiCall → Prop
  | .headlessAuthorize _ headers .. | .authorizeGet _ headers .. | .authorizePost _ headers ..
  | .createBunker _ headers .. | .connectPost _ headers .. | .deleteAccount _ headers _
  | .team _ headers .. | .createTeam _ headers .. | .acceptInvitation _ headers _
  | .grantSupport _ headers .. | .adminToken _ headers | .userToken _ headers _
  | .preloadUser _ headers .. => x.2.headers headers
  | .token _ _ _ req =>
    (∀ code, req.code = some code → code ∈ x.2.codes) ∧
      ∀ token, req.refreshToken = some token → token ∈ x.2.refreshTokens
  | .claimPost .. | .work _ | .others _ | .tick _ => True

end Keycast.Http
