import Keycast.Atproto.Session
import Keycast.Http.Token
import Keycast.Lib.Interleave

/-!
# `Atproto/OAuth.lean` — `par`, `authorize` and `token`

The three endpoints of `api/http/atproto_oauth.rs`, statement by statement. The checks on proofs and
client assertions (`validate_dpop_proof`, `validate_par_client_binding`,
`enforce_session_client_binding`) parse and verify JWTs, remember the ones they have seen and fetch
metadata over the network; how they turn out for a request is part of the request here, so nothing
is assumed of them. So are the values a request draws at random. An instant that the handler
computes before it sends a statement is read before it; the calls of `Utc::now` for one statement
are one reading.
-/

set_option autoImplicit false

namespace Keycast.Atproto

open Lib Http

inductive Stmt
  | clock
  | createPar
  | findByRequestUri
  | readyIdentity
  | approveRequest (uri : String) (did : Did)
  | storeAuthorizationCode (uri code : String) (expiresAt : Timestamp)
  | findByCode
  | consumeAuthorizationCode (code : String)
  | storeTokenArtifacts (uri : String) (tokens : IssueTokens)
  | findByRefreshHash
  | rotateRefreshToken (uri previous : String) (tokens : IssueTokens)
  | revokeSession (uri : String)
  | revokeRefreshSession (hash : String)
  deriving DecidableEq, Repr

abbrev AtprotoM := Prog Stmt State AuthError

/-- What the endpoints use beside `Web`. -/
structure Provider extends Web where
  /-- Base64url of the SHA-256 of the verifier. -/
  pkceChallenge : String → String
  hashRefreshToken : String → String
  /-- `create_access_token`: the subject, the token id and the thumbprint of the proof key. -/
  createAccessToken : Did → String → String → Except AuthError String
  /-- The redirect URI with code, state and issuer appended. -/
  redirectUrl : String → String → Option String → Except String String

def parExpiryMinutes : Int := 10
def authCodeExpiryMinutes : Int := 5
def accessTokenExpiryMinutes : Int := 15
def refreshTokenExpiryDays : Int := 30

def minutes (n : Int) : Int := seconds (n * 60)

/-! ## Requests -/

inductive ClientAuthBinding
  | none
  | privateKeyJwt (alg : String) (kid : Option String) (jkt : String)

structure ParRequest where
  clientId : String
  redirectUri : String
  scope : String
  state : Option String := .none
  codeChallenge : Option String := .none
  codeChallengeMethod : Option String := .none
  proof : Except AuthError String
  clientBinding : Except AuthError ClientAuthBinding
  tenant : Except AuthError TenantId
  requestId : String
  nonce : String

structure TokenRequest where
  grantType : String
  code : Option String := none
  clientId : Option String := none
  redirectUri : Option String := none
  codeVerifier : Option String := none
  refreshToken : Option String := none
  /-- The proof's key, given the nonce it has to carry. -/
  proof : String → Except AuthError String
  clientAuth : Session → Except AuthError Unit
  jti : String
  newRefreshToken : String
  nonce : String

inductive Request
  | par (req : ParRequest)
  | authorize (headers : Headers) (uri code : String)
  | token (req : TokenRequest)

structure TokenResponse where
  accessToken : String
  expiresIn : Int
  refreshToken : String
  scope : String
  sub : Did
  nonce : String
  deriving DecidableEq, Repr

/-- What a request returns. A redirect to the client comes with the code in it, and here also with
the DID that was approved. -/
inductive Response
  | par (uri : String) (expiresIn : Int) (nonce : String)
  | login
  | redirect (did : Did) (code url : String)
  | token (response : TokenResponse)
  deriving DecidableEq, Repr

/-! ## The endpoints -/

/-- A statement that a constraint may refuse; repositories report that as `Duplicate`. -/
def unique {β : Type} (l : Stmt) (f : State → Option (β × State)) : AtprotoM β := do
  let result ← .stmt l fun s =>
    match f s with
    | some (b, s') => (some b, s')
    | none => (none, s)
  .orErr result .emailAlreadyExists

/-- The row `par` inserts. -/
def ParRequest.session (req : ParRequest) (uri jkt : String) (binding : ClientAuthBinding)
    (tenant : TenantId) (now : Timestamp) : Session :=
  let (method, alg, kid, clientJkt) : String × Option String × Option String × Option String :=
    match binding with
    | .none => ("none", .none, .none, .none)
    | .privateKeyJwt alg kid jkt => ("private_key_jwt", some alg, kid, some jkt)
  { tenantId := tenant, clientId := req.clientId, redirectUri := req.redirectUri,
    scope := req.scope, state := req.state, codeChallenge := req.codeChallenge,
    codeChallengeMethod := req.codeChallengeMethod, requestUri := uri,
    parExpiresAt := now + minutes parExpiryMinutes, dpopJkt := some jkt,
    dpopNonce := some req.nonce, clientAuthMethod := method, clientAuthAlg := alg,
    clientAuthKid := kid, clientAuthJkt := clientJkt }

def par (req : ParRequest) : AtprotoM Response := do
  if trimmed req.scope ≠ "atproto".toList then
    .err (.badRequest "ATProto PAR requests must request the atproto scope")
  else
    let jkt ← .ofExcept req.proof
    let binding ← .ofExcept req.clientBinding
    let uri := "urn:ietf:params:oauth:request_uri:" ++ req.requestId
    let tenant ← .ofExcept req.tenant
    unique .createPar fun s =>
      (s.createPar (req.session uri jkt binding tenant s.now)).map (((), ·))
    return .par uri (parExpiryMinutes * 60) req.nonce

/-- The session's user, or `none` where the browser is sent to the login page. -/
def authorizeUser (o : Provider) (now : Timestamp) (headers : Headers) (tenant : TenantId) :
    Except AuthError (Option PublicKey) :=
  match extractUserFromToken o.toWeb now headers tenant with
  | .ok user => .ok (some user)
  | .error .missingToken => .ok none
  | .error .invalidToken => .ok none
  | .error e => .error e

/-- The part of `authorize` that follows once the user is known to be ready. -/
def approve (o : Provider) (session : Session) (uri code : String) (user : PublicKey) (did : Did) :
    AtprotoM Response := do
  let approved ← .stmt (.approveRequest uri did) fun s => s.approveRequest uri user did
  let _ ← .orErr approved (.badRequest "Unknown or revoked request_uri")
  let now ← .read .clock (·.now)
  let expiresAt := now + minutes authCodeExpiryMinutes
  let stored ← unique (.storeAuthorizationCode uri code expiresAt)
    (·.storeAuthorizationCode uri code expiresAt)
  let _ ← .orErr stored (.badRequest "Unknown or revoked request_uri")
  let url ← .ofExcept ((o.redirectUrl session.redirectUri code session.state).mapError fun e =>
    .badRequest ("Invalid redirect_uri: " ++ e))
  return .redirect did code url

def authorize (o : Provider) (headers : Headers) (uri code : String) : AtprotoM Response := do
  let session ← .read .findByRequestUri (·.findByRequestUri uri)
  let session ← .orErr session (.badRequest "Unknown request_uri")
  let now ← .read .clock (·.now)
  if session.parExpiresAt ≤ now then .err (.badRequest "Expired request_uri")
  else
    match ← .ofExcept (authorizeUser o now headers session.tenantId) with
    | none => return .login
    | some user =>
      let did ← .read .readyIdentity (·.readyIdentity session.tenantId user)
      let did ← .orErr did
        (.forbidden "ATProto account link must be ready before approving external app login")
      approve o session uri code user did

/-- The proof of a token request against the session's nonce and key; the two grants differ in their
messages. -/
def checkProof (req : TokenRequest) (session : Session) (noNonce notBound : String) :
    Except AuthError String := do
  let nonce ← session.dpopNonce.elim (.error (.badRequest noNonce)) .ok
  let jkt ← req.proof nonce
  let expected ← session.dpopJkt.elim (.error (.badRequest notBound)) .ok
  if jkt = expected then .ok jkt
  else .error (.badRequest "DPoP proof key does not match the session binding")

def checkPkce (o : Provider) (session : Session) (verifier : String) : Except AuthError Unit :=
  if session.codeChallengeMethod ≠ some "S256" then
    .error (.badRequest "ATProto OAuth requires S256 PKCE")
  else if session.codeChallenge ≠ some (o.pkceChallenge verifier) then
    .error (.badRequest "Invalid PKCE verifier")
  else .ok ()

def TokenRequest.response (req : TokenRequest) (accessToken : String) (sub : Did) : Response :=
  .token
    { accessToken, expiresIn := accessTokenExpiryMinutes * 60, refreshToken := req.newRefreshToken,
      scope := "atproto", sub, nonce := req.nonce }

/-- The values both grants write. -/
def TokenRequest.issue (o : Provider) (req : TokenRequest) (code : String)
    (codeExpiresAt : Timestamp)
    (jkt : String) (now : Timestamp) : IssueTokens where
  authorizationCode := code
  authorizationCodeExpiresAt := codeExpiresAt
  accessTokenJti := req.jti
  accessTokenExpiresAt := now + minutes accessTokenExpiryMinutes
  refreshTokenHash := o.hashRefreshToken req.newRefreshToken
  refreshTokenExpiresAt := now + hours (refreshTokenExpiryDays * 24)
  dpopJkt := some jkt
  dpopNonce := some req.nonce

/-- `token` with `grant_type=authorization_code`. -/
def exchangeCode (o : Provider) (req : TokenRequest) : AtprotoM Response := do
  let code ← .orErr req.code (.badRequest "Missing authorization code")
  let clientId ← .orErr req.clientId (.badRequest "Missing client_id")
  let redirectUri ← .orErr req.redirectUri (.badRequest "Missing redirect_uri")
  let verifier ← .orErr req.codeVerifier (.badRequest "Missing code_verifier")
  let session ← .read .findByCode (·.findByCode code)
  let session ← .orErr session (.badRequest "Unknown or expired authorization code")
  if session.clientId ≠ clientId || session.redirectUri ≠ redirectUri then
    .err (.badRequest "Authorization code client binding mismatch")
  else
    match req.clientAuth session with
    | .error e => do
      .write (.revokeSession session.requestUri) (·.revokeSession session.requestUri)
      .err e
    | .ok () =>
      .ofExcept (checkPkce o session verifier)
      let jkt ← .ofExcept (checkProof req session "Missing DPoP nonce for authorization code"
        "Authorization code session is not DPoP-bound")
      let consumed ← .stmt (.consumeAuthorizationCode code) (·.consumeAuthorizationCode code)
      let _ ← .orErr consumed (.badRequest "Unknown or expired authorization code")
      let sub ← .orErr session.atprotoDid
        (.badRequest "Authorization code is not bound to a ready ATProto DID")
      let accessToken ← .ofExcept (o.createAccessToken sub req.jti jkt)
      let now ← .read .clock (·.now)
      let tokens := req.issue o code now jkt now
      let _ ← unique (.storeTokenArtifacts session.requestUri tokens)
        (·.storeTokenArtifacts session.requestUri tokens)
      return req.response accessToken sub

/-- `token` with `grant_type=refresh_token`. -/
def refreshTokens (o : Provider) (req : TokenRequest) : AtprotoM Response := do
  let refreshToken ← .orErr req.refreshToken (.badRequest "Missing refresh_token")
  let clientId ← .orErr req.clientId (.badRequest "Missing client_id")
  let hash := o.hashRefreshToken refreshToken
  let session ← .read .findByRefreshHash (·.findByRefreshHash hash)
  let session ← .orErr session (.badRequest "Invalid or expired refresh token")
  if session.clientId ≠ clientId then .err (.badRequest "Refresh token client binding mismatch")
  else
    match req.clientAuth session with
    | .error e => do
      .write (.revokeRefreshSession hash) (·.revokeRefreshSession hash)
      .err e
    | .ok () =>
      let jkt ← .ofExcept (checkProof req session "Missing DPoP nonce for refresh token"
        "Refresh token session is not DPoP-bound")
      let sub ← .orErr session.atprotoDid
        (.badRequest "Refresh token is not bound to a ready ATProto DID")
      let accessToken ← .ofExcept (o.createAccessToken sub req.jti jkt)
      let now ← .read .clock (·.now)
      let tokens := req.issue o (session.authorizationCode.getD "")
        (session.authorizationCodeExpiresAt.getD now) jkt now
      let rotated ← unique (.rotateRefreshToken session.requestUri hash tokens)
        (·.rotateRefreshToken session.requestUri hash tokens)
      let _ ← .orErr rotated (.badRequest "Invalid or expired refresh token")
      return req.response accessToken sub

def token (o : Provider) (req : TokenRequest) : AtprotoM Response :=
  if req.grantType = "authorization_code" then exchangeCode o req
  else if req.grantType = "refresh_token" then refreshTokens o req
  else .err (.badRequest
    "Only authorization_code and refresh_token are supported for ATProto token exchange")

def handle (o : Provider) : Request → AtprotoM Response
  | .par req => par req
  | .authorize headers uri code => authorize o headers uri code
  | .token req => token o req

/-! ## Everything else that touches the tables -/

inductive EnvEvent
  | tick (d : Nat)
  | setIdentities (identities : List Identity)
  | revokeSessionsForUser (tenant : TenantId) (user : PublicKey)
  | revokeSession (uri : String)

def envStep : EnvEvent → State → State
  | .tick d, s => { s with now := s.now + d }
  | .setIdentities identities, s => { s with identities }
  | .revokeSessionsForUser tenant user, s => s.revokeSessionsForUser tenant user
  | .revokeSession uri, s => s.revokeSession uri

/-- The provider serving requests of the set `reqs`, as many of each and in whatever order. -/
def system (o : Provider) (reqs : Request → Prop) :
    System { r : Request // reqs r } Stmt State AuthError Response EnvEvent where
  prog r := handle o r.1
  env := envStep

end Keycast.Atproto
