import Keycast.Http.Handler

/-!
# `Http/Token.lean` — bearer tokens and sessions

`api/src/ucan_auth/validation.rs` and the extraction functions of `api/src/api/http/auth.rs`. A
request proves who sends it with a UCAN, in the `Authorization` header or in the session cookie.
Nothing here reads the database: a token is judged by its signature, its clock and its facts alone.
-/

set_option autoImplicit false

namespace Keycast.Http

/-- A decoded token. The two DIDs are given as the public keys `did_to_nostr_pubkey` reads off
them; `exp` is in seconds. -/
structure Ucan where
  issuer : Option PublicKey
  audience : Option PublicKey
  exp : Option Int
  facts : List Json

/-- The parts of a parsed URL that are looked at. -/
structure Url where
  scheme : String
  host : Option String
  port : Option Nat
  deriving DecidableEq, Repr

/-- What the web server uses beside `External`: the UCAN library, BLAKE3, hex, bcrypt, URLs, the KMS
for writing, and its own configuration. -/
structure Web extends External where
  /-- `Ucan::try_from_token_string`. -/
  decodeToken : String → Option Ucan
  /-- `Ucan::check_signature`. -/
  checkSignature : String → Bool
  /-- `UcanBuilder`, with the keys that issue, the audience, the expiry in seconds and the facts;
  then `sign` and `encode`. -/
  signUcan : SecretKey → PublicKey → Int → Json → Except String String
  /-- BLAKE3 of the tenant id and the token. -/
  blake3 : TenantId → String → CacheKey
  /-- `parse_cache_key`. -/
  parseCacheKey : String → Except String CacheKey
  /-- `serde_json::to_value` of a signed event given by its JSON text. -/
  eventValue : String → Json
  /-- `Keys::parse`. -/
  keysParse : String → Except String Keys
  /-- `SecretKey::from_hex`. -/
  secretKeyFromHex : String → Except String Keys
  toSecretBytes : SecretKey → Bytes
  /-- `KeyManager::encrypt`. -/
  kmsEncrypt : Bytes → Except String Bytes
  bcryptHash : String → Except String String
  /-- `bcrypt::verify(password, hash)`. -/
  bcryptVerify : String → String → Except String Bool
  /-- `str::to_lowercase`. -/
  toLowercase : String → String
  /-- `Url::parse`. -/
  urlParse : String → Option Url
  /-- Both are URLs, with the same `origin()`. -/
  sameOrigin : String → String → Bool
  urlEncode : String → String
  /-- SHA-256 in hex. -/
  sha256 : String → String
  /-- Base64url of the bytes such a hex text stands for. -/
  base64Url : String → String
  /-- `SERVER_NSEC`, `ALLOWED_PUBKEYS`, `APP_URL` and `TOKEN_EXPIRY_SECONDS`, and the tenant of
  `CUSTOMER_TENANT_DOMAIN`. -/
  serverNsec : Option String
  allowedPubkeys : Option String
  appUrl : Option String
  tokenExpirySeconds : Nat
  customerTenant : Option TenantId

/-- Symbolic libraries for concrete runs: a token is its name, and is given with its content. -/
def Web.symbolic (tokens : List (String × Ucan)) (texts : List (String × Json)) : Web where
  toExternal := .symbolic [] texts
  decodeToken t := tokens.lookup t
  checkSignature _ := true
  signUcan _ audience _ facts := .ok ("ucan of " ++ audience ++ " for " ++
    ((facts.field "bunker_pubkey").asStr.getD "no bunker") ++ " from " ++
    ((facts.field "redirect_origin").asStr.getD "nowhere"))
  blake3 tenant token := toString tenant ++ ":" ++ token
  parseCacheKey s := .ok s
  eventValue := .str
  keysParse s := .ok s
  secretKeyFromHex s := .ok s
  toSecretBytes sk := sk
  kmsEncrypt b := .ok b
  bcryptHash s := .ok ("bcrypt:" ++ s)
  bcryptVerify s hash := .ok (hash == "bcrypt:" ++ s)
  toLowercase s := s
  urlParse s := some ⟨"https", some s, none⟩
  sameOrigin a b := a == b
  urlEncode s := s
  sha256 s := "sha256:" ++ s
  base64Url s := s
  serverNsec := some "server"
  allowedPubkeys := none
  appUrl := none
  tokenExpirySeconds := 86400
  customerTenant := none

namespace Web

/-- `get_server_keys`, which three modules of the API define in the same way. -/
def getServerKeys (w : Web) : Except String Keys :=
  match w.serverNsec with
  | none => .error "SERVER_NSEC not configured"
  | some nsec => (w.keysParse nsec).mapError ("Invalid SERVER_NSEC: " ++ ·)

/-- `server_pubkey`, less its error. -/
def serverPubkey (w : Web) : Option PublicKey := w.getServerKeys.toOption.map w.publicKey

end Web

/-- `str::strip_prefix`. -/
def stripPrefix (pre s : String) : Option String :=
  if pre.toList.isPrefixOf s.toList then some (String.ofList (s.toList.drop pre.toList.length))
  else none

def stripBearer (header : String) : Option String := stripPrefix "Bearer " header

theorem stripBearer_append (token : String) : stripBearer ("Bearer " ++ token) = some token := by
  unfold stripBearer stripPrefix
  simp

namespace Ucan

/-- `Ucan::is_expired`, on the clock in whole seconds. -/
def isExpired (now : Timestamp) (u : Ucan) : Bool :=
  match u.exp with
  | some exp => decide (exp < now / 1000000)
  | none => false

/-- `facts.iter().find_map(|fact| fact.get(name).and_then(read))`. -/
def fact {α : Type} (u : Ucan) (name : String) (read : Json → Option α) : Option α :=
  u.facts.findSome? fun f => read (f.field name)

end Ucan

/-- The tenant check of `validate_ucan_token`; tenant 0 stands for "any". -/
def checkTenant (ucan : Ucan) (tenant : TenantId) : Except String Unit :=
  if tenant = 0 then .ok ()
  else
    match ucan.fact "tenant_id" Json.asI64 with
    | some t => if t = tenant then .ok () else .error "Tenant mismatch"
    | none => .error "UCAN missing tenant_id fact"

/-- `validate_ucan_token`: the user, the app's origin, the bunker key if the token is bound to one,
and the token. -/
def validateUcanToken (w : Web) (now : Timestamp) (authHeader : String) (tenant : TenantId) :
    Except String (PublicKey × String × Option PublicKey × Ucan) := do
  let token ← (stripBearer authHeader).elim (.error "Invalid Authorization header format") .ok
  let ucan ← (w.decodeToken token).elim (.error "invalid token") .ok
  if !w.checkSignature token then .error "UCAN signature verification failed"
  else if ucan.isExpired now then .error "Token expired"
  else
    let origin ← (ucan.fact "redirect_origin" Json.asStr).elim
      (.error "UCAN missing required redirect_origin fact") .ok
    let bunker := ucan.fact "bunker_pubkey" Json.asStr
    checkTenant ucan tenant
    let user ← ucan.audience.elim (.error "invalid audience") .ok
    let issuer ← ucan.issuer.elim (.error "invalid issuer") .ok
    if issuer = user then .ok (user, origin, bunker, ucan)
    else
      let server ← w.serverPubkey.elim (.error "SERVER_NSEC must be set and valid") .ok
      if issuer = server then .ok (user, origin, bunker, ucan)
      else .error "Invalid UCAN issuer"

/-! A chain of `?` that succeeded, one link at a time. -/

theorem bind_eq_ok {ε α β : Type} {x : Except ε α} {f : α → Except ε β} {b : β} :
    (x >>= f) = .ok b ↔ ∃ a, x = .ok a ∧ f a = .ok b := by
  cases x <;> simp [bind, Except.bind]

theorem elim_eq_ok {ε α : Type} {o : Option α} {e : ε} {a : α} :
    o.elim (Except.error e) Except.ok = Except.ok a ↔ o = some a := by
  cases o <;> simp

theorem mapError_eq_ok {ε ε' α : Type} {x : Except ε α} {f : ε → ε'} {a : α} :
    x.mapError f = .ok a ↔ x = .ok a := by
  cases x with
  | error e => simp [Except.mapError]
  | ok b => simp [Except.mapError]

theorem toOption_eq_some {ε α : Type} {y : Except ε α} {a : α} : y.toOption = some a ↔
    y = .ok a := by
  cases y <;> simp [Except.toOption]

theorem mapError_eq_error {ε ε' α : Type} {x : Except ε α} {f : ε → ε'} {e : ε'}
    (h : x.mapError f = .error e) :
    ∃ e', x = .error e' ∧ e = f e' := by
  cases x with
  | error e' => exact ⟨e', rfl, (Except.error.inj h).symm⟩
  | ok b => cases h

/-- A conversion of a whole list that succeeds at every element. -/
theorem mapM_eq_ok {ε α β : Type} {f : α → Except ε β} {xs : List α} {ys : List β} :
    xs.mapM f = .ok ys ↔ (∀ x ∈ xs, ∃ y, f x = .ok y) ∧
      ys = xs.filterMap fun x => (f x).toOption := by
  induction xs generalizing ys with
  | nil =>
    rw [List.mapM_nil]
    exact ⟨fun h => ⟨fun x hx => absurd hx List.not_mem_nil, (Except.ok.inj h).symm⟩,
      fun h => by rw [h.2]; rfl⟩
  | cons x xs ih =>
    rw [List.mapM_cons, bind_eq_ok, List.forall_mem_cons]
    constructor
    · rintro ⟨y, hy, h⟩
      obtain ⟨zs, hzs, h⟩ := bind_eq_ok.mp h
      obtain ⟨hall, rfl⟩ := ih.mp hzs
      refine ⟨⟨⟨y, hy⟩, hall⟩, ?_⟩
      rw [List.filterMap_cons, hy]
      exact (Except.ok.inj h).symm
    · rintro ⟨⟨⟨y, hy⟩, hall⟩, rfl⟩
      refine ⟨y, hy, bind_eq_ok.mpr ⟨_, ih.mpr ⟨hall, rfl⟩, ?_⟩⟩
      rw [List.filterMap_cons, hy]
      rfl

/-- A token that passes the checks of `validate_ucan_token`. -/
structure Ucan.Accepted (w : Web) (now : Timestamp) (tenant : TenantId)
    (token : String) (ucan : Ucan)
    (user : PublicKey) : Prop where
  decoded : w.decodeToken token = some ucan
  signature : w.checkSignature token = true
  fresh : ucan.isExpired now = false
  tenant : checkTenant ucan tenant = .ok ()
  audience : ucan.audience = some user
  issuer : ucan.issuer = some user ∨ ∃ server, w.serverPubkey = some server ∧
    ucan.issuer = some server

/-- What a validated token went through, and what is read from it. -/
theorem validateUcanToken_accepted {w : Web} {now : Timestamp} {authHeader : String}
    {tenant : TenantId}
    {user : PublicKey} {origin : String} {bunker : Option PublicKey} {ucan : Ucan}
    (h : validateUcanToken w now authHeader tenant = .ok (user, origin, bunker, ucan)) :
    (∃ token, stripBearer authHeader = some token ∧ ucan.Accepted w now tenant token user) ∧
      bunker = ucan.fact "bunker_pubkey" Json.asStr := by
  obtain ⟨token, htok, h⟩ := bind_eq_ok.mp h
  obtain ⟨u, hdec, h⟩ := bind_eq_ok.mp h
  rw [elim_eq_ok] at htok hdec
  split at h
  · cases h
  next hsignature =>
  split at h
  · cases h
  next hfresh =>
  obtain ⟨origin', -, h⟩ := bind_eq_ok.mp h
  obtain ⟨⟨⟩, htenant, h⟩ := bind_eq_ok.mp h
  obtain ⟨user', huser, h⟩ := bind_eq_ok.mp h
  obtain ⟨issuer, hissuer, h⟩ := bind_eq_ok.mp h
  rw [elim_eq_ok] at huser hissuer
  -- both ways to end return the same tuple
  have hend : (user', origin', u.fact "bunker_pubkey" Json.asStr, u) =
    (user, origin, bunker, ucan) ∧
      (issuer = user' ∨ w.serverPubkey = some issuer) := by
    split at h
    · next hself => exact ⟨Except.ok.inj h, .inl hself⟩
    · obtain ⟨server, hserver, h⟩ := bind_eq_ok.mp h
      rw [elim_eq_ok] at hserver
      split at h
      · next heq => exact ⟨Except.ok.inj h, .inr (heq ▸ hserver)⟩
      · cases h
  obtain ⟨hend, hside⟩ := hend
  cases hend
  refine ⟨⟨token, htok, hdec, by simpa using hsignature, by simpa using hfresh, htenant, huser, ?_⟩,
    rfl⟩
  rcases hside with rfl | hserver
  · exact .inl hissuer
  · exact .inr ⟨issuer, hserver, hissuer⟩

/-- What a validated token says, and where it says it. -/
theorem validateUcanToken_ok {w : Web} {now : Timestamp} {authHeader : String} {tenant : TenantId}
    {user : PublicKey} {origin : String} {bunker : Option PublicKey} {ucan : Ucan}
    (h : validateUcanToken w now authHeader tenant = .ok (user, origin, bunker, ucan)) :
    (stripBearer authHeader).bind w.decodeToken = some ucan ∧ ucan.audience = some user ∧
      bunker = ucan.fact "bunker_pubkey" Json.asStr := by
  obtain ⟨⟨token, htok, haccepted⟩, hbunker⟩ := validateUcanToken_accepted h
  exact ⟨by rw [htok, Option.bind_some, haccepted.decoded], haccepted.audience, hbunker⟩

/-- `is_server_signed`. -/
def isServerSigned (w : Web) (ucan : Ucan) : Bool :=
  match ucan.issuer, w.serverPubkey with
  | some issuer, some server => issuer == server
  | _, _ => false

/-! ## Tokens the server issues -/

/-- `generate_server_signed_ucan_with_lifetime`; the error is the text of an `Internal` one. -/
def generateServerSignedUcan (w : Web) (now : Timestamp) (user : PublicKey) (tenant : TenantId)
    (email redirectOrigin : String) (bunker : Option PublicKey) (serverKeys : Keys)
    (isFirstParty : Bool) (adminRole : Option String) (lifetime : Nat) : Except String String :=
  let facts := [("tenant_id", Json.int tenant), ("email", .str email),
      ("redirect_origin", .str redirectOrigin)] ++
    (bunker.map fun b => ("bunker_pubkey", Json.str b)).toList ++
    (if isFirstParty then [("first_party", Json.bool true)] else []) ++
    (adminRole.map fun r => ("admin_role", Json.str r)).toList
  w.signUcan serverKeys user (now / 1000000 + lifetime) (.obj facts)

/-- `generate_ucan_token`, the session a user's own key signs; no caller here passes relays. -/
def generateUcanToken (w : Web) (now : Timestamp) (userKeys : Keys) (tenant : TenantId)
    (email redirectOrigin : String) : Except String String :=
  w.signUcan userKeys (w.publicKey userKeys) (now / 1000000 + w.tokenExpirySeconds)
    (.obj [("tenant_id", .int tenant), ("email", .str email),
      ("redirect_origin", .str redirectOrigin)])

/-- `PRELOAD_TOKEN_EXPIRY_DAYS`. -/
def preloadTokenExpiryDays : Int := 30

/-- `generate_preload_ucan`: no `bunker_pubkey`, which is what the RPC endpoint goes by. -/
def generatePreloadUcan (w : Web) (now : Timestamp) (user : PublicKey) (tenant : TenantId)
    (serverKeys : Keys) (admin : PublicKey) : Except String String :=
  w.signUcan serverKeys user (now / 1000000 + preloadTokenExpiryDays * 24 * 3600)
    (.obj [("tenant_id", .int tenant), ("redirect_origin", .str "preload"),
      ("issued_by_admin", .str admin)])

/-! ## Who sends a request -/

/-- The variants of `AuthError` the modelled endpoints use, and one for a panic, which stops the
process. -/
inductive AuthError
  | panicked
  | missingToken
  | invalidToken
  | invalidCredentials
  | userNotFound
  | duplicateKey
  | passwordHash (message : String)
  | emailAlreadyExists
  | encryption (message : String)
  | database (message : String)
  | badRequest (message : String)
  | forbidden (message : String)
  | tooManyRequests
  | registrationExpired
  | serviceUnavailable (message : String) (retryAfter : Option Nat)
  | internal (message : String)
  deriving DecidableEq, Repr

/-- A header's value; `none` is one that is not text. -/
abbrev HeaderValue := Option String

structure Headers where
  authorization : Option HeaderValue := none
  cookie : Option HeaderValue := none
  origin : Option HeaderValue := none
  deriving DecidableEq, Repr

/-- `split(sep)` and `trim` on each part, as lists of characters. -/
def splitTrim (sep : Char) (s : String) : List (List Char) :=
  (s.toList.splitOn sep).map fun part =>
    ((part.dropWhile Char.isWhitespace).reverse.dropWhile Char.isWhitespace).reverse

/-- `extract_ucan_from_cookie`. -/
def extractUcanFromCookie (headers : Headers) : Option String := do
  let header ← headers.cookie
  let text ← header
  (splitTrim ';' text).findSome? fun part => stripPrefix "keycast_session=" (String.ofList part)

/-- `extract_user_and_origin_from_token`: the bearer token if there is one, else the cookie. -/
def extractUserAndOriginFromToken (w : Web) (now : Timestamp) (headers : Headers)
    (tenant : TenantId) : Except AuthError (PublicKey × String × Option PublicKey) :=
  let cookie : Except AuthError (PublicKey × String × Option PublicKey) :=
    match extractUcanFromCookie headers with
    | some token =>
      match validateUcanToken w now ("Bearer " ++ token) tenant with
      | .ok (user, origin, bunker, _) => .ok (user, origin, bunker)
      | .error _ => .error .invalidToken
    | none => .error .missingToken
  match headers.authorization with
  | some none => .error .invalidToken
  | some (some text) =>
    if (stripBearer text).isSome then
      match validateUcanToken w now text tenant with
      | .ok (user, origin, bunker, _) => .ok (user, origin, bunker)
      | .error _ => .error .invalidToken
    else cookie
  | none => cookie

/-- `UcanAuth`, as its extractor leaves it. -/
structure UcanAuth where
  pubkey : PublicKey
  adminRole : Option String
  deriving DecidableEq, Repr

/-- `is_full_admin`. -/
def isFullAdmin (w : Web) (auth : UcanAuth) : Bool :=
  auth.adminRole == some "full" ||
    match w.allowedPubkeys with
    | some allowed => !allowed.isEmpty && (splitTrim ',' allowed).contains auth.pubkey.toList
    | none => false

/-- `extract_user_from_token`. -/
def extractUserFromToken (w : Web) (now : Timestamp) (headers : Headers) (tenant : TenantId) :
    Except AuthError PublicKey :=
  (extractUserAndOriginFromToken w now headers tenant).map (·.1)

end Keycast.Http
