import Keycast.Http.Token
import Keycast.Lib.Cache

/-!
# `Http/Nip98.lean` — NIP-98 envelopes

`api/src/nip98.rs`, and the two places that accept a signed kind-27235 event in the `Authorization`
header: the extractor of `UcanAuth` (`nip98_extractor.rs`), which every protected route uses, and
the admin login (`nostr_auth_login` of `auth.rs`). The extractor records the event's id in Redis;
the login does not.

A request has one instant, in microseconds. The validator looks at it in whole seconds, Redis as it
is.
-/

set_option autoImplicit false

namespace Keycast.Http

open Lib

/-- A signed event, as far as it is looked at. `created_at` is a `u64`. -/
structure SignedEvent where
  id : String
  pubkey : PublicKey
  createdAt : Nat
  kind : Nat
  tags : List Tag
  deriving DecidableEq, Repr

/-- `as i64`. -/
def SignedEvent.time (e : SignedEvent) : Int :=
  if e.createdAt % 2 ^ 64 < 2 ^ 63 then e.createdAt % 2 ^ 64 else e.createdAt % 2 ^ 64 - 2 ^ 64

/-- What the two paths use beside `Web`. -/
structure Nip98 extends Web where
  /-- `BASE64_STANDARD.decode`. -/
  base64Decode : String → Except String (List UInt8)
  /-- Whether `String::from_utf8` takes the bytes. -/
  checkUtf8 : List UInt8 → Except String Unit
  /-- `Event::from_json`. -/
  eventFromJson : List UInt8 → Except String SignedEvent
  /-- `Event::verify`. -/
  verifyEvent : SignedEvent → Bool

/-! ## The validator -/

inductive Nip98Error
  | invalidHeaderFormat
  | base64DecodeError (e : String)
  | jsonParseError (e : String)
  | invalidKind (k : Nat)
  | invalidSignature
  | eventExpired
  | urlMismatch (expected actual : String)
  | methodMismatch (expected actual : String)
  | missingTag (tag : String)
  deriving DecidableEq, Repr

/-- `Display`. -/
def Nip98Error.text : Nip98Error → String
  | .invalidHeaderFormat => "Authorization header must start with 'Nostr '"
  | .base64DecodeError e => "Base64 decode error: " ++ e
  | .jsonParseError e => "JSON parse error: " ++ e
  | .invalidKind k => "Invalid event kind: " ++ toString k ++ " (expected 27235)"
  | .invalidSignature => "Invalid Schnorr signature"
  | .eventExpired => "Event expired (created_at must be within 60 seconds)"
  | .urlMismatch expected actual =>
    "URL mismatch: expected '" ++ expected ++ "', got '" ++ actual ++ "'"
  | .methodMismatch expected actual =>
    "Method mismatch: expected '" ++ expected ++ "', got '" ++ actual ++ "'"
  | .missingTag tag => "Missing required tag: '" ++ tag ++ "'"

def maxEventAgeSeconds : Int := 60

/-- `strip_prefix("Nostr ")` and `trim`. The text of a header has no white space but blanks and
tabs. -/
def stripNostr (header : String) : Option String :=
  (stripPrefix "Nostr " header).map fun s =>
    String.ofList
      ((s.toList.dropWhile Char.isWhitespace).reverse.dropWhile Char.isWhitespace).reverse

/-- Steps 1 and 2 of `extract_and_validate`: the event in the header. -/
def readEvent (o : Nip98) (authHeader : String) : Except Nip98Error SignedEvent := do
  let base64 ← (stripNostr authHeader).elim (.error .invalidHeaderFormat) .ok
  let json ← (o.base64Decode base64).mapError .base64DecodeError
  (o.checkUtf8 json).mapError .jsonParseError
  (o.eventFromJson json).mapError .jsonParseError

/-- The second entry of the first tag of the name, or the empty string. -/
def tagValue (e : SignedEvent) (name : String) : Except Nip98Error String :=
  match e.tags.find? fun t => t.head? == some name with
  | some tag => .ok (tag[1]?.getD "")
  | none => .error (.missingTag name)

/-- The result of an operation on `i64`, as a release build has it. -/
def wrap64 (x : Int) : Int := x.bmod (2 ^ 64)

/-- Step 5, in whole seconds. `abs` gives the least `i64` back. -/
def isFresh (now : Timestamp) (e : SignedEvent) : Bool :=
  decide (wrap64 (wrap64 (now / 1000000 - e.time)).natAbs ≤ maxEventAgeSeconds)

/-- `eq_ignore_ascii_case`. -/
def sameMethod (a b : String) : Bool := a.toList.map Char.toLower == b.toList.map Char.toLower

/-- What is checked of the event before and after the clock. -/
def checkSigned (o : Nip98) (e : SignedEvent) : Except Nip98Error Unit :=
  if e.kind ≠ 27235 then .error (.invalidKind e.kind)
  else if o.verifyEvent e then .ok () else .error .invalidSignature

def checkTarget (e : SignedEvent) (expectedUrl expectedMethod : String) :
    Except Nip98Error Unit := do
  let url ← tagValue e "u"
  if url ≠ expectedUrl then .error (.urlMismatch expectedUrl url)
  else
    let method ← tagValue e "method"
    if sameMethod method expectedMethod then .ok ()
    else .error (.methodMismatch expectedMethod method)

/-- `extract_and_validate`: the public key. -/
def extractAndValidate (o : Nip98) (now : Timestamp)
    (authHeader expectedUrl expectedMethod : String) :
    Except Nip98Error PublicKey := do
  let event ← readEvent o authHeader
  checkSigned o event
  if isFresh now event then
    checkTarget event expectedUrl expectedMethod
    return event.pubkey
  else .error .eventExpired

/-! ## Requests -/

/-- The headers the two paths read. -/
structure ProxyHeaders extends Headers where
  forwardedHost : Option HeaderValue := none
  forwardedProto : Option HeaderValue := none
  host : Option HeaderValue := none
  authority : Option HeaderValue := none
  deriving DecidableEq, Repr

/-- The scheme: what the proxy says, else a guess from the host. -/
def ProxyHeaders.proto (headers : ProxyHeaders) (host : String) : String :=
  headers.forwardedProto.join.getD
    (if decide (":443".toList <:+: host.toList) ||
      !host.toList.contains ':' then "https" else "http")

inductive Route
  /-- A route whose handler takes a `UcanAuth`; path and query are those of the original URI. -/
  | ucanAuth (method pathAndQuery : String)
  /-- `POST /api/auth/login`. -/
  | login (tenant : TenantId)
  deriving DecidableEq, Repr

/-- A request with a `Nostr` header, and how Redis answers: whether it can be reached, and whether
the key is in the set of support admins. -/
structure Nip98Call where
  now : Timestamp
  route : Route
  headers : ProxyHeaders
  authHeader : String
  redisUp : Bool := true
  supportAdmin : Bool := false
  deriving DecidableEq, Repr

/-- `is_full_admin`, else `is_support_admin`. -/
def Nip98Call.adminRole (o : Nip98) (c : Nip98Call) (pubkey : PublicKey) : Option String :=
  if isFullAdmin o.toWeb ⟨pubkey, none⟩ then some "full"
  else if c.redisUp && c.supportAdmin then some "support"
  else none

/-! ## Protected routes -/

def replayTtlSeconds : Int := 120

/-- `build_expected_url` of the extractor. -/
def buildExpectedUrl (headers : ProxyHeaders) (pathAndQuery : String) : Option String := do
  let host ← (headers.forwardedHost.or headers.host).join
  return headers.proto host ++ "://" ++ host ++ pathAndQuery

/-- The rejections of the extractor: 401 and 503. -/
inductive Rejection
  | unauthorized
  | serviceUnavailable
  deriving DecidableEq, Repr

/-- `SET key 1 NX EX ttl`: each key with the instant at which it is dropped. -/
def setNxEx (store : Cache String Timestamp) (now : Timestamp) (key : String) (ttl : Int) :
    Bool × Cache String Timestamp :=
  if (store.get key).any fun expiry => decide (now < expiry) then (false, store)
  else (true, store.insert key (now + seconds ttl))

def replayKey (e : SignedEvent) : String := "nip98_replay:" ++ e.id

/-- `check_replay`. -/
def checkReplay (store : Cache String Timestamp) (c : Nip98Call) (e : SignedEvent) :
    Except Rejection Unit × Cache String Timestamp :=
  if c.redisUp then
    match setNxEx store c.now (replayKey e) replayTtlSeconds with
    | (true, store) => (.ok (), store)
    | (false, store) => (.error .unauthorized, store)
  else (.error .serviceUnavailable, store)

/-- `authenticate_nip98` up to the replay check: the event whose id is recorded, and the public
key. -/
def checkNip98 (o : Nip98) (c : Nip98Call) (method pathAndQuery : String) :
    Except Rejection (SignedEvent × PublicKey) :=
  match buildExpectedUrl c.headers pathAndQuery with
  | none => .error .unauthorized
  | some expectedUrl => do
    let pubkey ← (extractAndValidate o c.now c.authHeader expectedUrl method).mapError
      fun _ => .unauthorized
    let event ← (readEvent o c.authHeader).mapError fun _ => .unauthorized
    return (event, pubkey)

/-- `authenticate_nip98`. -/
def authenticateNip98 (o : Nip98) (store : Cache String Timestamp) (c : Nip98Call)
    (method pathAndQuery : String) : Except Rejection UcanAuth × Cache String Timestamp :=
  match checkNip98 o c method pathAndQuery with
  | .error e => (.error e, store)
  | .ok (event, pubkey) =>
    match checkReplay store c event with
    | (.error e, store) => (.error e, store)
    | (.ok (), store) => (.ok ⟨pubkey, c.adminRole o pubkey⟩, store)

/-! ## The admin login -/

/-- `build_expected_url` of the login. -/
def buildLoginUrl (o : Nip98) (headers : ProxyHeaders) (path : String) : Except AuthError String :=
  match ((headers.forwardedHost.or headers.host).or headers.authority).join with
  | some host => .ok (headers.proto host ++ "://" ++ host ++ path)
  | none =>
    match o.appUrl with
    | some appUrl =>
      .ok (String.ofList (appUrl.toList.reverse.dropWhile (· == '/')).reverse ++ path)
    | none => .error (.badRequest "Host header required (or set APP_URL env var)")

def loginError : Nip98Error → AuthError
  | .invalidHeaderFormat => .badRequest "Invalid NIP-98 header format"
  | .invalidSignature => .badRequest "Invalid NIP-98 signature"
  | .eventExpired => .badRequest "NIP-98 event expired (must be within 60 seconds)"
  | e => .badRequest ("NIP-98 validation failed: " ++ e.text)

/-- `nostr_auth_login`: the public key and the token of the session cookie. -/
def nostrAuthLogin (o : Nip98) (c : Nip98Call) (tenant : TenantId) :
    Except AuthError (PublicKey × String) := do
  let expectedUrl ← buildLoginUrl o c.headers "/api/auth/login"
  let pubkey ← (extractAndValidate o c.now c.authHeader expectedUrl "POST").mapError loginError
  let role ← (c.adminRole o pubkey).elim
    (.error (.forbidden "Pubkey not authorized for admin access")) .ok
  let origin ← c.headers.origin.join.elim (.error (.badRequest "Origin header required")) .ok
  let serverKeys ← o.getServerKeys.mapError .internal
  let token
    ← (generateServerSignedUcan o.toWeb c.now pubkey tenant "admin" origin none serverKeys false
    (some role) o.tokenExpirySeconds).mapError .internal
  return (pubkey, token)

end Keycast.Http
