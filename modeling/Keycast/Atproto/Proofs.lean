import Keycast.Atproto.OAuth
import Keycast.Lib.Cache

/-!
# `Atproto/Proofs.lean` — DPoP proofs and client assertions

`validate_dpop_proof` and `verify_client_assertion` of `api/http/atproto_oauth.rs`, with the two
maps of what they have accepted. Both take a compact JWT apart, check header, claims and signature,
and ask the map last. Base64, JSON, SHA-256 and P-256 come from libraries; the order of the checks
and their messages are the source's.
-/

set_option autoImplicit false

namespace Keycast.Atproto

open Lib Http

/-! ## The tokens -/

structure DpopProofJwk where
  kty : String
  crv : String
  x : String
  y : String

structure DpopProofHeader where
  alg : String
  typ : Option String
  jwk : DpopProofJwk

structure DpopProofClaims where
  htm : String
  htu : String
  iat : Int
  jti : String
  nonce : Option String
  ath : Option String
  deriving DecidableEq

structure ClientJwk where
  kty : String
  crv : Option String
  x : Option String
  y : Option String
  kid : Option String
  alg : Option String
  keyUse : Option String

structure ClientAssertionHeader where
  alg : String
  kid : Option String

structure ClientAssertionClaims where
  iss : String
  sub : String
  aud : Json
  exp : Int
  iat : Int
  jti : String

/-- The libraries. -/
structure Jwt where
  /-- `URL_SAFE_NO_PAD`. -/
  decode : String → Option (List UInt8)
  encode : List UInt8 → String
  sha256 : String → List UInt8
  /-- `serde_json::from_slice`, one for each type. -/
  proofHeader : List UInt8 → Option DpopProofHeader
  proofClaims : List UInt8 → Option DpopProofClaims
  assertionHeader : List UInt8 → Option ClientAssertionHeader
  assertionClaims : List UInt8 → Option ClientAssertionClaims
  renderJson : Json → String
  /-- The path of the URL, if it is one. -/
  urlPath : String → Option String
  /-- `VerifyingKey::from_sec1_bytes` and `Signature::try_from` succeed. -/
  validKey : List UInt8 → Bool
  validSignature : List UInt8 → Bool
  /-- Key, text and signature. -/
  verify : List UInt8 → String → List UInt8 → Bool

def dpopMaxIatSkewSeconds : Int := 300
def clientAssertionMaxExpSkewSeconds : Int := 300
def clientAssertionTypeJwtBearer : String :=
  "urn:ietf:params:oauth:client-assertion-type:jwt-bearer"

def bad {β : Type} (message : String) : Except AuthError β := .error (.badRequest message)

def orBad {β : Type} (x : Option β) (message : String) : Except AuthError β :=
  x.elim (bad message) .ok

/-- `if !b { return Err(..) }`. -/
def ensure (b : Bool) (message : String) : Except AuthError Unit :=
  if b then .ok () else bad message

theorem ensure_ok {b : Bool} {message : String} {u : Unit} : ensure b message = .ok u ↔
    b = true := by
  cases b with
  | true => simp [ensure]
  | false => simp [ensure, bad]

theorem orBad_ok {β : Type} {x : Option β} {message : String} {b : β} :
    orBad x message = .ok b ↔ x = some b := by
  cases x with
  | none => simp [orBad, bad]
  | some a => simp [orBad]

/-- `split('.')`. -/
def segments (jwt : String) : List String := (jwt.toList.splitOn '.').map String.ofList

def eqIgnoreAsciiCase (a b : String) : Bool :=
  a.toList.map Char.toLower == b.toList.map Char.toLower

/-- The key of two coordinates, uncompressed. -/
def uncompressedKey (x y : List UInt8) : List UInt8 := 4 :: (x ++ y)

/-! ## DPoP proofs -/

/-- One call of `validate_dpop_proof`, at a time in whole seconds. The header is `none` where it is
missing or not text. -/
structure DpopCall where
  now : Int
  header : Option String
  expectedMethod : String
  expectedPathSuffix : String
  expectedNonce : Option String
  expectedAth : Option String

def dpopJwkThumbprint (o : Jwt) (jwk : DpopProofJwk) : String :=
  o.encode (o.sha256
    ("\x7b\"crv\":\"" ++ jwk.crv ++ "\",\"kty\":\"" ++ jwk.kty ++ "\",\"x\":\"" ++ jwk.x ++
    "\",\"y\":\"" ++ jwk.y ++ "\"\x7d"))

def dpopHtuMatchesExpected (o : Jwt) (htu suffix : String) : Bool :=
  suffix.toList.isSuffixOf ((o.urlPath htu).getD htu).toList

def dpopVerifyingKey (o : Jwt) (jwk : DpopProofJwk) : Except AuthError (List UInt8) := do
  let x ← orBad (o.decode jwk.x) "Invalid DPoP JWK x coordinate"
  let y ← orBad (o.decode jwk.y) "Invalid DPoP JWK y coordinate"
  ensure (x.length == 32 && y.length == 32) "DPoP JWK coordinates must be 32 bytes"
  ensure (o.validKey (uncompressedKey x y)) "DPoP JWK does not encode a valid P-256 key"
  return uncompressedKey x y

/-- The proof, taken apart and its signature verified: its claims and the thumbprint of its key. -/
def readDpopProof (o : Jwt) (header : Option String) :
    Except AuthError (String × DpopProofClaims) := do
  let proof ← orBad header "Missing DPoP proof"
  match segments proof with
  | [first, second, third] =>
    let headerBytes ← orBad (o.decode first) "DPoP proof has invalid JWT header encoding"
    let claimsBytes ← orBad (o.decode second) "DPoP proof has invalid JWT payload encoding"
    let signature ← orBad (o.decode third) "DPoP proof has invalid JWT signature encoding"
    let header ← orBad (o.proofHeader headerBytes) "DPoP proof header is invalid JSON"
    let claims ← orBad (o.proofClaims claimsBytes) "DPoP proof payload is invalid JSON"
    ensure (header.alg == "ES256") "DPoP proof must use ES256"
    ensure (header.typ == some "dpop+jwt") "DPoP proof typ must be dpop+jwt"
    ensure (header.jwk.kty == "EC" && header.jwk.crv == "P-256")
      "DPoP proof must carry an EC P-256 JWK"
    let key ← dpopVerifyingKey o header.jwk
    ensure (o.validSignature signature) "DPoP proof signature is not valid ES256 format"
    ensure (o.verify key (first ++ "." ++ second) signature)
      "DPoP proof signature validation failed"
    return (dpopJwkThumbprint o header.jwk, claims)
  | _ => bad "DPoP proof must be a compact JWT"

def inWindow (now iat : Int) : Bool :=
  !(iat < now - dpopMaxIatSkewSeconds || now + dpopMaxIatSkewSeconds < iat)

/-- What the call expects of the claims, before it looks at the clock and after. -/
def DpopCall.checkEndpoint (o : Jwt) (c : DpopCall) (claims : DpopProofClaims) :
    Except AuthError Unit := do
  ensure (eqIgnoreAsciiCase claims.htm c.expectedMethod) "DPoP proof htm does not match request"
  ensure (dpopHtuMatchesExpected o claims.htu c.expectedPathSuffix)
    "DPoP proof htu does not match endpoint"

def DpopCall.checkBinding (c : DpopCall) (claims : DpopProofClaims) : Except AuthError Unit := do
  ensure (!(trimmed claims.jti).isEmpty) "DPoP proof must include a non-empty jti"
  ensure (c.expectedNonce.isNone || claims.nonce == c.expectedNonce)
    "DPoP proof nonce is missing or invalid"
  ensure (c.expectedAth.isNone || claims.ath == c.expectedAth)
    "DPoP proof ath does not match access token"

/-- Everything but the replay check. -/
def checkDpopProof (o : Jwt) (c : DpopCall) : Except AuthError (String × DpopProofClaims) := do
  let (jkt, claims) ← readDpopProof o c.header
  c.checkEndpoint o claims
  ensure (inWindow c.now claims.iat) "DPoP proof iat is outside the allowed window"
  c.checkBinding claims
  return (jkt, claims)

def dpopReplayKey (jkt jti : String) : String := jkt ++ ":" ++ jti

/-- `validate_dpop_proof`, with `DPOP_REPLAY_CACHE` before and after. -/
def validateDpopProof (o : Jwt) (cache : Cache String Int) (c : DpopCall) :
    Except AuthError String × Cache String Int :=
  match checkDpopProof o c with
  | .error e => (.error e, cache)
  | .ok (jkt, claims) =>
    if (cache.get (dpopReplayKey jkt claims.jti)).any fun previous =>
        decide (c.now - previous < dpopMaxIatSkewSeconds) then
      (bad "DPoP proof jti has already been used", cache)
    else (.ok jkt, cache.insert (dpopReplayKey jkt claims.jti) c.now)

/-! ## Client assertions -/

/-- One call of `verify_client_assertion`. -/
structure AssertionCall where
  now : Int
  clientId : String
  clientAssertionType : Option String
  clientAssertion : Option String
  expectedAudiences : List String
  signingKeys : List ClientJwk
  expectedJkt : Option String

def assertionField (value : Option String) (name : String) : Except AuthError String :=
  orBad value ("Missing " ++ name)

def compactJwtParts (o : Jwt) (jwt : String) :
    Except AuthError (List UInt8 × List UInt8 × List UInt8 × String) :=
  match segments jwt with
  | [first, second, third] => do
    let header ← orBad (o.decode first) "Invalid client_assertion header"
    let claims ← orBad (o.decode second) "Invalid client_assertion payload"
    let signature ← orBad (o.decode third) "Invalid client_assertion signature"
    return (header, claims, signature, first ++ "." ++ second)
  | _ => bad "client_assertion must be a compact JWT"

/-- The assertion, taken apart. -/
def readAssertion (o : Jwt) (assertion : String) :
    Except AuthError (ClientAssertionHeader × ClientAssertionClaims × List UInt8 × String) := do
  let (headerBytes, claimsBytes, signature, input) ← compactJwtParts o assertion
  let header ← orBad (o.assertionHeader headerBytes) "client_assertion header is invalid JSON"
  ensure (header.alg == "ES256") "client_assertion must use ES256"
  let claims ← orBad (o.assertionClaims claimsBytes) "client_assertion payload is invalid JSON"
  return (header, claims, signature, input)

def clientJwkVerifyingKey (o : Jwt) (jwk : ClientJwk) : Except AuthError (List UInt8) := do
  ensure (jwk.kty == "EC" && jwk.crv == some "P-256") "private_key_jwt requires EC P-256 keys"
  ensure (jwk.keyUse.all (· == "sig")) "private_key_jwt key use must be sig"
  ensure (jwk.alg.all (· == "ES256")) "private_key_jwt key alg must be ES256"
  let x ← orBad jwk.x "JWK missing x coordinate"
  let y ← orBad jwk.y "JWK missing y coordinate"
  let x ← orBad (o.decode x) "Invalid JWK x coordinate"
  let y ← orBad (o.decode y) "Invalid JWK y coordinate"
  ensure (x.length == 32 && y.length == 32) "JWK coordinates must be 32 bytes"
  ensure (o.validKey (uncompressedKey x y)) "Invalid JWK public key"
  return uncompressedKey x y

def clientJwkThumbprint (o : Jwt) (jwk : ClientJwk) : Except AuthError String := do
  let x ← orBad jwk.x "JWK missing x coordinate"
  let y ← orBad jwk.y "JWK missing y coordinate"
  return o.encode (o.sha256
    ("\x7b\"crv\":\"P-256\",\"kty\":\"EC\",\"x\":\"" ++ x ++ "\",\"y\":\"" ++ y ++ "\"\x7d"))

def audMatchesExpected (aud : Json) (expected : List String) : Bool :=
  match aud with
  | .str value => expected.contains value
  | .arr values => values.any fun value => value.asStr.any expected.contains
  | _ => false

/-- The checks on the claims. -/
def AssertionCall.checkClaims (o : Jwt) (c : AssertionCall) (claims : ClientAssertionClaims) :
    Except AuthError Unit := do
  ensure (claims.iss == c.clientId && claims.sub == c.clientId)
    "client_assertion must set iss and sub to client_id"
  ensure (audMatchesExpected claims.aud c.expectedAudiences)
    ("client_assertion aud does not match authorization server issuer (got " ++
      o.renderJson claims.aud ++
      ", expected one of " ++ ", ".intercalate c.expectedAudiences ++ ")")
  ensure (c.now < claims.exp) "client_assertion is expired"
  ensure (claims.exp ≤ c.now + clientAssertionMaxExpSkewSeconds)
    "client_assertion exp is too far in the future"
  ensure (c.now - clientAssertionMaxExpSkewSeconds ≤ claims.iat &&
    claims.iat ≤ c.now + dpopMaxIatSkewSeconds) "client_assertion iat is outside the allowed window"
  ensure (!(trimmed claims.jti).isEmpty) "client_assertion must include a non-empty jti"

/-- The loop over the key candidates passes over a key that is no P-256 key or that does not verify
the signature, and ends with the first that does. -/
def AssertionCall.findKey (o : Jwt) (c : AssertionCall) (kid : Option String) (input : String)
    (signature : List UInt8) : Except AuthError ClientJwk := do
  let candidates : List ClientJwk := match kid with
    | some kid => c.signingKeys.filter fun key => key.kid == some kid
    | none => c.signingKeys
  ensure (!candidates.isEmpty) "No matching client signing key found"
  orBad (candidates.find? fun key =>
      match clientJwkVerifyingKey o key with
      | .ok verifyingKey => o.verify verifyingKey input signature
      | .error _ => false)
    "client_assertion signature validation failed"

/-- Everything but the replay check: the claims, and what the caller gets. -/
def checkClientAssertion (o : Jwt) (c : AssertionCall) :
    Except AuthError (ClientAssertionClaims × ClientAuthBinding) := do
  let type ← assertionField c.clientAssertionType "client_assertion_type"
  ensure (type == clientAssertionTypeJwtBearer) "Unsupported client_assertion_type"
  let assertion ← assertionField c.clientAssertion "client_assertion"
  let (header, claims, signature, input) ← readAssertion o assertion
  c.checkClaims o claims
  ensure (o.validSignature signature) "client_assertion signature has invalid format"
  let key ← c.findKey o header.kid input signature
  let jkt ← clientJwkThumbprint o key
  ensure (c.expectedJkt.all (· == jkt)) "client_assertion key does not match PAR binding"
  return (claims, .privateKeyJwt header.alg header.kid jkt)

def assertionReplayKey (clientId jti : String) : String := clientId ++ ":" ++ jti

/-- `verify_client_assertion`, with `CLIENT_ASSERTION_REPLAY_CACHE` before and after. -/
def verifyClientAssertion (o : Jwt) (cache : Cache String Int) (c : AssertionCall) :
    Except AuthError ClientAuthBinding × Cache String Int :=
  match checkClientAssertion o c with
  | .error e => (.error e, cache)
  | .ok (claims, binding) =>
    if (cache.get (assertionReplayKey c.clientId claims.jti)).any fun previousExp =>
        decide (c.now ≤ previousExp) then
      (bad "client_assertion jti has already been used", cache)
    else (.ok binding, cache.insert (assertionReplayKey c.clientId claims.jti) claims.exp)

/-! ## Symbolic libraries -/

def bytes (s : String) : List UInt8 := s.toList.map fun c => UInt8.ofNat c.toNat

def symbolicJwk : DpopProofJwk :=
  ⟨"EC", "P-256", "AAAAAAAAAAAAAAAAAAAAAAAAAAAAAAAA", "BBBBBBBBBBBBBBBBBBBBBBBBBBBBBBBB"⟩

/-- Libraries for concrete runs of one key: a text is its own encoding and digest, the key and its
signatures are good, and the claims a run parses are given with it. -/
def Jwt.symbolic (proofs : List (String × DpopProofClaims))
    (assertions : List (String × ClientAssertionClaims)) : Jwt where
  decode s := some (bytes s)
  encode _ := "thumbprint"
  sha256 := bytes
  proofHeader _ := some ⟨"ES256", some "dpop+jwt", symbolicJwk⟩
  proofClaims b := (proofs.find? fun p => bytes p.1 == b).map (·.2)
  assertionHeader _ := some ⟨"ES256", none⟩
  assertionClaims b := (assertions.find? fun p => bytes p.1 == b).map (·.2)
  renderJson _ := "aud"
  urlPath _ := none
  validKey _ := true
  validSignature _ := true
  verify _ _ _ := true

end Keycast.Atproto
