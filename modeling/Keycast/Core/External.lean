import Mathlib.Algebra.Group.Nat.Defs
import Mathlib.Algebra.Ring.Int.Defs
import Mathlib.Data.List.Infix

/-!
# `Core/External.lean` — values, and the libraries underneath

The value types every other module shares, and the record of third-party functions the modelled
code calls: `nostr_sdk` for keys, tags and encryption, `serde_json` for parsing text, the KMS,
`bcrypt` behind `verify_secret`, HKDF. None of them is defined here. A result either holds for
every choice of them or names what it needs of them.

Public keys, secret keys and ciphertexts are opaque to the modelled code — it compares public
keys by their hex form, and passes the rest on — so all three are kept as text.
-/

set_option autoImplicit false

namespace Keycast

/-- A public key in its hex form; two keys are equal exactly when their hex forms are. -/
abbrev PublicKey := String
abbrev SecretKey := String
/-- Bytes nothing here looks inside: a ciphertext, a decrypted secret. -/
abbrev Bytes := String
abbrev TenantId := Int
abbrev RowId := Int
/-- An instant (`DateTime<Utc>`, `TIMESTAMPTZ`) in microseconds. -/
abbrev Timestamp := Int

def seconds (n : Int) : Int := n * 1000000
def hours (n : Int) : Int := seconds (n * 3600)

/-- `char::is_whitespace`, the `White_Space` of Unicode. -/
def isWhitespace (c : Char) : Bool :=
  let n := c.toNat
  (9 ≤ n && n ≤ 13) || n == 0x20 || n == 0x85 || n == 0xa0 || n == 0x1680 ||
    (0x2000 ≤ n && n ≤ 0x200a) ||
    n == 0x2028 || n == 0x2029 || n == 0x202f || n == 0x205f || n == 0x3000

/-- `trim`. -/
def trimmed (s : String) : List Char :=
  ((s.toList.dropWhile isWhitespace).reverse.dropWhile isWhitespace).reverse

/-- `serde_json::Value`. An integer is a number that parses as `u64` or `i64`; every other number
is a `float`, which the modelled code never reads. -/
inductive Json
  | null
  | bool (b : Bool)
  | int (n : Int)
  | float (text : String)
  | str (s : String)
  | arr (vs : List Json)
  | obj (fields : List (String × Json))

namespace Json

/-- `value["key"]`: `Null` for a missing key and for anything that is not an object. -/
def field : Json → String → Json
  | obj fs, k => (fs.lookup k).getD null
  | _, _ => null

/-- `value[i]`: `Null` out of range and for anything that is not an array. -/
def index : Json → Nat → Json
  | arr vs, i => vs[i]?.getD null
  | _, _ => null

def asStr : Json → Option String
  | str s => some s
  | _ => none

def asU64 : Json → Option Nat
  | int n => if 0 ≤ n then some n.toNat else none
  | _ => none

def asI64 : Json → Option Int
  | int n => some n
  | _ => none

def asBool : Json → Option Bool
  | bool b => some b
  | _ => none

def asArray : Json → Option (List Json)
  | arr vs => some vs
  | _ => none

end Json

/-- A tag as the list of its strings. -/
abbrev Tag := List String

/-- `nostr::UnsignedEvent`, less its id, which nothing here reads. -/
structure UnsignedEvent where
  pubkey : PublicKey
  createdAt : Nat
  kind : Nat
  tags : List Tag
  content : String
  deriving DecidableEq, Repr

structure External where
  publicKey : SecretKey → PublicKey
  /-- `PublicKey::from_hex`; the error is its text. -/
  publicKeyFromHex : String → Except String PublicKey
  secretKeyFromSlice : Bytes → Except String SecretKey
  /-- `Hkdf::<Sha256>::new(None, ikm).expand(info, 32)`. -/
  hkdfExpand : SecretKey → String → Bytes
  /-- `KeyManager::decrypt`. -/
  kmsDecrypt : Bytes → Except String Bytes
  /-- `secret_pool::verify_secret(provided, hash)`. -/
  verifySecret : String → String → Bool
  nip44Decrypt : SecretKey → PublicKey → String → Except String String
  nip04Decrypt : SecretKey → PublicKey → String → Except String String
  /-- The first argument is the nonce the call draws. -/
  nip44Encrypt : Nat → SecretKey → PublicKey → String → Except String String
  nip04Encrypt : Nat → SecretKey → PublicKey → String → Except String String
  /-- `EventBuilder::sign_with_keys`, with the signed event in its JSON text. -/
  signEvent : Nat → SecretKey → UnsignedEvent → Except String String
  /-- `serde_json::from_str::<Value>`. -/
  parseJson : String → Option Json
  /-- `Value::to_string`. -/
  renderJson : Json → String
  /-- `serde_json::from_str::<UnsignedEvent>`. -/
  parseUnsignedEvent : String → Option UnsignedEvent
  /-- `serde_json::from_value::<UnsignedEvent>`. -/
  unsignedEventFromValue : Json → Option UnsignedEvent
  /-- `Tag::parse`. -/
  tagParse : List String → Option Tag
  /-- `Tags::public_keys`. -/
  tagPublicKeys : List Tag → List PublicKey
  /-- Whether `sqlx` decodes an `INTEGER` column into an `i64`. -/
  decodesInt4AsI64 : Bool
  /-- Sign an event of the given kind, tags and content with the given keys and publish it to the
  relays: `EventBuilder::sign_with_keys`, then `Client::send_event`. -/
  publish : SecretKey → Nat → List Tag → String → Except String Unit

/-- `Keys`: the secret; the public half is computed from it. -/
abbrev Keys := SecretKey

namespace External

variable (ext : External)

def hkdfInfoPrefix : String := "keycast-bunker-nip46-v1-"

/-- The loop of `derive_bunker_keys` from a given `counter` on. -/
def deriveBunkerKeysFrom (userSecret : SecretKey) (info : String) : Nat → Nat → Option Keys
  | 0, _ => none
  | fuel + 1, counter =>
    let derivedInfo := if counter = 0 then info else info ++ "-retry" ++ toString counter
    match ext.secretKeyFromSlice (ext.hkdfExpand userSecret derivedInfo) with
    | .ok secret => some secret
    | .error _ => deriveBunkerKeysFrom userSecret info fuel (counter + 1)

/-- `bunker_key::derive_bunker_keys`. `none` is the panic after all `u32` counters gave an
invalid scalar. -/
def deriveBunkerKeys (userSecret : SecretKey) (connectionSecret : String) : Option Keys :=
  ext.deriveBunkerKeysFrom userSecret (hkdfInfoPrefix ++ connectionSecret) (2 ^ 32) 0

/-- Decrypt a stored secret key and derive the bunker keys of a connection secret from it. -/
def bunkerKeysFrom (encrypted : Bytes) (connectionSecret : String) : Option Keys :=
  ((ext.kmsDecrypt encrypted).bind ext.secretKeyFromSlice).toOption.bind
    (ext.deriveBunkerKeys · connectionSecret)

/-- Symbolic libraries for concrete runs: a key is its name, a derived key the expression that
derives it, and the ciphertexts and texts a run decrypts and parses are given with it. -/
def symbolic (plaintexts : List (String × String)) (texts : List (String × Json)) : External where
  publicKey sk := "pub:" ++ sk
  publicKeyFromHex s := .ok s
  secretKeyFromSlice b := .ok b
  hkdfExpand sk info := sk ++ "/" ++ info
  kmsDecrypt b := .ok b
  verifySecret provided hash := hash == "bcrypt:" ++ provided
  nip44Decrypt _ _ c := (plaintexts.lookup c).elim (.error "invalid payload") .ok
  nip04Decrypt _ _ c := (plaintexts.lookup c).elim (.error "invalid content") .ok
  nip44Encrypt _ _ _ t := .ok ("nip44:" ++ t)
  nip04Encrypt _ _ _ t := .ok ("nip04:" ++ t)
  signEvent _ sk e := .ok ("signed by " ++ sk ++ ": " ++ e.content)
  parseJson s := texts.lookup s
  renderJson _ := "response"
  parseUnsignedEvent _ := none
  unsignedEventFromValue _ := none
  tagParse t := some t
  tagPublicKeys _ := []
  decodesInt4AsI64 := false
  publish _ _ _ _ := .ok ()

end External

end Keycast
