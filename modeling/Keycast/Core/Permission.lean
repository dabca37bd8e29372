import Keycast.Core.External

/-!
# `Core/Permission.lean` — policy permissions

A policy is a list of permission rows, each an identifier and a JSON config, and a row becomes a
`CustomPermission` when the identifier is one of six and the config deserializes. The conversion
is where the two signing paths differ (`Http/Policy.lean`), so it is modelled with all its ways to
fail: an identifier nobody knows, a config `serde` refuses, a merchant key that is not a key.

`serde` accepts a struct as an object or as an array of its fields in order, ignores unknown
members, and reads a missing `Option` member of an object as `None`; all of that is visible in
what the source accepts, and none of it is in the source. The text of `serde`'s own errors is not
modelled: `ConfigError` records which of the two checks failed.
-/

set_option autoImplicit false

namespace Keycast

/-- `types::permission::Permission`. The timestamps are left out: nothing reads them. -/
structure Permission where
  id : RowId
  identifier : String
  config : Json

inductive ConfigError
  /-- `serde_json::from_value` failed. -/
  | deserialize
  /-- "Invalid merchant_pubkey: …", with the key's own error. -/
  | merchantPubkey (e : String)
  deriving DecidableEq, Repr

inductive PermissionError
  | unknownPermission (identifier : String)
  | invalidConfig (e : ConfigError)
  deriving DecidableEq, Repr

/-- The six implementations of the `CustomPermission` trait, with their parsed configs. -/
inductive CustomPermission
  | allowedKinds (kinds : Option (List Nat))
  | commerceEnvelope (merchantPubkey : PublicKey)
  | contentFilter (blockedWords : Option (List String))
  | decryptOnly
  | encryptToSelf
  | fullAccess
  deriving DecidableEq, Repr

/-! ## Configs -/

namespace Json

/-- A `u16`. -/
def deU16 : Json → Option Nat
  | int n => if 0 ≤ n ∧ n < 65536 then some n.toNat else none
  | _ => none

/-- An `Option<Vec<T>>`. -/
def deOptionVec {α : Type} (elem : Json → Option α) : Json → Option (Option (List α))
  | null => some none
  | arr vs => (vs.mapM elem).map some
  | _ => none

/-- A struct of one field; `missing` is what an object without the member gives. -/
def deStruct {α : Type} (name : String) (missing : Option α) (de : Json → Option α) :
    Json → Option α
  | obj fs =>
    match fs.lookup name with
    | some v => de v
    | none => missing
  | arr [v] => de v
  | _ => none

/-- A struct of no fields. -/
def deEmptyStruct : Json → Option Unit
  | obj _ => some ()
  | arr [] => some ()
  | _ => none

end Json

namespace CustomPermission

/-- `serde_json::from_value(permission.config).map_err(InvalidConfig)`. -/
def orInvalid {α : Type} (o : Option α) : Except PermissionError α :=
  match o with
  | some a => .ok a
  | none => .error (.invalidConfig .deserialize)

def allowedKindsFrom (p : Permission) : Except PermissionError CustomPermission := do
  let kinds ← orInvalid <|
    Json.deStruct "allowed_kinds" (some none) (Json.deOptionVec Json.deU16) p.config
  return .allowedKinds kinds

def commerceEnvelopeFrom (ext : External) (p : Permission) :
    Except PermissionError CustomPermission := do
  let merchant ← orInvalid (Json.deStruct "merchant_pubkey" none Json.asStr p.config)
  match ext.publicKeyFromHex merchant with
  | .ok key => return .commerceEnvelope key
  | .error e => throw (.invalidConfig (.merchantPubkey e))

def contentFilterFrom (p : Permission) : Except PermissionError CustomPermission := do
  let words ← orInvalid <|
    Json.deStruct "blocked_words" (some none) (Json.deOptionVec Json.asStr) p.config
  return .contentFilter words

def decryptOnlyFrom (p : Permission) : Except PermissionError CustomPermission := do
  let _ ← orInvalid p.config.deEmptyStruct
  return .decryptOnly

/-! ## The trait's methods -/

def identifier : CustomPermission → String
  | allowedKinds _ => "allowed_kinds"
  | commerceEnvelope _ => "commerce_envelope"
  | contentFilter _ => "content_filter"
  | decryptOnly => "decrypt_only"
  | encryptToSelf => "encrypt_to_self"
  | fullAccess => "full_access"

def commerceEnvelopeKind : Nat := 1327
def sealKind : Nat := 13
def nip42AuthKind : Nat := 22242

/-- `str::contains`. -/
def contains (s word : String) : Bool := decide (word.toList <:+: s.toList)

/-- Some blocked word occurs in the text; no list blocks nothing. -/
def blocks : Option (List String) → String → Bool
  | none, _ => false
  | some words, s => words.any (contains s)

def isEnvelopeForMerchant (ext : External) (merchant : PublicKey) (plaintext : String) : Bool :=
  match ext.parseUnsignedEvent plaintext with
  | some event =>
    event.kind == commerceEnvelopeKind && (ext.tagPublicKeys event.tags).any (· == merchant)
  | none => false

def canSign : CustomPermission → UnsignedEvent → Bool
  | allowedKinds none, _ => true
  | allowedKinds (some kinds), event => kinds.contains event.kind
  | commerceEnvelope _, event => event.kind == sealKind
  | contentFilter words, event => !blocks words event.content
  | decryptOnly, event => event.kind == nip42AuthKind
  | encryptToSelf, _ => true
  | fullAccess, _ => true

def canEncrypt (ext : External) :
    CustomPermission → (plaintext : String) → (sender recipient : PublicKey) → Bool
  | allowedKinds _, _, _, _ => true
  | commerceEnvelope merchant, plaintext, sender, recipient =>
    (recipient == merchant || recipient == sender) && isEnvelopeForMerchant ext merchant plaintext
  | contentFilter words, plaintext, _, _ => !blocks words plaintext
  | decryptOnly, _, _, _ => false
  | encryptToSelf, _, sender, recipient => sender == recipient
  | fullAccess, _, _, _ => true

def canDecrypt : CustomPermission → (ciphertext : String) → (sender recipient : PublicKey) → Bool
  | encryptToSelf, _, sender, recipient => sender == recipient
  | _, _, _, _ => true

end CustomPermission

/-- `Permission::to_custom_permission`. -/
def Permission.toCustomPermission (ext : External) (p : Permission) :
    Except PermissionError CustomPermission :=
  if p.identifier.startsWith "allowed_kinds" then CustomPermission.allowedKindsFrom p
  else if p.identifier = "commerce_envelope" then CustomPermission.commerceEnvelopeFrom ext p
  else if p.identifier = "content_filter" then CustomPermission.contentFilterFrom p
  else if p.identifier = "decrypt_only" then CustomPermission.decryptOnlyFrom p
  else if p.identifier = "encrypt_to_self" then .ok .encryptToSelf
  else if p.identifier = "full_access" then .ok .fullAccess
  else .error (.unknownPermission p.identifier)

/-- What a permission is asked about. `encrypt` and `decrypt` carry the other party; the key the
authorization acts for is an argument of `allows`. -/
inductive Operation
  | sign (event : UnsignedEvent)
  | encrypt (plaintext : String) (recipient : PublicKey)
  | decrypt (ciphertext : String) (sender : PublicKey)
  deriving DecidableEq, Repr

/-- What one permission says to an operation by the holder of `self`. -/
def CustomPermission.allows (ext : External) (self : PublicKey) (p : CustomPermission) :
    Operation → Bool
  | .sign event => p.canSign event
  | .encrypt plaintext recipient => p.canEncrypt ext plaintext self recipient
  | .decrypt ciphertext sender => p.canDecrypt ciphertext sender self

end Keycast
