import Keycast.Signer.Handler
import Keycast.Lib.Interleave

/-!
# `Signer/Daemon.lean` — requests, commands and cleanup

The rest of `signer/src/signer_daemon.rs`: what the daemon does with an incoming NIP-46 event
(`handle_nip46_request`), with a command from the authorization channel, and once an hour with
its tombstones. Each of the three is a program over the shared state, and `system` runs any
number of them against an environment that changes the tables, advances the clock and evicts
cache entries as it likes.

The responses are modelled up to publication: `Outcome.sent` says a reply with that content was
encrypted, signed and accepted by the relay client.
-/

set_option autoImplicit false

namespace Keycast.Signer

open Lib

/-- The parts of a kind-24133 event the daemon reads. -/
structure Nip46Event where
  id : String
  pubkey : PublicKey
  tags : List Tag
  content : String
  deriving DecidableEq, Repr

/-- `tags.iter().find(|tag| tag.kind() == TagKind::p()).and_then(|tag| tag.content())`. -/
def Nip46Event.bunkerPubkey (event : Nip46Event) : Option PublicKey :=
  (event.tags.find? (·.head? == some "p")).bind (·[1]?)

inductive ResponseBody
  | result (value : String)
  | error (message : String)
  deriving DecidableEq, Repr

/-- `{"id": …, "result": …}` or `{"id": …, "error": …}`. -/
structure Response where
  id : Json
  body : ResponseBody

def Response.toJson (r : Response) : Json :=
  match r.body with
  | .result v => .obj [("id", r.id), ("result", .str v)]
  | .error e => .obj [("error", .str e), ("id", r.id)]

inductive Outcome
  /-- The event is for another instance, or for no bunker of ours, or this was not a request. -/
  | ignored
  /-- `response` went out, to a request for `method`. -/
  | sent (method : String) (response : Response)

/-- `AuthorizationCommand`. -/
inductive AuthorizationCommand
  | upsert (bunker : PublicKey) (tenant : TenantId) (isOauth : Bool)
  | remove (bunker : PublicKey)
  | reloadAll
  deriving DecidableEq, Repr

/-- A unit of work of the daemon. `nonce` is the randomness a request draws, and `owned` the
answer of the hash ring at the time it asks. -/
inductive Work
  | request (event : Nip46Event) (owned : Bool) (nonce : Nat)
  | command (c : AuthorizationCommand)
  | cleanup
  deriving DecidableEq, Repr

/-! ## Loading -/

/-- Decrypt a stored secret and derive the bunker keys from it. The two loaders of a kind differ
in the text of one error only. -/
def deriveKeys (ext : External) (encrypted : Bytes) (secretHash invalid : String) :
    SignerM (Keys × Keys) := do
  let decrypted ← .ofExcept ((ext.kmsDecrypt encrypted).mapError .encryption)
  let userKeys ← .ofExcept ((ext.secretKeyFromSlice decrypted).mapError fun e =>
    .invalidKey (invalid ++ e))
  let bunkerKeys ← .orErr (ext.deriveBunkerKeys userKeys secretHash) .panicked
  return (userKeys, bunkerKeys)

/-- On a cache miss: `oauth_authorizations` first, whatever the row's status, then
`authorizations`. `none` is "not our bunker". -/
def loadOnDemand (ext : External) (bunker : PublicKey) : SignerM (Option Nip46Handler) := do
  match ← .read (.selectOAuth bunker) fun s => s.db.oauthByBunker bunker with
  | some auth =>
    let now ← .read .clock (·.now)
    let (status, tombstoneAt) := Nip46Handler.computeStatusFromOAuth now auth
    let encrypted ← .read .selectPersonalKey fun s => s.db.personalKey auth.userPubkey auth.tenantId
    let encrypted ← .orErr encrypted (.database rowNotFound)
    let (userKeys, bunkerKeys) ← deriveKeys ext encrypted auth.secretHash "Invalid user key: "
    let handler : Nip46Handler :=
      { bunkerKeys, userKeys, secretHash := auth.secretHash, authorizationId := auth.id,
        tenantId := auth.tenantId, isOauth := true, status, tombstoneAt }
    .write (.cacheInsert bunker) (·.cacheInsert bunker handler)
    return some handler
  | none =>
    match ← .read (.selectTeam bunker) fun s => s.db.teamByBunker bunker with
    | some auth =>
      let now ← .read .clock (·.now)
      let (status, tombstoneAt) := Nip46Handler.computeStatusFromTeam now auth
      let encrypted ← .read .selectStoredKey fun s => s.db.storedKey auth.storedKeyId auth.tenantId
      let encrypted ← .orErr encrypted (.database rowNotFound)
      let (userKeys, bunkerKeys) ←
        deriveKeys ext encrypted auth.secretHash "Invalid user secret key: "
      let handler : Nip46Handler :=
        { bunkerKeys, userKeys, secretHash := auth.secretHash, authorizationId := auth.id,
          tenantId := auth.tenantId, isOauth := false, status, tombstoneAt }
      .write (.cacheInsert bunker) (·.cacheInsert bunker handler)
      return some handler
    | none => return none

def getHandler (ext : External) (bunker : PublicKey) : SignerM (Option Nip46Handler) := do
  match ← .read (.cacheGet bunker) fun s => s.handlers.get bunker with
  | some h => return some h
  | none => loadOnDemand ext bunker

/-- `load_single_authorization`: what an `Upsert` command does. The team query filters revoked
rows, not expired ones, reads the `INTEGER` column `stored_key_id` as an `i64`, and its handler is
always active. -/
def loadSingleAuthorization (ext : External) (bunker : PublicKey) (tenant : TenantId)
    (isOauth : Bool) : SignerM Unit := do
  if isOauth then
    match ← .read (.selectOAuth bunker) fun s => s.db.oauthAuthorizations.find? fun a =>
        a.bunkerPublicKey == bunker && a.tenantId == tenant && a.live s.now with
    | some auth =>
      let encrypted ← .read .selectPersonalKey fun s => s.db.personalKey auth.userPubkey tenant
      let encrypted ← .orErr encrypted (.database rowNotFound)
      let (userKeys, bunkerKeys) ←
        deriveKeys ext encrypted auth.secretHash "Invalid user secret key: "
      .write (.cacheInsert bunker) (·.cacheInsert bunker
        { bunkerKeys, userKeys, secretHash := auth.secretHash, authorizationId := auth.id,
          tenantId := tenant, isOauth := true })
    | none => return ()
  else
    match ← .read (.selectTeam bunker) fun s => s.db.authorizations.find? fun a =>
        a.tenantId == tenant && a.bunkerPublicKey == bunker && a.revokedAt.isNone with
    | some auth =>
      .orErr (if ext.decodesInt4AsI64 then some () else none) (.database "mismatched types")
      let encrypted ← .read .selectStoredKey fun s => s.db.storedKey auth.storedKeyId tenant
      let encrypted ← .orErr encrypted (.database rowNotFound)
      let (userKeys, bunkerKeys) ←
        deriveKeys ext encrypted auth.secretHash "Invalid user secret key: "
      .write (.cacheInsert bunker) (·.cacheInsert bunker
        { bunkerKeys, userKeys, secretHash := auth.secretHash, authorizationId := auth.id,
          tenantId := tenant, isOauth := false })
    | none => return ()

/-! ## Commands and cleanup -/

def handleCommand (ext : External) : AuthorizationCommand → SignerM Unit
  | .upsert bunker tenant isOauth => loadSingleAuthorization ext bunker tenant isOauth
  | .remove bunker => do
    match ← .read (.cacheGet bunker) fun s => s.handlers.get bunker with
    | some h =>
      let now ← .read .clock (·.now)
      .write (.cacheInsert bunker)
        (·.cacheInsert bunker { h with status := .revoked, tombstoneAt := some now })
    | none => return ()
  | .reloadAll => return ()

/-- Drop the given keys one after the other. -/
def invalidateAll : List PublicKey → SignerM Unit
  | [] => return ()
  | k :: ks => do
    .write (.cacheInvalidate k) (·.cacheInvalidate k)
    invalidateAll ks

/-- A tombstone set before `cutoff`. -/
def Nip46Handler.staleTombstone (cutoff : Timestamp) (h : Nip46Handler) : Bool :=
  match h.tombstoneAt with
  | some t => decide (t < cutoff)
  | none => false

/-- One tick of the cleanup task: collect the tombstones older than 24 hours, then remove them. -/
def cleanup : SignerM Unit := do
  let now ← .read .clock (·.now)
  let cutoff := now - hours 24
  let toRemove ← .read .cacheIter fun s =>
    (s.handlers.iter.filter fun e => e.2.staleTombstone cutoff).map (·.1)
  invalidateAll toRemove

/-! ## Requests -/

/-- Decrypt the content with NIP-44, else with NIP-04; the flag says which one it was. -/
def decryptRequest (ext : External) (h : Nip46Handler) (event : Nip46Event) :
    Except SignerError (String × Bool) :=
  match ext.nip44Decrypt h.bunkerKeys event.pubkey event.content with
  | .ok d => .ok (d, true)
  | .error _ =>
    match ext.nip04Decrypt h.bunkerKeys event.pubkey event.content with
    | .ok d => .ok (d, false)
    | .error e => .error (.nip04 e)

def nostrConnectKind : Nat := 24133

/-- Encrypt a response the way the request was encrypted, sign it as the bunker, send it. -/
def respond (ext : External) (h : Nip46Handler) (event : Nip46Event) (nonce : Nat)
    (useNip44 : Bool) (tags : List Tag) (method : String) (response : Response) :
    SignerM Outcome := do
  let text := ext.renderJson response.toJson
  let encrypted ← .ofExcept <|
    if useNip44 then (ext.nip44Encrypt nonce h.bunkerKeys event.pubkey text).mapError .nip44
    else (ext.nip04Encrypt nonce h.bunkerKeys event.pubkey text).mapError .nip04
  .ofExcept ((ext.publish h.bunkerKeys nostrConnectKind tags encrypted).mapError .client)
  return .sent method response

/-- The tags of the JSON event: arrays only, their strings only, empty ones skipped. -/
def parseTags (ext : External) : List Json → Except SignerError (List Tag)
  | [] => .ok []
  | .arr vs :: rest =>
    match vs.filterMap Json.asStr with
    | [] => parseTags ext rest
    | strs@(_ :: _) =>
      match ext.tagParse strs with
      | some tag => (parseTags ext rest).map (tag :: ·)
      | none => .error .tagParse
  | _ :: rest => parseTags ext rest

/-- The unsigned event of a `sign_event` request. `as u16` keeps the low 16 bits of the kind. -/
def parseSignEvent (ext : External) (h : Nip46Handler) (request : Json) :
    Except SignerError UnsignedEvent := do
  let text ← ((request.field "params").index 0).asStr.elim
    (.error (.missingParameter "event")) .ok
  let event ← (ext.parseJson text).elim (.error .json) .ok
  let kind ← (event.field "kind").asU64.elim (.error (.missingParameter "kind")) .ok
  let content ← (event.field "content").asStr.elim (.error (.missingParameter "content")) .ok
  let createdAt ← (event.field "created_at").asU64.elim
    (.error (.missingParameter "created_at")) .ok
  let tagsJson ← (event.field "tags").asArray.elim (.error (.missingParameter "tags")) .ok
  let tags ← parseTags ext tagsJson
  return { pubkey := ext.publicKey h.userKeys, createdAt, kind := kind % 65536, tags, content }

/-- `handle_sign_event`. -/
def handleSignEvent (ext : External) (h : Nip46Handler) (nonce : Nat) (request : Json) :
    SignerM Response := do
  let unsigned ← .ofExcept (parseSignEvent ext h request)
  h.validatePermissionsForSign ext unsigned
  let signed ← .ofExcept ((ext.signEvent nonce h.userKeys unsigned).mapError .eventBuilder)
  return ⟨request.field "id", .result signed⟩

/-- The third party and the text of an encrypt or decrypt request. -/
def parseCryptParams (ext : External) (textName : String) (request : Json) :
    Except SignerError (PublicKey × String) := do
  let hex ← ((request.field "params").index 0).asStr.elim
    (.error (.missingParameter "pubkey")) .ok
  let text ← ((request.field "params").index 1).asStr.elim
    (.error (.missingParameter textName)) .ok
  let pubkey ← (ext.publicKeyFromHex hex).mapError .invalidKey
  return (pubkey, text)

/-- The four crypto methods: parse, ask the policy, run the cipher. -/
def handleCrypt (ext : External) (textName : String)
    (validate : String → PublicKey → SignerM Unit)
    (cipher : PublicKey → String → Except SignerError String) (request : Json) :
    SignerM Response := do
  let (pubkey, text) ← .ofExcept (parseCryptParams ext textName request)
  validate text pubkey
  let out ← .ofExcept (cipher pubkey text)
  return ⟨request.field "id", .result out⟩

def handleNip44Encrypt (ext : External) (h : Nip46Handler) (nonce : Nat) (request : Json) :
    SignerM Response :=
  handleCrypt ext "plaintext" (h.validatePermissionsForEncrypt ext)
    (fun k t => (ext.nip44Encrypt nonce h.userKeys k t).mapError .nip44) request

def handleNip44Decrypt (ext : External) (h : Nip46Handler) (request : Json) : SignerM Response :=
  handleCrypt ext "ciphertext" (h.validatePermissionsForDecrypt ext)
    (fun k t => (ext.nip44Decrypt h.userKeys k t).mapError .nip44) request

def handleNip04Encrypt (ext : External) (h : Nip46Handler) (nonce : Nat) (request : Json) :
    SignerM Response :=
  handleCrypt ext "plaintext" (h.validatePermissionsForEncrypt ext)
    (fun k t => (ext.nip04Encrypt nonce h.userKeys k t).mapError .nip04) request

def handleNip04Decrypt (ext : External) (h : Nip46Handler) (request : Json) : SignerM Response :=
  handleCrypt ext "ciphertext" (h.validatePermissionsForDecrypt ext)
    (fun k t => (ext.nip04Decrypt h.userKeys k t).mapError .nip04) request

/-- `connect` with a secret goes through `process_connect`; without one it is acknowledged. -/
def handleConnect (ext : External) (h : Nip46Handler) (clientPubkey : PublicKey)
    (request : Json) : SignerM Response := do
  match ((request.field "params").index 1).asStr with
  | some providedSecret =>
    match ← (h.processConnect ext clientPubkey providedSecret).attempt with
    | .ok result => return ⟨request.field "id", .result result⟩
    | .error e => return ⟨request.field "id", .error e.text⟩
  | none => return ⟨request.field "id", .result "ack"⟩

/-- The methods a client has to be connected for. -/
def requiresValidation (method : String) : Bool :=
  method == "sign_event" || method == "nip44_encrypt" || method == "nip44_decrypt" ||
    method == "nip04_encrypt" || method == "nip04_decrypt"

/-- A success result for one of these methods. -/
def Outcome.sensitiveResult : Outcome → Bool
  | .sent method ⟨_, .result _⟩ => requiresValidation method
  | _ => false

def dispatch (ext : External) (h : Nip46Handler) (clientPubkey : PublicKey) (nonce : Nat)
    (method : String) (request : Json) : SignerM Response :=
  if method = "sign_event" then handleSignEvent ext h nonce request
  else if method = "get_public_key" then
    return ⟨request.field "id", .result (ext.publicKey h.userKeys)⟩
  else if method = "connect" then handleConnect ext h clientPubkey request
  else if method = "nip44_encrypt" then handleNip44Encrypt ext h nonce request
  else if method = "nip44_decrypt" then handleNip44Decrypt ext h request
  else if method = "nip04_encrypt" then handleNip04Encrypt ext h nonce request
  else if method = "nip04_decrypt" then handleNip04Decrypt ext h request
  else return ⟨request.field "id", .error ("Unsupported method: " ++ method)⟩

/-- The client gate of `handle_nip46_request`: OAuth handlers ask it for the sensitive methods,
team handlers never. -/
def clientGate (ext : External) (h : Nip46Handler) (clientPubkey : PublicKey) (method : String) :
    SignerM (Except SignerError Unit) :=
  if h.isOauth && requiresValidation method then
    (h.validateAndStoreClient ext clientPubkey).attempt
  else return .ok ()

/-- What happens once a handler for the bunker is at hand. -/
def handleWith (ext : External) (h : Nip46Handler) (event : Nip46Event) (nonce : Nat) :
    SignerM Outcome := do
  let (decrypted, useNip44) ← .ofExcept (decryptRequest ext h event)
  let request ← .orErr (ext.parseJson decrypted) .json
  let method ← .orErr (request.field "method").asStr (.missingParameter "method")
  let requestId := request.field "id"
  match h.tombstoneErrorMessage with
  | some message =>
    respond ext h event nonce useNip44 [["p", event.pubkey]] method ⟨requestId, .error message⟩
  | none =>
    let tags := [["p", event.pubkey], ["e", event.id]]
    match ← clientGate ext h event.pubkey method with
    | .error e =>
      respond ext h event nonce useNip44 tags method
        ⟨requestId, .error ("Client not authorized: " ++ e.text)⟩
    | .ok () =>
      let response ← dispatch ext h event.pubkey nonce method request
      respond ext h event nonce useNip44 tags method response

def handleNip46Request (ext : External) (event : Nip46Event) (owned : Bool) (nonce : Nat) :
    SignerM Outcome := do
  let bunker ← .orErr event.bunkerPubkey (.missingParameter "p-tag")
  if owned then
    match ← getHandler ext bunker with
    | some h => handleWith ext h event nonce
    | none => return .ignored
  else return .ignored

/-- The program of a unit of work. -/
def perform (ext : External) : Work → SignerM Outcome
  | .request event owned nonce => handleNip46Request ext event owned nonce
  | .command c => do handleCommand ext c; return .ignored
  | .cleanup => do cleanup; return .ignored

end Keycast.Signer
