import Keycast.Http.Nip98Replay
import Keycast.Http.Register
import Keycast.Http.Teams
import Keycast.Lib.Utf8

/-!
# `Http/SupportAdmins.lean` — the list of support admins

`api/src/api/http/admin.rs` keeps the support admins in a Redis set, to which `add_support_admin`
adds what an identifier resolves to, and from which `remove_support_admin` takes what it is given.
`is_support_admin` asks the set, but before that the role in the token: an admin login writes it
there, and it is believed until the token expires, whatever has become of the list. A full admin
passes in any case. An identifier in hex is stored as it was spelled, which is the user's key when
it is spelled in lower case.

A run is a sequence of calls. Beside the state it keeps the tokens that were issued, which of them
were issued to a user before that user was last removed, and what was added and removed. The
invariant (`SupportWorld.Sound`) ties these to each other: what was removed is off the list, what
was added is on it, and every token was signed with the role it was issued with, so that one with
the role `support` was issued to a user who was on the list then. What an identifier puts on the
list is said apart from the code that resolves it (`Identifies`).
-/

set_option autoImplicit false

namespace Keycast.Http

open Lib

/-- What the support admins need beside `Nip98`. -/
structure Support extends Nip98 where
  /-- `PublicKey::from_bech32`. -/
  publicKeyFromBech32 : String → Except String PublicKey

/-! ## Who asks -/

/-- A request to a route whose handler takes a `UcanAuth`. -/
structure AdminRequest where
  now : Timestamp
  tenant : TenantId
  method : String
  pathAndQuery : String
  headers : ProxyHeaders
  redis : Redis := .working
  deriving DecidableEq, Repr

/-- The rows, the Redis set and the ids of the NIP-98 events. -/
structure SupportState where
  db : Db
  admins : List String := []
  store : Cache String Timestamp := .empty

/-- `SISMEMBER`; a failure counts as no. -/
def SupportState.sismember (s : SupportState) (redis : Redis) (key : String) : Bool :=
  redis == .working && s.admins.contains key

/-- `extract_admin_role`. -/
def extractAdminRole (w : Web) (ucan : Ucan) : Option String :=
  if !isServerSigned w ucan then none else ucan.fact "admin_role" Json.asStr

/-- The part of the extractor that reads a token, from the header or the cookie. -/
def tokenAuth (w : Web) (now : Timestamp) (tenant : TenantId) (authHeader : String) :
    Except Rejection UcanAuth :=
  match validateUcanToken w now authHeader tenant with
  | .ok (pubkey, _, _, ucan) => .ok ⟨pubkey, extractAdminRole w ucan⟩
  | .error _ => .error .unauthorized

/-- The same request as the NIP-98 path sees it, before and after the list is asked for its key. -/
def AdminRequest.envelope (r : AdminRequest) (authHeader : String) : Nip98Call where
  now := r.now
  route := .ucanAuth r.method r.pathAndQuery
  headers := r.headers
  authHeader := authHeader
  redisUp := r.redis == .working

def AdminRequest.nip98Call (o : Support) (s : SupportState) (r : AdminRequest)
    (authHeader : String) : Nip98Call :=
  { r.envelope authHeader with
    supportAdmin :=
      (checkNip98 o.toNip98 (r.envelope authHeader) r.method r.pathAndQuery).toOption.any
      fun (_, pubkey) => s.admins.contains pubkey }

/-- The token of a session: the bearer token if there is one, else the cookie. -/
def ucanToken (headers : Headers) : Option String :=
  match headers.authorization with
  | some (some text) => (stripBearer text).or (extractUcanFromCookie headers)
  | _ => extractUcanFromCookie headers

def AdminRequest.token (r : AdminRequest) : Option String := ucanToken r.headers.toHeaders

/-- `UcanAuth::from_request_parts`. A `Nostr` header decides by itself. -/
def ucanAuth (o : Support) (s : SupportState) (r : AdminRequest) :
    Except Rejection UcanAuth × Cache String Timestamp :=
  let token :=
    (r.token.elim (.error .unauthorized)
      fun t => tokenAuth o.toWeb r.now r.tenant ("Bearer " ++ t), s.store)
  match r.headers.authorization with
  | some (some text) =>
    if (stripPrefix "Nostr " text).isSome then
      authenticateNip98 o.toNip98 s.store (r.nip98Call o s text) r.method r.pathAndQuery
    else token
  | _ => token

/-- `is_support_admin`, with the answer of Redis. -/
def passesSupport (o : Support) (s : SupportState) (r : AdminRequest) (auth : UcanAuth) : Bool :=
  isSupportAdmin o.toWeb auth (s.sismember r.redis auth.pubkey)

/-! ## The list -/

/-- An error of the extractor or of the handler, or a panic. -/
inductive SupportError
  | rejected (reason : Rejection)
  | api (e : ApiError)
  | panicked
  deriving DecidableEq, Repr

def isHexDigit (c : Char) : Bool := c.isDigit || ('a' ≤ c && c ≤ 'f') || ('A' ≤ c && c ≤ 'F')

/-- `resolve_identifier`. A key in hex is checked, and returned as it came. -/
def resolveIdentifier (o : Support) (db : Db) (tenant : TenantId) (identifier : String) :
    Except ApiError String :=
  if (stripPrefix "npub1" identifier).isSome then
    (o.publicKeyFromBech32 identifier).mapError fun e => .badRequest ("Invalid npub: " ++ e)
  else if identifier.utf8ByteSize = 64 && identifier.toList.all isHexDigit then
    match o.publicKeyFromHex identifier with
    | .error e => .error (.badRequest ("Invalid hex pubkey: " ++ e))
    | .ok _ => .ok identifier
  else if identifier.toList.contains '@' then
    (db.findPubkeyByEmail identifier tenant).elim
      (.error (.notFound ("No user found with email: " ++ identifier))) .ok
  else .error (.badRequest "Identifier must be an npub, 64-char hex pubkey, or email address")

/-- Redis, as the two handlers need it; the text of a failure is left out. -/
def needRedis : Redis → Except SupportError Unit
  | .working => .ok ()
  | .absent => .error (.api (.internal "Redis not available"))
  | .failing => .error (.api (.internal "Redis error"))

/-- The extractor, and the check both handlers start with. -/
def fullAdmin (o : Support) (s : SupportState) (r : AdminRequest) :
    Except SupportError UcanAuth := do
  let auth ← (ucanAuth o s r).1.mapError .rejected
  if !isFullAdmin o.toWeb auth then .error (.api (.forbidden "Full admin access required"))
  else return auth

/-- `add_support_admin` up to its `SADD`: who asks, and what is added. -/
def entryToAdd (o : Support) (s : SupportState) (r : AdminRequest) (identifier : String) :
    Except SupportError (UcanAuth × String) := do
  let auth ← fullAdmin o s r
  let identifier := String.ofList (trimmed identifier)
  if identifier.isEmpty then .error (.api (.badRequest "Identifier is required"))
  else
    let entry ← (resolveIdentifier o s.db r.tenant identifier).mapError .api
    needRedis r.redis
    return (auth, entry)

structure AddSupportAdminResponse where
  pubkey : String
  added : Bool
  deriving DecidableEq, Repr

/-- `add_support_admin`: the answer. The log line slices both keys. -/
def addSupportAdmin (o : Support) (s : SupportState) (r : AdminRequest) (identifier : String) :
    Except SupportError AddSupportAdminResponse := do
  let (auth, entry) ← entryToAdd o s r identifier
  let _ ← (sliceTo entry 8).elim (.error .panicked) .ok
  let _ ← (sliceTo auth.pubkey 8).elim (.error .panicked) .ok
  return ⟨entry, !s.admins.contains entry⟩

/-- `remove_support_admin` up to its `SREM`. -/
def mayRemove (o : Support) (s : SupportState) (r : AdminRequest) :
    Except SupportError UcanAuth := do
  let auth ← fullAdmin o s r
  needRedis r.redis
  return auth

/-- `remove_support_admin`: the answer. -/
def removeSupportAdmin (o : Support) (s : SupportState) (r : AdminRequest) (entry : String) :
    Except SupportError Bool := do
  let auth ← mayRemove o s r
  let _ ← (sliceTo entry (min 8 entry.utf8ByteSize)).elim (.error .panicked) .ok
  let _ ← (sliceTo auth.pubkey 8).elim (.error .panicked) .ok
  return s.admins.contains entry

/-! ## Tokens -/

/-- A `POST /api/auth/login` with a `Nostr` header. -/
structure AdminLogin where
  now : Timestamp
  tenant : TenantId
  headers : ProxyHeaders
  authHeader : String
  redis : Redis := .working
  deriving DecidableEq, Repr

/-- The request as `nostrAuthLogin` sees it. -/
def AdminLogin.nip98Call (o : Support) (s : SupportState) (l : AdminLogin) : Nip98Call :=
  let pubkey : Option PublicKey := do
    let url ← (buildLoginUrl o.toNip98 l.headers "/api/auth/login").toOption
    (extractAndValidate o.toNip98 l.now l.authHeader url "POST").toOption
  { now := l.now, route := .login l.tenant, headers := l.headers, authHeader := l.authHeader
    redisUp := l.redis == .working, supportAdmin := pubkey.any s.admins.contains }

/-- `nostr_auth_login`. -/
def adminLogin (o : Support) (s : SupportState) (l : AdminLogin) :
    Except AuthError (PublicKey × String) :=
  nostrAuthLogin o.toNip98 (l.nip98Call o s) l.tenant

def adminTokenExpiryDays : Int := 30

/-- `generate_admin_ucan`. -/
def generateAdminUcan (w : Web) (now : Timestamp) (user : PublicKey) (tenant : TenantId)
    (serverKeys : Keys) :
    Except String String :=
  w.signUcan serverKeys user (now / 1000000 + adminTokenExpiryDays * 24 * 3600)
    (.obj [("tenant_id", .int tenant), ("redirect_origin", .str "admin"), ("admin", .bool true),
      ("admin_role", .str "full")])

/-- The body of `get_admin_token`: the user and the token. -/
def adminTokenFor (w : Web) (now : Timestamp) (tenant : TenantId) (auth : UcanAuth) :
    Except ApiError (PublicKey × String) := do
  if !isFullAdmin w auth then .error (.forbidden "Admin access required")
  else
    let serverKeys ← w.getServerKeys.mapError .internal
    let user ← (w.publicKeyFromHex auth.pubkey).mapError fun e =>
      .badRequest ("Invalid pubkey: " ++ e)
    let token ← (generateAdminUcan w now user tenant serverKeys).mapError .internal
    return (user, token)

/-- `get_admin_token`. -/
def getAdminToken (o : Support) (s : SupportState) (r : AdminRequest) :
    Except SupportError (PublicKey × String) := do
  let auth ← (ucanAuth o s r).1.mapError .rejected
  (adminTokenFor o.toWeb r.now r.tenant auth).mapError .api

/-! ## Runs -/

inductive SupportCall
  | add (r : AdminRequest) (identifier : String)
  | remove (r : AdminRequest) (entry : String)
  | login (l : AdminLogin)
  | adminToken (r : AdminRequest)
  /-- Any other token of `generate_server_signed_ucan`; all its other callers pass no role. -/
  | session (now : Timestamp) (user : PublicKey) (tenant : TenantId) (email origin : String)
    (bunker : Option PublicKey)
      (isFirstParty : Bool) (lifetime : Nat)
  | preload (now : Timestamp) (user : PublicKey) (tenant : TenantId) (admin : PublicKey)
  /-- A route that `is_support_admin` guards. -/
  | request (r : AdminRequest)
  /-- The users register, change their emails, and so on. -/
  | users (db : Db)

/-- A token the server has signed, and whether the user was taken off the list since. -/
structure IssuedToken where
  token : String
  user : PublicKey
  role : Option String
  outdated : Bool := false
  deriving DecidableEq, Repr

structure SupportWorld where
  state : SupportState
  issued : List IssuedToken := []
  added : List String := []
  removed : List String := []

/-- What a call adds to the set. -/
def storedBy (o : Support) (s : SupportState) : SupportCall → Option String
  | .add r identifier => (entryToAdd o s r identifier).toOption.map (·.2)
  | _ => none

/-- What a call takes from the set. -/
def takenBy (o : Support) (s : SupportState) : SupportCall → Option String
  | .remove r entry => (mayRemove o s r).toOption.map fun _ => entry
  | _ => none

/-- The token a call answers with. -/
def issuedBy (o : Support) (s : SupportState) : SupportCall → Option IssuedToken
  | .login l => (adminLogin o s l).toOption.map fun (user, token) =>
    ⟨token, user, (l.nip98Call o s).adminRole o.toNip98 user, false⟩
  | .adminToken r => (getAdminToken o s r).toOption.map fun (user, token) =>
    ⟨token, user, some "full", false⟩
  | .session now user tenant email origin bunker isFirstParty lifetime => do
    let serverKeys ← o.getServerKeys.toOption
    let token
      ← (generateServerSignedUcan o.toWeb now user tenant email origin bunker serverKeys
        isFirstParty none
      lifetime).toOption
    return ⟨token, user, none, false⟩
  | .preload now user tenant admin => do
    let serverKeys ← o.getServerKeys.toOption
    let token ← (generatePreloadUcan o.toWeb now user tenant serverKeys admin).toOption
    return ⟨token, user, none, false⟩
  | _ => none

def supportState (o : Support) (s : SupportState) (c : SupportCall) : SupportState where
  db :=
    match c with
    | .users db => db
    | _ => s.db
  admins := (storedBy o s c).toList ++ s.admins.filter fun e => some e != takenBy o s c
  store :=
    match c with
    | .add r _ | .remove r _ | .adminToken r | .request r => (ucanAuth o s r).2
    | _ => s.store

def supportStep (o : Support) (x : SupportWorld) (c : SupportCall) : SupportWorld where
  state := supportState o x.state c
  issued := (issuedBy o x.state c).toList ++ x.issued.map fun m =>
    { m with outdated := m.outdated || some m.user == takenBy o x.state c }
  added := (storedBy o x.state c).toList ++ x.added.filter fun e => some e != takenBy o x.state c
  removed :=
    (takenBy o x.state c).toList ++ x.removed.filter fun e => some e != storedBy o x.state c

/-! ## Whose identifier it is -/

def isLowerHexDigit (c : Char) : Bool := c.isDigit || ('a' ≤ c && c ≤ 'f')

/-- What names a user to `add_support_admin`: the npub, the key in lower-case hex, or the email as
it is stored with the tenant. A key is written in lower case, so that the second is the key
itself. -/
inductive Identifies (o : Support) (db : Db) (tenant : TenantId) : String → PublicKey → Prop
  | npub {text : String} {user : PublicKey} (hnpub : (stripPrefix "npub1" text).isSome = true)
      (hkey : o.publicKeyFromBech32 text = .ok user) : Identifies o db tenant text user
  | hex {user : PublicKey} (hlength : user.utf8ByteSize = 64)
    (hdigits : user.toList.all isLowerHexDigit = true)
      (hkey : o.publicKeyFromHex user = .ok user) : Identifies o db tenant user user
  | email {text : String} (row : User) (hnpub : (stripPrefix "npub1" text).isSome = false)
      (hat : '@' ∈ text.toList) (hrow : row ∈ db.users) (hstored : row.email = some text)
      (htenant : row.tenantId = tenant)
      (honly : ∀ row' ∈ db.users, row'.email = some text → row'.tenantId = tenant → row' = row) :
      Identifies o db tenant text row.pubkey

/-! ## What is asked, and what the code does -/

/-- A user that was removed, and not added again, does not pass. -/
def RemovedLoseRights (o : Support) (x : SupportWorld) : SupportCall → Prop
  | .request r => ∀ auth, (ucanAuth o x.state r).1 = .ok auth → auth.pubkey ∈ x.removed →
      passesSupport o x.state r auth = false
  | _ => True

/-- The list follows what is asked of it: an identifier that is added puts the user it names on it,
and an entry that is removed is off it. And the rights follow the list. A user that was removed, and
not added again, passes as a full admin or with the token of an admin login before the removal. A
user that was added, and not removed since, passes while Redis answers, and with the token of an
admin login in any case. -/
def RightsFollowList (o : Support) (x : SupportWorld) : SupportCall → Prop
  | .add r identifier => ∀ response, addSupportAdmin o x.state r identifier = .ok response →
      ∀ user, Identifies o x.state.db r.tenant (String.ofList (trimmed identifier)) user →
        response.pubkey = user ∧
          user ∈ (supportStep o x (.add r identifier)).state.admins ∧
          user ∈ (supportStep o x (.add r identifier)).added ∧
          user ∉ (supportStep o x (.add r identifier)).removed
  | .remove r entry => ∀ was, removeSupportAdmin o x.state r entry = .ok was →
      (was = true ↔ entry ∈ x.state.admins) ∧
        entry ∉ (supportStep o x (.remove r entry)).state.admins ∧
        entry ∉ (supportStep o x (.remove r entry)).added ∧
        entry ∈ (supportStep o x (.remove r entry)).removed
  | .request r => ∀ auth, (ucanAuth o x.state r).1 = .ok auth →
      (auth.pubkey ∈ x.removed → passesSupport o x.state r auth = true →
        isFullAdmin o.toWeb auth = true ∨
        ∃ m ∈ x.issued, r.token = some m.token ∧ m.user = auth.pubkey ∧ m.role = some "support" ∧
          m.outdated = true) ∧
      (auth.pubkey ∈ x.added →
        (r.redis = .working ∨ ∃ m ∈ x.issued, r.token = some m.token ∧ m.role.isSome = true) →
        passesSupport o x.state r auth = true)
  | _ => True

/-- What is used of the token library: a token it signed is read back as it was written. -/
def ReadsAsSigned (w : Web) : Prop :=
  ∀ keys audience exp facts token, w.signUcan keys audience exp facts = .ok token → ∀ ucan,
    w.decodeToken token = some ucan →
      ucan.issuer = some (w.publicKey keys) ∧ ucan.audience = some audience ∧ ucan.facts = [facts]

/-- **The server's key is not forged**: a token that is signed by the server is one it has
issued. -/
def RoleUnforged (o : Support) (x : SupportWorld) : SupportCall → Prop
  | .request r =>
    ∀ token ∈ r.token, ∀ ucan, o.decodeToken token = some ucan → o.checkSignature token = true →
      isServerSigned o.toWeb ucan = true → ∃ m ∈ x.issued, m.token = token
  | _ => True

/-! ## What the list is given -/

section Listed

variable {o : Support} {db : Db} {tenant : TenantId} {text : String} {user : PublicKey}

theorem isHexDigit_of_lower {c : Char} (h : isLowerHexDigit c = true) : isHexDigit c = true := by
  unfold isHexDigit
  rw [Bool.or_eq_true]
  exact .inl h

/-- An identifier resolves to the user it names. -/
theorem resolveIdentifier_of_identifies (h : Identifies o db tenant text user) :
    resolveIdentifier o db tenant text = .ok user := by
  unfold resolveIdentifier
  cases h with
  | npub hnpub hkey => rw [if_pos hnpub, hkey]; rfl
  | hex hlength hdigits hkey =>
    have hhex : text.toList.all isHexDigit = true := by
      rw [List.all_eq_true] at hdigits ⊢
      exact fun c hc => isHexDigit_of_lower (hdigits c hc)
    -- the `n` of an npub is no hex digit
    have hnpub : ¬ (stripPrefix "npub1" text).isSome = true := by
      intro hsome
      unfold stripPrefix at hsome
      split at hsome
      · next hpre =>
        have hn : 'n' ∈ text.toList := (List.isPrefixOf_iff_prefix.mp hpre).subset (by decide)
        exact absurd (List.all_eq_true.mp hhex 'n' hn) (by decide)
      · cases hsome
    rw [if_neg hnpub, if_pos (by simp [hlength, hhex]), hkey]
  | email row hnpub hat hrow hstored htenant honly =>
    have hnothex : text.toList.all isHexDigit = false := by
      rw [List.all_eq_false]
      exact ⟨'@', hat, by decide⟩
    have hfound : db.findPubkeyByEmail text tenant = some row.pubkey := by
      unfold Db.findPubkeyByEmail
      rw [find?_eq_some_of_unique hrow (by simp [hstored, htenant]) fun row' hrow' hq => ?_]
      · rfl
      · simp only [Bool.and_eq_true, beq_iff_eq] at hq
        exact honly row' hrow' hq.1 hq.2
    rw [if_neg (by simp [hnpub]), if_neg (by simp [hnothex]),
      if_pos (List.contains_iff_mem.mpr hat), hfound]
    rfl

variable {x : SupportWorld} {r : AdminRequest} {identifier entry : String}

/-- What a call of `add_support_admin` that succeeds has added. -/
theorem addSupportAdmin_stores {response : AddSupportAdminResponse}
    (h : addSupportAdmin o x.state r identifier = .ok response)
    (huser : Identifies o x.state.db r.tenant (String.ofList (trimmed identifier)) user) :
    response.pubkey = user ∧ storedBy o x.state (.add r identifier) = some user := by
  obtain ⟨⟨auth, entry⟩, hentry, h⟩ := bind_eq_ok.mp h
  obtain ⟨_, -, h⟩ := bind_eq_ok.mp h
  obtain ⟨_, -, h⟩ := bind_eq_ok.mp h
  cases h
  have hstored : storedBy o x.state (.add r identifier) = some entry :=
    congrArg (fun e => e.toOption.map Prod.snd) hentry
  obtain ⟨auth', -, hentry⟩ := bind_eq_ok.mp hentry
  dsimp only at hentry
  split at hentry
  · cases hentry
  obtain ⟨entry', hresolved, hentry⟩ := bind_eq_ok.mp hentry
  obtain ⟨_, -, hentry⟩ := bind_eq_ok.mp hentry
  cases hentry
  rw [mapError_eq_ok, resolveIdentifier_of_identifies huser] at hresolved
  cases hresolved
  exact ⟨rfl, hstored⟩

/-- What a call of `remove_support_admin` that succeeds has removed. -/
theorem removeSupportAdmin_takes {was : Bool} (h : removeSupportAdmin o x.state r entry = .ok was) :
    was = x.state.admins.contains entry ∧ takenBy o x.state (.remove r entry) = some entry := by
  obtain ⟨auth, hauth, h⟩ := bind_eq_ok.mp h
  obtain ⟨_, -, h⟩ := bind_eq_ok.mp h
  obtain ⟨_, -, h⟩ := bind_eq_ok.mp h
  cases h
  exact ⟨rfl, congrArg (fun e => e.toOption.map fun _ => entry) hauth⟩

/-- What is stored is on the list and in the log, and what is taken is in neither. -/
theorem stored_listed {c : SupportCall} (h : storedBy o x.state c = some entry) :
    entry ∈ (supportStep o x c).state.admins ∧ entry ∈ (supportStep o x c).added := by
  simp [supportStep, supportState, h]

theorem taken_unlisted {c : SupportCall} (hstored : storedBy o x.state c = none)
    (h : takenBy o x.state c = some entry) :
    entry ∉ (supportStep o x c).state.admins ∧ entry ∉ (supportStep o x c).added ∧
      entry ∈ (supportStep o x c).removed := by
  simp [supportStep, supportState, hstored, h]

theorem stored_unremoved {c : SupportCall} (htaken : takenBy o x.state c = none)
    (h : storedBy o x.state c = some entry) : entry ∉ (supportStep o x c).removed := by
  simp [supportStep, htaken, h]

end Listed

/-! ## Where a role comes from -/

section Roles

variable {o : Support} {s : SupportState} {r : AdminRequest} {auth : UcanAuth}

theorem tokenAuth_ok {w : Web} {now : Timestamp} {tenant : TenantId} {token : String}
    (h : tokenAuth w now tenant ("Bearer " ++ token) = .ok auth) :
    ∃ ucan : Ucan, ucan.Accepted w now tenant token auth.pubkey ∧
      auth.adminRole = extractAdminRole w ucan := by
  unfold tokenAuth at h
  split at h
  · next pubkey origin bunker ucan hvalid =>
    cases h
    obtain ⟨⟨token', htoken, haccepted⟩, -⟩ := validateUcanToken_accepted hvalid
    rw [stripBearer_append] at htoken
    cases htoken
    exact ⟨ucan, haccepted, rfl⟩
  · cases h

/-- A `Nostr` header is looked up in the list; a token says it itself. -/
theorem ucanAuth_ok (h : (ucanAuth o s r).1 = .ok auth) :
    (r.redis = .working ∧ (auth.adminRole = some "support" → auth.pubkey ∈ s.admins)) ∨
      ∃ token, ∃ ucan : Ucan, r.token = some token ∧
        ucan.Accepted o.toWeb r.now r.tenant token auth.pubkey ∧
        auth.adminRole = extractAdminRole o.toWeb ucan := by
  have htoken :
    r.token.elim (.error .unauthorized)
      (fun t => tokenAuth o.toWeb r.now r.tenant ("Bearer " ++ t)) =
      .ok auth → ∃ token, ∃ ucan : Ucan, r.token = some token ∧
        ucan.Accepted o.toWeb r.now r.tenant token auth.pubkey ∧
          auth.adminRole = extractAdminRole o.toWeb ucan := by
    intro h
    cases ht : r.token with
    | none =>
      rw [ht] at h
      cases h
    | some token =>
      rw [ht] at h
      obtain ⟨ucan, haccepted, hrole⟩ := tokenAuth_ok h
      exact ⟨token, ucan, rfl, haccepted, hrole⟩
  unfold ucanAuth at h
  split at h
  case h_2 => exact .inr (htoken h)
  next text _ =>
  split at h
  case isFalse => exact .inr (htoken h)
  left
  cases hcheck : checkNip98 o.toNip98 (r.nip98Call o s text) r.method r.pathAndQuery with
  | error e =>
    rw [authenticateNip98, hcheck] at h
    cases h
  | ok p =>
    obtain ⟨e, pubkey⟩ := p
    rw [authenticateNip98_eq hcheck] at h
    split at h
    case isFalse => cases h
    next hup =>
    split at h
    case isTrue => cases h
    cases h
    refine ⟨beq_iff_eq.mp hup, fun hrole => ?_⟩
    -- the check of the envelope does not ask the list
    have henvelope : checkNip98 o.toNip98 (r.envelope text) r.method r.pathAndQuery =
      .ok (e, pubkey) := hcheck
    have hlisted : (r.nip98Call o s text).supportAdmin = s.admins.contains pubkey := by
      unfold AdminRequest.nip98Call
      rw [henvelope]
      rfl
    simp only [Nip98Call.adminRole, hlisted] at hrole
    split at hrole
    · exact absurd hrole (by decide)
    split at hrole
    · next hboth => exact List.contains_iff_mem.mp (Bool.and_eq_true_iff.mp hboth).2
    · cases hrole

/-- The role a token was issued with is the role it is read with. -/
theorem extractAdminRole_eq (hread : ReadsAsSigned o.toWeb) {keys : Keys} {user : PublicKey}
    {exp : Int} {facts : Json}
    {token : String} {ucan : Ucan} (hkeys : o.getServerKeys = .ok keys)
    (hsigned : o.signUcan keys user exp facts = .ok token)
    (hdecoded : o.decodeToken token = some ucan) :
    ucan.audience = some user ∧
      extractAdminRole o.toWeb ucan = (facts.field "admin_role").asStr := by
  obtain ⟨hissuer, haudience, hfacts⟩ := hread keys user exp facts token hsigned ucan hdecoded
  refine ⟨haudience, ?_⟩
  have hserver : isServerSigned o.toWeb ucan = true := by
    simp [isServerSigned, hissuer, Web.serverPubkey, hkeys, Except.toOption]
  simp [extractAdminRole, hserver, Ucan.fact, hfacts]

end Roles

/-! ## Every run -/

/-- A token of the log was signed by the server for its user, with its role. A user that is off the
list has no token with the role but outdated ones. -/
structure IssuedToken.Sound (o : Support) (removed : List String) (m : IssuedToken) : Prop where
  signed : ∃ keys exp facts, o.getServerKeys = .ok keys ∧
    o.signUcan keys m.user exp facts = .ok m.token ∧
    (facts.field "admin_role").asStr = m.role
  role : ∀ role, m.role = some role → role = "full" ∨ role = "support"
  outdated : m.role = some "support" → m.user ∈ removed → m.outdated = true

structure SupportWorld.Sound (o : Support) (x : SupportWorld) : Prop where
  off : ∀ e ∈ x.removed, e ∉ x.state.admins
  on : ∀ e ∈ x.added, e ∈ x.state.admins
  issued : ∀ m ∈ x.issued, m.Sound o x.removed

section Steps

variable {o : Support} {x : SupportWorld}

/-- The facts of a server-signed token say its role. -/
theorem fact_role (tenant : TenantId) (email origin : String) (bunker : Option PublicKey)
    (isFirstParty : Bool)
    (role : Option String) :
    ((Json.obj ([("tenant_id", Json.int tenant), ("email", .str email),
      ("redirect_origin", .str origin)] ++
      (bunker.map fun b => ("bunker_pubkey", Json.str b)).toList ++
      (if isFirstParty then [("first_party", Json.bool true)] else []) ++
      (role.map fun r => ("admin_role", Json.str r)).toList)).field "admin_role").asStr = role := by
  cases bunker <;> cases isFirstParty <;> cases role <;> rfl

/-- What an admin login issues. -/
theorem adminLogin_ok {s : SupportState} {l : AdminLogin} {user : PublicKey} {token : String}
    (h : adminLogin o s l = .ok (user, token)) :
    (∃ keys exp facts, o.getServerKeys = .ok keys ∧ o.signUcan keys user exp facts = .ok token ∧
      (facts.field "admin_role").asStr = (l.nip98Call o s).adminRole o.toNip98 user) ∧
      ((l.nip98Call o s).adminRole o.toNip98 user = some "support" → user ∈ s.admins) := by
  obtain ⟨url, hurl, h⟩ := bind_eq_ok.mp h
  obtain ⟨pubkey, hpubkey, h⟩ := bind_eq_ok.mp h
  obtain ⟨role, hrole, h⟩ := bind_eq_ok.mp h
  obtain ⟨origin, -, h⟩ := bind_eq_ok.mp h
  obtain ⟨keys, hkeys, h⟩ := bind_eq_ok.mp h
  obtain ⟨token', htoken, h⟩ := bind_eq_ok.mp h
  cases h
  rw [elim_eq_ok] at hrole
  rw [mapError_eq_ok] at hpubkey hkeys htoken
  refine ⟨⟨keys, _, _, hkeys, htoken, ?_⟩, fun hsupport => ?_⟩
  · rw [fact_role, hrole]
  · have hlisted : (l.nip98Call o s).supportAdmin = s.admins.contains user := by
      have hurl' : buildLoginUrl o.toNip98 l.headers "/api/auth/login" = .ok url := hurl
      have hpubkey' : extractAndValidate o.toNip98 l.now l.authHeader url "POST" = .ok user :=
        hpubkey
      simp [AdminLogin.nip98Call, hurl', hpubkey', Except.toOption]
    simp only [Nip98Call.adminRole, hlisted] at hsupport
    split at hsupport
    · exact absurd hsupport (by decide)
    split at hsupport
    · next hboth => exact List.contains_iff_mem.mp (Bool.and_eq_true_iff.mp hboth).2
    · cases hsupport

/-- The token is for the caller, who is a full admin. -/
theorem adminTokenFor_ok {w : Web} {now : Timestamp} {tenant : TenantId} {auth : UcanAuth}
    {user : PublicKey} {token : String} (h : adminTokenFor w now tenant auth = .ok (user, token)) :
    ∃ keys, isFullAdmin w auth = true ∧ w.getServerKeys = .ok keys ∧
      w.publicKeyFromHex auth.pubkey = .ok user ∧
      generateAdminUcan w now user tenant keys = .ok token := by
  unfold adminTokenFor at h
  split at h
  · cases h
  next hfull =>
  obtain ⟨keys, hkeys, h⟩ := bind_eq_ok.mp h
  obtain ⟨user', huser, h⟩ := bind_eq_ok.mp h
  obtain ⟨token', htoken, h⟩ := bind_eq_ok.mp h
  cases h
  rw [mapError_eq_ok] at hkeys huser htoken
  exact ⟨keys, by simpa using hfull, hkeys, huser, htoken⟩

theorem issuedBy_sound (h : x.Sound o) {c : SupportCall} {m : IssuedToken}
    (hm : issuedBy o x.state c = some m) :
    m.Sound o x.removed := by
  cases c with
  | login l =>
    obtain ⟨⟨user, token⟩, hlogin, rfl⟩ := Option.map_eq_some_iff.mp hm
    obtain ⟨hsigned, hlisted⟩ := adminLogin_ok (toOption_eq_some.mp hlogin)
    refine ⟨hsigned, fun role hrole => ?_,
      fun hrole hremoved => absurd (hlisted hrole) (h.off user hremoved)⟩
    simp only [Nip98Call.adminRole] at hrole
    split at hrole
    · exact .inl (Option.some.inj hrole).symm
    split at hrole
    · exact .inr (Option.some.inj hrole).symm
    · cases hrole
  | adminToken r =>
    obtain ⟨⟨user, token⟩, htoken, rfl⟩ := Option.map_eq_some_iff.mp hm
    obtain ⟨auth, -, htoken⟩ := bind_eq_ok.mp (toOption_eq_some.mp htoken)
    obtain ⟨keys, -, hkeys, -, hsigned⟩ := adminTokenFor_ok (mapError_eq_ok.mp htoken)
    refine ⟨⟨keys, _, _, hkeys, hsigned, rfl⟩, fun role hrole => .inl (Option.some.inj hrole).symm,
      fun hrole => ?_⟩
    exact absurd (show some "full" = some "support" from hrole) (by decide)
  | session now user tenant email origin bunker isFirstParty lifetime =>
    obtain ⟨keys, hkeys, hm⟩ := Option.bind_eq_some_iff.mp hm
    obtain ⟨token, htoken, hm⟩ := Option.bind_eq_some_iff.mp hm
    cases hm
    rw [toOption_eq_some] at hkeys htoken
    exact ⟨⟨keys, _, _, hkeys, htoken, fact_role tenant email origin bunker isFirstParty none⟩,
      nofun, nofun⟩
  | preload now user tenant admin =>
    obtain ⟨keys, hkeys, hm⟩ := Option.bind_eq_some_iff.mp hm
    obtain ⟨token, htoken, hm⟩ := Option.bind_eq_some_iff.mp hm
    cases hm
    rw [toOption_eq_some] at hkeys htoken
    exact ⟨⟨keys, _, _, hkeys, htoken, rfl⟩, nofun, nofun⟩
  | add | remove | request | users => cases hm

/-- A call adds or removes, never both. -/
theorem storedBy_or_takenBy (o : Support) (s : SupportState) (c : SupportCall) :
    storedBy o s c = none ∨ takenBy o s c = none := by
  cases c with
  | remove => exact .inl rfl
  | add | login | adminToken | session | preload | request | users => exact .inr rfl

theorem SupportWorld.Sound.step (h : x.Sound o) (c : SupportCall) :
    (supportStep o x c).Sound o where
  off e he hin := by
    rcases List.mem_append.mp he with he | he
    · -- what was taken just now
      rw [Option.mem_toList] at he
      rcases List.mem_append.mp hin with hin | hin
      · rw [Option.mem_toList] at hin
        rcases storedBy_or_takenBy o x.state c with hnone | hnone
        · rw [hnone] at hin
          cases hin
        · rw [hnone] at he
          cases he
      · have hne := (List.mem_filter.mp hin).2
        rw [he] at hne
        simp at hne
    · obtain ⟨he, hne⟩ := List.mem_filter.mp he
      rcases List.mem_append.mp hin with hin | hin
      · rw [Option.mem_toList] at hin
        rw [hin] at hne
        simp at hne
      · exact h.off e he (List.mem_filter.mp hin).1
  on e he := by
    rcases List.mem_append.mp he with he | he
    · exact List.mem_append_left _ he
    · obtain ⟨he, hne⟩ := List.mem_filter.mp he
      exact List.mem_append_right _ (List.mem_filter.mpr ⟨h.on e he, hne⟩)
  issued m hm := by
    -- a user that is off the list now was so before, or has just been taken off
    have hremoved : ∀ e, e ∈ (supportStep o x c).removed → e ∈ x.removed ∨
      some e = takenBy o x.state c := by
      intro e he
      rcases List.mem_append.mp he with he | he
      · rw [Option.mem_toList] at he
        exact .inr he.symm
      · exact .inl (List.mem_filter.mp he).1
    rcases List.mem_append.mp hm with hm | hm
    · rw [Option.mem_toList] at hm
      have hsound := issuedBy_sound h hm
      refine ⟨hsound.signed, hsound.role, fun hrole hoff => ?_⟩
      rcases hremoved m.user hoff with hoff | htaken
      · exact hsound.outdated hrole hoff
      · -- a removal issues no token
        cases c with
        | remove => cases hm
        | add | login | adminToken | session | preload | request | users => cases htaken
    · obtain ⟨m, hmem, rfl⟩ := List.mem_map.mp hm
      have hsound := h.issued m hmem
      refine ⟨hsound.signed, hsound.role, fun hrole hoff => ?_⟩
      rcases hremoved m.user hoff with hoff | htaken
      · show (m.outdated || _) = true
        rw [hsound.outdated hrole hoff, Bool.true_or]
      · show (m.outdated || some m.user == takenBy o x.state c) = true
        rw [htaken, beq_self_eq_true, Bool.or_true]

/-- A token of the log is read with the role it was issued with. -/
theorem SupportWorld.Sound.read (h : x.Sound o) (hread : ReadsAsSigned o.toWeb) {m : IssuedToken}
    (hm : m ∈ x.issued)
    {ucan : Ucan} (hdecoded : o.decodeToken m.token = some ucan) :
    ucan.audience = some m.user ∧ extractAdminRole o.toWeb ucan = m.role := by
  obtain ⟨keys, exp, facts, hkeys, hsigned, hrole⟩ := (h.issued m hm).signed
  obtain ⟨haudience, heq⟩ := extractAdminRole_eq hread hkeys hsigned hdecoded
  exact ⟨haudience, heq.trans hrole⟩

theorem SupportWorld.Sound.follows (hread : ReadsAsSigned o.toWeb) (h : x.Sound o) {c : SupportCall}
    (hunforged : RoleUnforged o x c) : RightsFollowList o x c := by
  cases c with
  | login | adminToken | session | preload | users => trivial
  | add r identifier =>
    intro response hadd user huser
    obtain ⟨hpubkey, hstored⟩ := addSupportAdmin_stores hadd huser
    obtain ⟨hlisted, hadded⟩ := stored_listed hstored
    exact ⟨hpubkey, hlisted, hadded, stored_unremoved rfl hstored⟩
  | remove r entry =>
    intro was hremove
    obtain ⟨rfl, htaken⟩ := removeSupportAdmin_takes hremove
    exact ⟨List.contains_iff_mem, taken_unlisted rfl htaken⟩
  | request r =>
    intro auth hauth
    constructor
    · intro hremoved hpasses
      have hoff := h.off auth.pubkey hremoved
      simp only [passesSupport, isSupportAdmin, SupportState.sismember, Bool.or_eq_true, beq_iff_eq,
        Bool.and_eq_true] at hpasses
      rcases hpasses with (hfull | hrole) | ⟨-, hlisted⟩
      · exact .inl hfull
      · rcases ucanAuth_ok hauth with ⟨-, hsupport⟩ | ⟨token, ucan, htoken, haccepted, hread'⟩
        · exact absurd (hsupport hrole) hoff
        rw [hrole] at hread'
        -- only a token the server signed has a role
        have hserver : isServerSigned o.toWeb ucan = true := by
          by_contra hnot
          simp [extractAdminRole, hnot] at hread'
        obtain ⟨m, hm, rfl⟩ :=
          hunforged token htoken ucan haccepted.decoded haccepted.signature hserver
        obtain ⟨haudience, heq⟩ := h.read hread hm haccepted.decoded
        have huser : m.user = auth.pubkey :=
          Option.some.inj (haudience.symm.trans haccepted.audience)
        have hm' : m.role = some "support" := heq.symm.trans hread'.symm
        exact .inr ⟨m, hm, htoken, huser, hm', (h.issued m hm).outdated hm' (huser ▸ hremoved)⟩
      · exact absurd (List.contains_iff_mem.mp hlisted) hoff
    · intro hadded hhow
      have hlisted : r.redis = .working → passesSupport o x.state r auth = true := by
        intro hworking
        have hin := h.on auth.pubkey hadded
        simp [passesSupport, isSupportAdmin, SupportState.sismember, hworking, hin]
      rcases hhow with hworking | ⟨m, hm, htoken, hrole⟩
      · exact hlisted hworking
      rcases ucanAuth_ok hauth with ⟨hworking, -⟩ | ⟨token, ucan, htoken', haccepted, hread'⟩
      · exact hlisted hworking
      obtain rfl : m.token = token := Option.some.inj (htoken.symm.trans htoken')
      obtain ⟨-, heq⟩ := h.read hread hm haccepted.decoded
      obtain ⟨role, hrole⟩ := Option.isSome_iff_exists.mp hrole
      rw [heq, hrole] at hread'
      rcases (h.issued m hm).role role hrole with rfl | rfl
      · simp [passesSupport, isSupportAdmin, isFullAdmin, hread']
      · simp [passesSupport, isSupportAdmin, hread']

end Steps

/-- **Support-admin rights follow the list**, and the list what is added and removed, but for full
admins and for what an admin login has written into a token. -/
theorem support_rights_follow_list {o : Support} (hread : ReadsAsSigned o.toWeb) (s : SupportState)
    (calls : List SupportCall)
    (hunforged : Along (supportStep o) (RoleUnforged o) ⟨s, [], [], []⟩ calls) :
    Along (supportStep o) (RightsFollowList o) ⟨s, [], [], []⟩ calls :=
  along_of_invariant (fun _ c (h : SupportWorld.Sound o _) _ => h.step c)
    (fun _ _ h hc => h.follows hread hc)
    ⟨nofun, nofun, nofun⟩ hunforged

/-! A full admin adds a user, who logs in and is removed again. -/

def helper : PublicKey := String.ofList (List.replicate 64 'a')

def helperUcan : Ucan where
  issuer := some "pub:server"
  audience := some helper
  exp := some 90000
  facts := [.obj [("tenant_id", .int 1), ("email", .str "admin"),
    ("redirect_origin", .str "https://login.example"),
    ("admin_role", .str "support")]]

def chiefUcan : Ucan :=
  ⟨some "the chief", some "the chief", none,
    [.obj [("tenant_id", .int 1), ("redirect_origin", .str "https://login.example")]]⟩

def helperOwnUcan : Ucan :=
  ⟨some helper, some helper, none,
    [.obj [("tenant_id", .int 1), ("redirect_origin", .str "https://login.example")]]⟩

/-- The library knows the session of the admin login and two that users have signed themselves. -/
def supportWeb : Web :=
  { Web.symbolic [("role", helperUcan), ("chief", chiefUcan), ("own", helperOwnUcan)] [] with
    allowedPubkeys := some "the chief"
    publicKeyFromHex := fun s => .ok (String.ofList (s.toList.map Char.toLower))
    signUcan := fun keys audience _ facts =>
      match keys, facts with
      | "server", .obj [("tenant_id", .int 1), ("email", .str "admin"),
          ("redirect_origin", .str "https://login.example"), ("admin_role", .str "support")] =>
        if audience = helper then .ok "role" else .error "not in this run"
      | _, _ => .error "not in this run" }

def support : Support where
  toWeb := supportWeb
  base64Decode _ := .ok []
  checkUtf8 _ := .ok ()
  eventFromJson _ :=
    .ok { adminEvent "https://login.example/api/auth/login" "POST" with pubkey := helper }
  verifyEvent _ := true
  publicKeyFromBech32 s := if s = "npub1chief" then .ok "the chief" else .ok helper

theorem support_readsAsSigned : ReadsAsSigned support.toWeb := by
  intro keys audience exp facts token hsign ucan hdecode
  simp only [support, supportWeb] at hsign
  split at hsign
  case h_2 => cases hsign
  split at hsign
  case isFalse => cases hsign
  next haudience =>
  cases hsign
  cases hdecode
  exact ⟨by decide, congrArg some haudience.symm, rfl⟩

def adminAsks (token : String) : AdminRequest where
  now := 1000000000
  tenant := 1
  method := "GET"
  pathAndQuery := "/api/admin/users"
  headers := { authorization := some (some ("Bearer " ++ token)) }

def helperLogin : AdminLogin := ⟨1000000000, 1, adminHeaders, "Nostr x", .working⟩

def addedAndRemoved : List SupportCall :=
  [.add (adminAsks "chief") "npub1helper", .login helperLogin, .request (adminAsks "role"),
    .remove (adminAsks "chief") helper,
    .request (adminAsks "own"), .request (adminAsks "role")]

def supportAfter (calls : List SupportCall) : SupportWorld :=
  run (supportStep support) ⟨⟨{}, [], .empty⟩, [], [], []⟩ calls

theorem roleUnforged_of_issued {x : SupportWorld} {r : AdminRequest}
    (h : ∀ token ∈ r.token, ∀ ucan ∈ support.decodeToken token,
      isServerSigned support.toWeb ucan = true → x.issued.any (·.token == token) = true) :
    RoleUnforged support x (.request r) := by
  intro token htoken ucan hdecode _ hserver
  obtain ⟨m, hm, heq⟩ := List.any_eq_true.mp (h token htoken ucan hdecode hserver)
  exact ⟨m, hm, beq_iff_eq.mp heq⟩

theorem support_rights_follow_list_removed :
    (addSupportAdmin support (supportAfter []).state (adminAsks "chief") "npub1helper" =
      .ok ⟨helper, true⟩ ∧
        Identifies support (supportAfter []).state.db 1 "npub1helper" helper) ∧
      removeSupportAdmin support (supportAfter (addedAndRemoved.take 3)).state (adminAsks "chief")
        helper = .ok true ∧
      ((ucanAuth support (supportAfter (addedAndRemoved.take 4)).state
        (adminAsks "own")).1.toOption.map
        (passesSupport support (supportAfter (addedAndRemoved.take 4)).state (adminAsks "own"))) =
          some false ∧
      ((ucanAuth support (supportAfter (addedAndRemoved.take 2)).state
        (adminAsks "role")).1.toOption.map
        (passesSupport support (supportAfter (addedAndRemoved.take 2)).state (adminAsks "role"))) =
          some true ∧
      Along (supportStep support) (RightsFollowList support) ⟨⟨{}, [], .empty⟩, [], [], []⟩
        addedAndRemoved := by
  refine ⟨⟨by decide, .npub (by decide) (by decide)⟩, by decide, by decide, by decide,
    support_rights_follow_list support_readsAsSigned _ _ ?_⟩
  refine ⟨trivial, trivial, roleUnforged_of_issued ?_, trivial, roleUnforged_of_issued ?_,
    roleUnforged_of_issued ?_,
    trivial⟩
  · decide
  · decide
  · decide

/-! The session of the admin login outlives the removal; a full admin is not on the list; and a key
in upper case is added as it is, which is nobody's. -/

def chiefRemoved : List SupportCall :=
  [.add (adminAsks "chief") "npub1chief", .remove (adminAsks "chief") "the chief",
    .request (adminAsks "chief")]

def upperCase : String := String.ofList (List.replicate 64 'A')

/-- **It happens.** -/
theorem support_rights_outlive_removal :
    ¬ Along (supportStep support) (RemovedLoseRights support) ⟨⟨{}, [], .empty⟩, [], [], []⟩
      addedAndRemoved ∧
      ¬ Along (supportStep support) (RemovedLoseRights support) ⟨⟨{}, [], .empty⟩, [], [], []⟩
        chiefRemoved ∧
      addSupportAdmin support (supportAfter []).state (adminAsks "chief") upperCase =
        .ok ⟨upperCase, true⟩ ∧
      ((ucanAuth support (supportAfter [.add (adminAsks "chief") upperCase]).state
        (adminAsks "own")).1.toOption.map
        (passesSupport support (supportAfter [.add (adminAsks "chief") upperCase]).state
          (adminAsks "own"))) = some false := by
  refine ⟨fun h => ?_, fun h => ?_, by decide, by decide⟩
  · have hlast :=
      along_iff_split.mp h (addedAndRemoved.take 5) _ [] rfl ⟨helper, some "support"⟩ (by decide)
      (by decide)
    exact absurd hlast (by decide)
  · have hlast :=
      along_iff_split.mp h (chiefRemoved.take 2) _ [] rfl ⟨"the chief", none⟩ (by decide)
      (by decide)
    exact absurd hlast (by decide)

end Keycast.Http
