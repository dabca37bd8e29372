import Keycast.Core.Grants
import Keycast.Http.Policy

/-!
# `Http/DirectSign.lean` — signing without a handler

`POST /api/user/sign` (`sign_event` of `api/src/api/http/auth.rs`). A token names a bunker, and so
one authorization, but this endpoint does not look at it. It asks for *an* authorization of the user
for the token's origin, and takes the policy of the row the database happens to return first. A user
has one authorization for each device, so there may be several, with different policies; and the
token's own may be revoked while another device's still counts.

`direct_sign_respects_iff` says when the answer is nevertheless that of the token's own
authorization.

The answer has two stages, the check of the policy and the signature, and no error is one of both
(`Refusal`, `KeyFailure`); so the verdict of the check can be read off the answer (`bind_inj`,
`verdict_of_answer`). With that the property, which is about answers over all tables that differ in
the order of the rows and in the user's other authorizations, becomes one about verdicts. It holds
where the rows that may be selected agree with the token's own (`OneVerdict.verdict_eq`). For the
converse the table is put in an order that has another row first, or the user's other rows are left
out (`thinned_unselected`).
-/

set_option autoImplicit false

namespace Keycast

open Lib

/-- The text of a `PermissionError`, less what comes from `serde`. -/
def PermissionError.text : PermissionError → String
  | unknownPermission identifier => "Unknown permission type: " ++ identifier
  | invalidConfig .deserialize => "Invalid permission configuration: "
  | invalidConfig (.merchantPubkey e) =>
    "Invalid permission configuration: Invalid merchant_pubkey: " ++ e

namespace Http

/-! ## The endpoint -/

/-- `get_authorization_for_origin`. -/
def getAuthorizationForOrigin (user : PublicKey) (origin : String) (tenant : TenantId) :
    Prog Stmt State AuthError (Option RowId) := do
  let policyId ← .read .findPolicyIdByOrigin fun s =>
    s.db.findPolicyIdByOrigin s.now user origin tenant
  .orErr policyId
    (.forbidden "No authorization for this origin. Create one via OAuth or /user/bunker/create")

/-- `permissions.iter().map(|p| p.to_custom_permission()).collect()`. -/
def toCustomPermissions (ext : External) (rows : List Permission) :
    Except PermissionError (List CustomPermission) :=
  rows.mapM fun p => p.toCustomPermission ext

/-- What `validate_signing_permissions` makes of the rows of a policy. -/
def checkSigning (ext : External) (rows : List Permission) (event : UnsignedEvent) :
    Except AuthError Unit := do
  let permissions ← (toCustomPermissions ext rows).mapError fun e =>
    .internal ("Failed to convert permissions: " ++ e.text)
  if permissions.isEmpty then .ok ()
  else if permissions.all (·.canSign event) then .ok ()
  else .error .invalidCredentials

/-- `validate_signing_permissions`. -/
def validateSigningPermissions (w : Web) (tenant : TenantId) (user : PublicKey) (origin : String)
    (event : UnsignedEvent) : Prog Stmt State AuthError Unit := do
  let policyId ← getAuthorizationForOrigin user origin tenant
  match policyId with
  | none => return ()
  | some policyId =>
    let rows ← .read .getPermissions fun s => s.db.getPermissions w.toExternal policyId
    let rows ← .orErr rows (.database "decode")
    .ofExcept (checkSigning w.toExternal rows event)

/-- The daemon's handlers in unified mode, and the column that tells which of a user's bunkers is
the latest. -/
structure SignerHandlers where
  get : PublicKey → Option Signer.Nip46Handler
  createdAt : RowId → Timestamp

/-- `sign_event_direct` of a NIP-46 handler. -/
def signEventDirect (ext : External) (h : Signer.Nip46Handler) (nonce : Nat) (event : UnsignedEvent)
    (s : Signer.State) : Except String String := do
  ((h.validatePermissionsForSign ext event).run s).1.mapError (·.text)
  ext.signEvent nonce h.userKeys event

/-- The slow path: the user's key, decrypted. -/
def signWithStoredKey (w : Web) (tenant : TenantId) (user : PublicKey) (nonce : Nat)
    (event : UnsignedEvent) :
    Prog Stmt State AuthError Json := do
  let encrypted ← .read .findEncryptedKey fun s => s.db.encryptedKeyForTenant user tenant
  let encrypted ← .orErr encrypted .userNotFound
  let decrypted ← .ofExcept ((w.kmsDecrypt encrypted).mapError .encryption)
  let keys ← .ofExcept ((w.secretKeyFromSlice decrypted).mapError fun e =>
    .internal ("Invalid secret key bytes: " ++ e))
  let signed ← .ofExcept
    ((w.signEvent nonce keys event).mapError fun e => .internal ("Signing failed: " ++ e))
  return w.eventValue signed

/-- What follows the check: the handler of the user's latest bunker, if the daemon has it, or the
slow path. -/
def signChecked (w : Web) (signerHandlers : Option SignerHandlers) (tenant : TenantId)
    (user : PublicKey)
    (nonce : Nat) (event : UnsignedEvent) : Prog Stmt State AuthError Json :=
  match signerHandlers with
  | none => signWithStoredKey w tenant user nonce event
  | some handlers => do
    let bunker ← .read .findLatestBunkerPubkey fun s =>
      s.db.findLatestBunkerPubkey handlers.createdAt user tenant
    match bunker.bind handlers.get with
    | none => signWithStoredKey w tenant user nonce event
    | some h => do
      let signed ← .read .signEventDirect fun s =>
        signEventDirect w.toExternal h nonce event ⟨s.db, s.now, .empty⟩
      let signed ← .ofExcept (signed.mapError fun e => .internal ("Signing failed: " ++ e))
      return w.eventValue signed

/-- `sign_event`. Of the token it uses the user and the origin; its bunker is not looked at. The
text of `serde`'s error is not given. -/
def signEvent (w : Web) (signerHandlers : Option SignerHandlers) (tenant : TenantId)
    (headers : Headers)
    (event : Json) (nonce : Nat) : Prog Stmt State AuthError Json := do
  let now ← .read .clock (·.now)
  let (user, origin, _) ← .ofExcept (extractUserAndOriginFromToken w now headers tenant)
  let unsigned ← .orErr (w.unsignedEventFromValue event) (.internal "Invalid event format: ")
  validateSigningPermissions w tenant user origin unsigned
  signChecked w signerHandlers tenant user nonce unsigned

/-! ## What decides -/

/-- What a policy says about the event; no policy allows everything. -/
def judge (w : Web) (db : Db) (event : UnsignedEvent) : Option RowId → Except AuthError Unit
  | none => .ok ()
  | some policyId => do
    let rows ← (db.getPermissions w.toExternal policyId).elim (.error (.database "decode")) .ok
    checkSigning w.toExternal rows event

/-- The rows `find_policy_id_by_origin` selects. -/
def ForOrigin (now : Timestamp) (user : PublicKey) (origin : String) (tenant : TenantId)
    (a : OAuthAuthorization) : Bool :=
  a.userPubkey == user && a.redirectOrigin == origin && a.tenantId == tenant && a.live now

/-- What the endpoint's check says, given the rows of the table. -/
def verdict (judgement : OAuthAuthorization → Except AuthError Unit)
    (selected : OAuthAuthorization → Bool)
    (rows : List OAuthAuthorization) : Except AuthError Unit :=
  ((rows.find? selected).map judgement).getD
    (.error (.forbidden
      "No authorization for this origin. Create one via OAuth or /user/bunker/create"))

variable {w : Web} {s : State} {tenant : TenantId} {user : PublicKey} {origin : String}

theorem validateSigningPermissions_run (event : UnsignedEvent) :
    (validateSigningPermissions w tenant user origin event).run s =
      (verdict (fun a => judge w s.db event a.policyId) (ForOrigin s.now user origin tenant)
        s.db.oauthAuthorizations, s) := by
  have hfind : s.db.findPolicyIdByOrigin s.now user origin tenant =
      (s.db.oauthAuthorizations.find? (ForOrigin s.now user origin tenant)).map (·.policyId) := rfl
  unfold verdict
  rw [validateSigningPermissions, Prog.bind_def, getAuthorizationForOrigin, Prog.bind_def,
    Prog.read_bind,
    Prog.atom_bind, Prog.run_atom, id, hfind]
  cases s.db.oauthAuthorizations.find? (ForOrigin s.now user origin tenant) with
  | none => rfl
  | some a =>
    simp only [Option.map_some, Option.getD_some, Prog.orErr_some, Prog.ret_bind]
    cases a.policyId with
    | none => rfl
    | some policyId =>
      simp only [judge, Prog.bind_def, Prog.read_bind, Prog.run_atom, id]
      cases s.db.getPermissions w.toExternal policyId with
      | none => rfl
      | some rows =>
        show Prog.run (.ofExcept (checkSigning w.toExternal rows event)) s =
          (checkSigning w.toExternal rows event, s)
        cases checkSigning w.toExternal rows event with
        | error e => rfl
        | ok u => rfl

theorem signEvent_run {headers : Headers} {bunker : Option PublicKey}
    (htoken : extractUserAndOriginFromToken w s.now headers tenant = .ok (user, origin, bunker))
    {event : Json}
    {unsigned : UnsignedEvent} (hevent : w.unsignedEventFromValue event = some unsigned)
    (nonce : Nat) :
    ((signEvent w none tenant headers event nonce).run s).1 =
      (verdict (fun a => judge w s.db unsigned a.policyId) (ForOrigin s.now user origin tenant)
        s.db.oauthAuthorizations).bind
          fun _ => ((signWithStoredKey w tenant user nonce unsigned).run s).1 := by
  have hcheck : (validateSigningPermissions w tenant user origin unsigned).run s = _ :=
    validateSigningPermissions_run unsigned
  show ((Prog.bind (.ofExcept (extractUserAndOriginFromToken w s.now headers tenant)) _).run s).1 =
    _
  rw [htoken, Prog.ofExcept_ok, Prog.ret_bind]
  simp only [hevent, Prog.bind_def, Prog.orErr_some, Prog.ret_bind]
  rw [Prog.run_bind, hcheck]
  cases verdict (fun a => judge w s.db unsigned a.policyId) (ForOrigin s.now user origin tenant)
    s.db.oauthAuthorizations with
  | error e => rfl
  | ok u => rfl

/-- The user's key is looked up in two tables. -/
theorem signWithStoredKey_reads (nonce : Nat) (event : UnsignedEvent) :
    (signWithStoredKey w tenant user nonce event).Reads fun s : State =>
      (s.db.users, s.db.personalKeys) := by
  refine .bind (.read fun s s' hs => ?_) fun encrypted => .bind (.orErr _ _) fun encrypted =>
    .bind (.ofExcept _) fun decrypted => .bind (.ofExcept _) fun keys =>
      .bind (.ofExcept _) fun signed => trivial
  unfold Db.encryptedKeyForTenant
  rw [(Prod.mk.inj hs).1, (Prod.mk.inj hs).2]

theorem toCustomPermissions_eq_ok {ext : External} {rows : List Permission}
    {ps : List CustomPermission} :
    toCustomPermissions ext rows = .ok ps ↔
      (∀ p ∈ rows, p.Converts ext) ∧ ps = convertPermissions ext rows := mapM_eq_ok

theorem checkSigning_eq_ok {ext : External} {rows : List Permission} {event : UnsignedEvent} :
    checkSigning ext rows event = .ok () ↔
      (∀ p ∈ rows, p.Converts ext) ∧ ∀ c ∈ convertPermissions ext rows, c.canSign event = true := by
  unfold checkSigning
  constructor
  · intro h
    obtain ⟨permissions, hperms, h⟩ := bind_eq_ok.mp h
    obtain ⟨hall, rfl⟩ := toCustomPermissions_eq_ok.mp (mapError_eq_ok.mp hperms)
    refine ⟨hall, fun c hc => ?_⟩
    by_cases hempty : (convertPermissions ext rows).isEmpty = true
    · rw [List.isEmpty_iff.mp hempty] at hc
      exact absurd hc List.not_mem_nil
    · by_cases hallow : (convertPermissions ext rows).all (·.canSign event) = true
      · exact List.all_eq_true.mp hallow c hc
      · rw [if_neg hempty, if_neg hallow] at h
        cases h
  · rintro ⟨hall, hallow⟩
    refine bind_eq_ok.mpr
      ⟨convertPermissions ext rows,
        mapError_eq_ok.mpr (toCustomPermissions_eq_ok.mpr ⟨hall, rfl⟩), ?_⟩
    rw [List.all_eq_true.mpr hallow, if_pos rfl, ite_self]

/-- The check is the one of the NIP-46 path. -/
theorem judge_eq_ok {a : OAuthAuthorization} {event : UnsignedEvent} :
    judge w s.db event a.policyId = .ok () ↔
      ∃ rows, policyRows w.toExternal s.db a = some rows ∧
        Path.Lets w.toExternal rows user (.sign event) .nip46 := by
  unfold policyRows
  cases a.policyId with
  | none =>
    refine ⟨fun _ => ⟨[], rfl, ?_⟩, fun _ => rfl⟩
    exact Path.lets_iff.mpr fun p hp => absurd hp List.not_mem_nil
  | some policyId =>
    unfold judge
    constructor
    · intro h
      obtain ⟨rows, hrows, h⟩ := bind_eq_ok.mp h
      exact ⟨rows, elim_eq_ok.mp hrows, Signer.validateRows_eq_ok.mpr (checkSigning_eq_ok.mp h)⟩
    · rintro ⟨rows, hrows, hlets⟩
      exact bind_eq_ok.mpr
        ⟨rows, elim_eq_ok.mpr hrows, checkSigning_eq_ok.mpr (Signer.validateRows_eq_ok.mp hlets)⟩

/-! The two stages have no error in common. -/

/-- The errors of the check. -/
inductive Refusal : AuthError → Prop
  | unreadable : Refusal (.database "decode")
  | unconverted (e : String) : Refusal (.internal ("Failed to convert permissions: " ++ e))
  | refused : Refusal .invalidCredentials

theorem judge_refusal {event : UnsignedEvent} {policyId : Option RowId} {e : AuthError}
    (h : judge w s.db event policyId = .error e) : Refusal e := by
  cases policyId with
  | none => cases h
  | some policyId =>
    simp only [judge] at h
    cases hrows : s.db.getPermissions w.toExternal policyId with
    | none =>
      rw [hrows] at h
      cases h
      exact .unreadable
    | some rows =>
      rw [hrows] at h
      unfold checkSigning at h
      cases hperms : toCustomPermissions w.toExternal rows with
      | error e' =>
        simp only [Option.elim, hperms, Except.mapError, bind, Except.bind, Except.error.injEq] at h
        rw [← h]
        exact .unconverted e'.text
      | ok permissions =>
        simp only [Option.elim, hperms, Except.mapError, bind, Except.bind] at h
        split at h
        · cases h
        · split at h
          · cases h
          · cases h
            exact .refused

/-- The errors of the slow path. -/
inductive KeyFailure : AuthError → Prop
  | noKey : KeyFailure .userNotFound
  | encryption (e : String) : KeyFailure (.encryption e)
  | badKey (e : String) : KeyFailure (.internal ("Invalid secret key bytes: " ++ e))
  | signing (e : String) : KeyFailure (.internal ("Signing failed: " ++ e))

theorem signWithStoredKey_failure (nonce : Nat) (event : UnsignedEvent) {e : AuthError}
    (h : ((signWithStoredKey w tenant user nonce event).run s).1 = .error e) : KeyFailure e := by
  have hends : (signWithStoredKey w tenant user nonce event).Ends
      (fun r _ => ∀ e, r = .error e → KeyFailure e) s := by
    refine .read (.orErr ?_ fun encrypted _ => .ofExcept_mapError ?_ fun decrypted _ =>
      .ofExcept_mapError ?_ fun keys _ => .ofExcept_mapError ?_ fun signed _ => ?_)
    · intro e he
      cases he
      exact .noKey
    · intro m _ e he
      cases he
      exact .encryption m
    · intro m _ e he
      cases he
      exact .badKey m
    · intro m _ e he
      cases he
      exact .signing m
    · intro e he
      cases he
  exact hends e h

theorem head_ne {a b : Char} {l m : List Char} {x y : String} (hab : a ≠ b)
    (hx : x.toList = a :: l) (hy : y.toList = b :: m) (u v : String) : x ++ u ≠ y ++ v := by
  intro h
  have htext := congrArg String.toList h
  rw [String.toList_append, String.toList_append, hx, hy] at htext
  exact hab (List.cons.inj htext).1

theorem Refusal.not_keyFailure {e : AuthError} (h : Refusal e) : ¬ KeyFailure e := by
  intro hkey
  cases h with
  | unreadable => cases hkey
  | refused => cases hkey
  | unconverted m =>
    generalize htext : AuthError.internal ("Failed to convert permissions: " ++ m) = e at hkey
    cases hkey with
    | noKey => cases htext
    | encryption n => cases htext
    | badKey n =>
      exact head_ne (a := 'F') (b := 'I') (by decide) rfl rfl m n (AuthError.internal.inj htext)
    | signing n =>
      exact head_ne (a := 'F') (b := 'S') (by decide) rfl rfl m n (AuthError.internal.inj htext)

theorem judge_ne_forbidden {event : UnsignedEvent} {policyId : Option RowId} {m : String} :
    judge w s.db event policyId ≠ .error (.forbidden m) := by
  intro h
  cases judge_refusal h

theorem verdict_not_keyFailure {event : UnsignedEvent} {selected : OAuthAuthorization → Bool}
    {rows : List OAuthAuthorization} {e : AuthError}
    (h : verdict (fun a => judge w s.db event a.policyId) selected rows = .error e) :
      ¬ KeyFailure e := by
  unfold verdict at h
  cases hfind : rows.find? selected with
  | none =>
    rw [hfind] at h
    cases h
    intro hkey
    cases hkey
  | some a =>
    rw [hfind] at h
    exact (judge_refusal h).not_keyFailure

/-- What the check said can be read off the answer. -/
theorem bind_inj {v v' : Except AuthError Unit} {k : Except AuthError Json}
    (hk : ∀ e, k = .error e → KeyFailure e)
    (hv : ∀ e, v = .error e → ¬ KeyFailure e) (hv' : ∀ e, v' = .error e → ¬ KeyFailure e)
    (h : (v.bind fun _ => k) = v'.bind fun _ => k) : v = v' := by
  cases v with
  | error e =>
    cases v' with
    | error e' => exact congrArg _ (Except.error.inj h)
    | ok u' => exact absurd (hk e h.symm) (hv e rfl)
  | ok u =>
    cases v' with
    | error e' => exact absurd (hk e' h) (hv' e' rfl)
    | ok u' => rfl

/-! ## Two runs -/

/-- One of the user's authorizations, and not the token's. -/
def isOther (user bunker : PublicKey) (a : OAuthAuthorization) : Bool :=
  a.userPubkey == user && a.bunkerPublicKey != bunker

/-- The same rows but for their order and for the user's other authorizations. -/
def Alike (user bunker : PublicKey) (rows rows' : List OAuthAuthorization) : Prop :=
  (rows'.filter fun a => !isOther user bunker a).Perm (rows.filter fun a => !isOther user bunker a)

/-- Another order of the rows, with any of the user's other authorizations left out. -/
structure Thinned (user bunker : PublicKey) (rows rows' : List OAuthAuthorization) : Prop where
  some : rows'.Subperm rows
  alike : Alike user bunker rows rows'

def State.withAuthorizations (s : State) (rows : List OAuthAuthorization) : State :=
  s.withDb { s.db with oauthAuthorizations := rows }

/-- The token's own authorization counts now, and its policy lets the event be signed. -/
def TokenSigns (w : Web) (s : State) (user bunker : PublicKey) (event : UnsignedEvent) : Prop :=
  ∃ a ∈ s.db.oauthAuthorizations, a.bunkerPublicKey = bunker ∧ a.live s.now = true ∧
    ∃ rows, policyRows w.toExternal s.db a = some rows ∧
      Path.Lets w.toExternal rows user (.sign event) .nip46

/-- A request, less the token. -/
structure SignCall where
  tenant : TenantId
  headers : Headers
  event : Json
  nonce : Nat

/-- What the endpoint answers. The program runs without the daemon's handlers
(`signer_handlers: None`). -/
def SignCall.answer (w : Web) (r : SignCall) (s : State) : Except AuthError Json :=
  ((signEvent w none r.tenant r.headers r.event r.nonce).run s).1

/-- **The token's own authorization decides**: in whatever order the rows come, and however many of
the user's other authorizations there are, the answer is the same, and an event is only signed when
it is entitled to. -/
def RespectsToken (w : Web) (s : State) (user bunker : PublicKey) (r : SignCall) : Prop :=
  ∀ rows, Thinned user bunker s.db.oauthAuthorizations rows →
    (∀ signed, r.answer w (s.withAuthorizations rows) = .ok signed →
      ∃ event, w.unsignedEventFromValue r.event = some event ∧ TokenSigns w s user bunker event) ∧
    r.answer w (s.withAuthorizations rows) = r.answer w s

/-- **The rows that may be taken for the token's agree with it**: when the user has any live
authorization for the origin, the token's is one of them, and their policies say the same of the
event. -/
structure OneVerdict (w : Web) (s : State) (user : PublicKey) (origin : String) (bunker : PublicKey)
    (tenant : TenantId) (event : UnsignedEvent) : Prop where
  own : ∀ a ∈ s.db.oauthAuthorizations, ForOrigin s.now user origin tenant a →
    ∃ b ∈ s.db.oauthAuthorizations, ForOrigin s.now user origin tenant b ∧
      b.bunkerPublicKey = bunker
  same : ∀ a ∈ s.db.oauthAuthorizations, ∀ b ∈ s.db.oauthAuthorizations,
    ForOrigin s.now user origin tenant a →
    ForOrigin s.now user origin tenant b →
      judge w s.db event a.policyId = judge w s.db event b.policyId

section TwoRuns

variable {bunker : PublicKey} {event : UnsignedEvent} {rows : List OAuthAuthorization}
  {r : SignCall}

theorem ForOrigin.live {now : Timestamp} {a : OAuthAuthorization}
    (h : ForOrigin now user origin tenant a = true) :
    a.live now = true := by
  simp only [ForOrigin, Bool.and_eq_true] at h
  exact h.2

theorem not_isOther {a : OAuthAuthorization} (h : a.bunkerPublicKey = bunker) :
    isOther user bunker a = false := by
  simp [isOther, h]

/-- The rows that are not the user's others are in both tables. -/
theorem Alike.mem_iff (h : Alike user bunker s.db.oauthAuthorizations rows) {a : OAuthAuthorization}
    (ha : isOther user bunker a = false) : a ∈ rows ↔ a ∈ s.db.oauthAuthorizations := by
  have hmem := List.Perm.mem_iff (a := a) h
  simpa only [List.mem_filter, ha, Bool.not_false, and_true] using hmem

theorem answer_eq {b : Option PublicKey}
    (htoken : extractUserAndOriginFromToken w s.now r.headers r.tenant = .ok (user, origin, b))
    (hevent : w.unsignedEventFromValue r.event = some event) (rows : List OAuthAuthorization) :
    r.answer w (s.withAuthorizations rows) =
      (verdict (fun a => judge w s.db event a.policyId) (ForOrigin s.now user origin r.tenant)
        rows).bind fun _ =>
        ((signWithStoredKey w r.tenant user r.nonce event).run s).1 := by
  have hkey :
    ((signWithStoredKey w r.tenant user r.nonce event).run (s.withAuthorizations rows)).1 =
      ((signWithStoredKey w r.tenant user r.nonce event).run s).1 :=
    (signWithStoredKey_reads r.nonce event).run_congr rfl
  rw [← hkey]
  exact signEvent_run (s := s.withAuthorizations rows) htoken hevent r.nonce

/-- The verdict is that of any row that is selected. -/
theorem OneVerdict.verdict_eq (h : OneVerdict w s user origin bunker tenant event)
    (hrows : rows ⊆ s.db.oauthAuthorizations) {b : OAuthAuthorization} (hb : b ∈ rows)
    (hfor : ForOrigin s.now user origin tenant b = true) :
    verdict (fun a => judge w s.db event a.policyId) (ForOrigin s.now user origin tenant) rows =
      judge w s.db event b.policyId := by
  unfold verdict
  cases hfind : rows.find? (ForOrigin s.now user origin tenant) with
  | none => exact absurd hfor (List.find?_eq_none.mp hfind b hb)
  | some a =>
    have ha : a ∈ rows := List.mem_of_find?_eq_some hfind
    exact h.same a (hrows ha) b (hrows hb) (List.find?_some hfind) hfor

theorem verdict_none {rows : List OAuthAuthorization}
    (h : ∀ a ∈ rows, ¬ ForOrigin s.now user origin tenant a = true) :
    verdict (fun a => judge w s.db event a.policyId) (ForOrigin s.now user origin tenant) rows =
      .error (.forbidden
        "No authorization for this origin. Create one via OAuth or /user/bunker/create") := by
  unfold verdict
  rw [List.find?_eq_none.mpr h]
  rfl

/-- Two tables that agree on the token's authorization, and in both of which it speaks for all. -/
theorem OneVerdict.verdicts_agree (h : OneVerdict w s user origin bunker tenant event)
    (h' : OneVerdict w (s.withAuthorizations rows) user origin bunker tenant event)
    (halike : Alike user bunker s.db.oauthAuthorizations rows) :
    verdict (fun a => judge w s.db event a.policyId) (ForOrigin s.now user origin tenant) rows =
      verdict (fun a => judge w s.db event a.policyId) (ForOrigin s.now user origin tenant)
        s.db.oauthAuthorizations := by
  by_cases hany : ∃ a ∈ s.db.oauthAuthorizations, ForOrigin s.now user origin tenant a = true
  · obtain ⟨a, ha, hfor⟩ := hany
    obtain ⟨b, hb, hforb, hbunker⟩ := h.own a ha hfor
    have hb' : b ∈ rows := (halike.mem_iff (not_isOther hbunker)).mpr hb
    rw [h.verdict_eq (List.Subset.refl _) hb hforb]
    exact h'.verdict_eq (List.Subset.refl _) hb' hforb
  · have hnone : ∀ a ∈ s.db.oauthAuthorizations, ¬ ForOrigin s.now user origin tenant a = true :=
      fun a ha hfor => hany ⟨a, ha, hfor⟩
    have hnone' : ∀ a ∈ rows, ¬ ForOrigin s.now user origin tenant a = true := by
      intro a ha hfor
      obtain ⟨b, hb, hforb, hbunker⟩ := h'.own a ha hfor
      exact hnone b ((halike.mem_iff (not_isOther hbunker)).mp hb) hforb
    rw [verdict_none hnone, verdict_none hnone']

theorem OneVerdict.thinned (h : OneVerdict w s user origin bunker tenant event)
    (hthin : Thinned user bunker s.db.oauthAuthorizations rows) :
    OneVerdict w (s.withAuthorizations rows) user origin bunker tenant event where
  own a ha hfor := by
    obtain ⟨b, hb, hforb, hbunker⟩ := h.own a (hthin.some.subset ha) hfor
    exact ⟨b, (hthin.alike.mem_iff (not_isOther hbunker)).mpr hb, hforb, hbunker⟩
  same a ha b hb := h.same a (hthin.some.subset ha) b (hthin.some.subset hb)

theorem thinned_of_perm (h : rows.Perm s.db.oauthAuthorizations) :
    Thinned user bunker s.db.oauthAuthorizations rows :=
  ⟨h.subperm, h.filter _⟩

/-- When none of the selected rows is the token's, all of them may go. -/
theorem thinned_unselected
    (h : ∀ a ∈ s.db.oauthAuthorizations, ForOrigin s.now user origin tenant a = true →
      isOther user bunker a = true) :
    Thinned user bunker s.db.oauthAuthorizations
      (s.db.oauthAuthorizations.filter fun a => !ForOrigin s.now user origin tenant a) := by
  refine ⟨List.filter_sublist.subperm, List.Perm.of_eq ?_⟩
  rw [List.filter_filter]
  refine List.filter_congr fun a ha => ?_
  cases hfor : ForOrigin s.now user origin tenant a with
  | false => simp
  | true => simp [h a ha hfor]

/-- An event that cannot be read ends the request before the lookup. -/
theorem answer_unread {b : Option PublicKey}
    (htoken : extractUserAndOriginFromToken w s.now r.headers r.tenant = .ok (user, origin, b))
    (hevent : w.unsignedEventFromValue r.event = none) :
    r.answer w s = .error (.internal "Invalid event format: ") := by
  show ((Prog.bind (.ofExcept (extractUserAndOriginFromToken w s.now r.headers r.tenant)) _).run
    s).1 = _
  rw [htoken, Prog.ofExcept_ok, Prog.ret_bind]
  simp only [hevent, Prog.bind_def, Prog.orErr_none]
  rfl

/-- Equal answers come from equal verdicts. -/
theorem verdict_of_answer {b : Option PublicKey} {rows' : List OAuthAuthorization}
    (htoken : extractUserAndOriginFromToken w s.now r.headers r.tenant = .ok (user, origin, b))
    (hevent : w.unsignedEventFromValue r.event = some event)
    (h : r.answer w (s.withAuthorizations rows) = r.answer w (s.withAuthorizations rows')) :
    verdict (fun a => judge w s.db event a.policyId) (ForOrigin s.now user origin r.tenant) rows =
      verdict (fun a => judge w s.db event a.policyId)
        (ForOrigin s.now user origin r.tenant) rows' := by
  rw [answer_eq htoken hevent, answer_eq htoken hevent] at h
  exact bind_inj (fun e => signWithStoredKey_failure r.nonce event)
    (fun e => verdict_not_keyFailure)
    (fun e => verdict_not_keyFailure) h

theorem RespectsToken.oneVerdict (hrespects : RespectsToken w s user bunker r)
    {b : Option PublicKey}
    (htoken : extractUserAndOriginFromToken w s.now r.headers r.tenant = .ok (user, origin, b))
    (hevent : w.unsignedEventFromValue r.event = some event) :
    OneVerdict w s user origin bunker r.tenant event := by
  -- any selected row can come first
  have hfirst : ∀ a ∈ s.db.oauthAuthorizations, ForOrigin s.now user origin r.tenant a = true →
      ∃ rows, Thinned user bunker s.db.oauthAuthorizations rows ∧
        verdict (fun a => judge w s.db event a.policyId)
          (ForOrigin s.now user origin r.tenant) rows =
          judge w s.db event a.policyId := by
    intro a ha hfor
    refine ⟨a :: s.db.oauthAuthorizations.erase a,
      thinned_of_perm (List.perm_cons_erase ha).symm, ?_⟩
    unfold verdict
    rw [List.find?_cons_of_pos hfor]
    rfl
  have hsame : ∀ rows rows', Thinned user bunker s.db.oauthAuthorizations rows →
      Thinned user bunker s.db.oauthAuthorizations rows' →
      verdict (fun a => judge w s.db event a.policyId) (ForOrigin s.now user origin r.tenant) rows =
        verdict (fun a => judge w s.db event a.policyId)
          (ForOrigin s.now user origin r.tenant) rows' :=
    fun rows rows' h h' =>
      verdict_of_answer htoken hevent ((hrespects rows h).2.trans (hrespects rows' h').2.symm)
  refine ⟨fun a ha hfor => ?_, fun a ha b hb hfora hforb => ?_⟩
  · by_contra hnone
    have hother : ∀ b ∈ s.db.oauthAuthorizations, ForOrigin s.now user origin r.tenant b = true →
        isOther user bunker b = true := by
      intro b hb hforb
      have huser : b.userPubkey = user := by
        simp only [ForOrigin, Bool.and_eq_true, beq_iff_eq] at hforb
        exact hforb.1.1.1
      have hbunker : b.bunkerPublicKey ≠ bunker := fun heq => hnone ⟨b, hb, hforb, heq⟩
      simp [isOther, huser, hbunker]
    obtain ⟨rows, hthin, hverdict⟩ := hfirst a ha hfor
    have heq := hsame _ _ hthin (thinned_unselected hother)
    rw [hverdict, verdict_none fun b hb => by simpa using (List.mem_filter.mp hb).2] at heq
    exact judge_ne_forbidden heq
  · obtain ⟨rows, hthin, hverdict⟩ := hfirst a ha hfora
    obtain ⟨rows', hthin', hverdict'⟩ := hfirst b hb hforb
    rw [← hverdict, ← hverdict']
    exact hsame rows rows' hthin hthin'

theorem OneVerdict.tokenSigns (h : OneVerdict w s user origin bunker tenant event)
    (hok : verdict (fun a => judge w s.db event a.policyId) (ForOrigin s.now user origin tenant)
      s.db.oauthAuthorizations = .ok ()) : TokenSigns w s user bunker event := by
  by_cases hany : ∃ a ∈ s.db.oauthAuthorizations, ForOrigin s.now user origin tenant a = true
  · obtain ⟨a, ha, hfor⟩ := hany
    obtain ⟨b, hb, hforb, hbunker⟩ := h.own a ha hfor
    rw [h.verdict_eq (List.Subset.refl _) hb hforb] at hok
    exact ⟨b, hb, hbunker, ForOrigin.live hforb, judge_eq_ok.mp hok⟩
  · rw [verdict_none fun a ha hfor => hany ⟨a, ha, hfor⟩] at hok
    cases hok

/-- **When direct signing respects the token.** For every database and every request whose token is
bound to `bunker`: exactly when, if the event can be read at all, the rows that may be taken for the
token's agree with it. Between any two such databases that differ in the order of their rows and in
the user's other authorizations only, the answer is the same. -/
theorem direct_sign_respects_iff (w : Web) (s : State) (r : SignCall)
    (htoken : extractUserAndOriginFromToken w s.now r.headers r.tenant =
      .ok (user, origin, some bunker)) :
    (RespectsToken w s user bunker r ↔
      ∀ event, w.unsignedEventFromValue r.event = some event →
        OneVerdict w s user origin bunker r.tenant event) ∧
    ∀ rows, Alike user bunker s.db.oauthAuthorizations rows →
      (∀ event, w.unsignedEventFromValue r.event = some event →
        OneVerdict w s user origin bunker r.tenant event ∧
          OneVerdict w (s.withAuthorizations rows) user origin bunker r.tenant event) →
      r.answer w (s.withAuthorizations rows) = r.answer w s := by
  have hagree : ∀ rows, Alike user bunker s.db.oauthAuthorizations rows →
      (∀ event, w.unsignedEventFromValue r.event = some event →
        OneVerdict w s user origin bunker r.tenant event ∧
          OneVerdict w (s.withAuthorizations rows) user origin bunker r.tenant event) →
      r.answer w (s.withAuthorizations rows) = r.answer w s := by
    intro rows halike hclear
    cases hevent : w.unsignedEventFromValue r.event with
    | none =>
      exact (answer_unread (s := s.withAuthorizations rows) htoken hevent).trans
        (answer_unread htoken hevent).symm
    | some event =>
      obtain ⟨h, h'⟩ := hclear event hevent
      have hself := answer_eq htoken hevent s.db.oauthAuthorizations
      rw [answer_eq htoken hevent rows, h.verdicts_agree h' halike]
      exact hself.symm
  refine ⟨⟨fun hrespects event hevent => hrespects.oneVerdict htoken hevent,
    fun hclear rows hthin => ?_⟩, hagree⟩
  have hsame : r.answer w (s.withAuthorizations rows) = r.answer w s :=
    hagree rows hthin.alike fun event hevent =>
      ⟨hclear event hevent, (hclear event hevent).thinned hthin⟩
  refine ⟨fun signed hsigned => ?_, hsame⟩
  cases hevent : w.unsignedEventFromValue r.event with
  | none =>
    rw [answer_unread (s := s.withAuthorizations rows) htoken hevent] at hsigned
    cases hsigned
  | some event =>
    refine ⟨event, rfl, (hclear event hevent).tokenSigns ?_⟩
    rw [hsame] at hsigned
    obtain ⟨⟨⟩, hverdict, -⟩ :=
      bind_eq_ok.mp ((answer_eq htoken hevent s.db.oauthAuthorizations).symm.trans hsigned)
    exact hverdict

end TwoRuns

/-! A user with two devices in one app, and the token of the first. -/

section Devices

def deviceToken : Ucan :=
  ⟨some "pub:sk", some "pub:sk", none,
    [.obj [("tenant_id", .int 1), ("redirect_origin", .str "https://app.example"),
      ("bunker_pubkey", .str "mine")]]⟩

def deviceWeb : Web :=
  { Web.symbolic [("t", deviceToken)] [("cfg", .obj [("allowed_kinds", .arr [.int 4])])] with
    unsignedEventFromValue := fun _ => some ⟨"pub:sk", 0, 1, [], "hi"⟩ }

def device (id : RowId) (bunker : PublicKey) (policyId : Option RowId)
    (revokedAt : Option Timestamp) :
    OAuthAuthorization :=
  { id, tenantId := 1, userPubkey := "pub:sk", redirectOrigin := "https://app.example",
    bunkerPublicKey := bunker,
    secretHash := "h", policyId, revokedAt }

/-- Policy 5 is for kind 4 only. -/
def deviceState (rows : List OAuthAuthorization) : State where
  db :=
    { users := [{ pubkey := "pub:sk", tenantId := 1 }], personalKeys := [⟨"pub:sk", 1, "sk"⟩],
      oauthAuthorizations := rows, permissions :=
        [⟨9, "allowed_kinds", "cfg"⟩], policyPermissions := [⟨5, 9⟩] }
  now := 100
  caches _ := .empty

def deviceCall : SignCall where
  tenant := 1
  headers := { authorization := some (some "Bearer t") }
  event := .null
  nonce := 0

theorem direct_sign_respects_iff_devices :
    RespectsToken deviceWeb (deviceState [device 1 "mine" none none, device 2 "other" none none])
      "pub:sk" "mine"
      deviceCall := by
  have htoken : extractUserAndOriginFromToken deviceWeb 100 deviceCall.headers deviceCall.tenant =
      .ok ("pub:sk", "https://app.example", some "mine") := by decide
  refine (direct_sign_respects_iff deviceWeb _ deviceCall htoken).1.mpr fun event _ =>
    ⟨fun a _ _ => ?_, fun a ha b hb _ _ => ?_⟩
  · exact ⟨device 1 "mine" none none, List.mem_cons_self, by decide, rfl⟩
  · have hnone : ∀ a ∈ [device 1 "mine" none none, device 2 "other" none none],
      a.policyId = none := by decide
    rw [hnone a ha, hnone b hb]

/-- **A revoked device signs with the grant of another**, and with two grants it depends on the
order of the rows whether the event is signed. -/
theorem revoked_device_signs :
    deviceCall.answer deviceWeb
      (deviceState [device 1 "mine" none (some 50), device 2 "other" none none]) =
        .ok (.str "signed by sk: hi") ∧
      ¬ RespectsToken deviceWeb
        (deviceState [device 1 "mine" none (some 50), device 2 "other" none none]) "pub:sk"
        "mine" deviceCall ∧
      (deviceCall.answer deviceWeb
        (deviceState [device 1 "mine" (some 5) none, device 2 "other" none none])).toOption.isNone =
          true ∧
      deviceCall.answer deviceWeb
        (deviceState [device 2 "other" none none, device 1 "mine" (some 5) none]) =
        .ok (.str "signed by sk: hi") := by
  refine ⟨rfl, fun hrespects => ?_, by decide +kernel, rfl⟩
  obtain ⟨event, -, a, ha, hbunker, hlive, -⟩ := (hrespects _ (thinned_of_perm (.refl _))).1 _ rfl
  have hdead : ∀ a ∈ [device 1 "mine" none (some 50), device 2 "other" none none],
      a.bunkerPublicKey = "mine" → a.live 100 = false := by decide
  exact absurd hlive (Bool.eq_false_iff.mp (hdead a ha hbunker))

end Devices

end Http

end Keycast
