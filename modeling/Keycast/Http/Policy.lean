import Mathlib.Tactic.Tauto
import Keycast.Http.Rpc
import Keycast.Signer.Handler

/-!
# `Http/Policy.lean` — do the two signing paths enforce the same policy?

The NIP-46 path converts the rows of a policy one by one and gives up at the first that does not
convert: an authorization whose policy cannot be read signs nothing. The HTTP path keeps the rows
that convert and drops the rest, and an empty list allows everything. So a policy with one broken
row means "nothing" on one path and "whatever the other rows allow" on the other, and a policy with
only broken rows means "nothing" and "everything".

`paths_agree_iff` says exactly when the two agree on an operation: when all rows convert, or when
one of the rows that do refuses it anyway.
-/

set_option autoImplicit false

namespace Keycast

open Lib

/-- The row converts. -/
def Permission.Converts (ext : External) (p : Permission) : Prop :=
  ∃ c, p.toCustomPermission ext = .ok c

namespace Signer

variable {ext : External}

/-- The check an operation goes through on the NIP-46 path. -/
def Nip46Handler.validateOperation (ext : External) (h : Nip46Handler) :
    Operation → SignerM Unit
  | .sign event => h.validatePermissionsForSign ext event
  | .encrypt plaintext recipient => h.validatePermissionsForEncrypt ext plaintext recipient
  | .decrypt ciphertext sender => h.validatePermissionsForDecrypt ext ciphertext sender

/-- That path from the rows of the policy on: convert them, then ask each. -/
def validateRows (ext : External) (rows : List Permission) (self : PublicKey) (op : Operation) :
    Except SignerError Unit :=
  (Nip46Handler.convertPermissions ext rows).bind
    (Nip46Handler.checkAll (·.allows ext self op))

theorem checkAll_eq_ok {allows : CustomPermission → Bool} {ps : List CustomPermission} :
    Nip46Handler.checkAll allows ps = .ok () ↔ ∀ p ∈ ps, allows p = true := by
  induction ps with
  | nil => simp [Nip46Handler.checkAll]
  | cons p ps ih =>
    by_cases hp : allows p = true
    · simp [Nip46Handler.checkAll, hp, ih]
    · simp [Nip46Handler.checkAll, hp]

/-- The conversion succeeds when every row does, and then has what the HTTP path keeps. -/
theorem convertPermissions_eq_ok {rows : List Permission} {ps : List CustomPermission} :
    Nip46Handler.convertPermissions ext rows = .ok ps ↔
      (∀ p ∈ rows, p.Converts ext) ∧ ps = Http.convertPermissions ext rows := by
  refine Http.mapM_eq_ok.trans (and_congr ?_ ?_)
  · exact forall₂_congr fun p _ => exists_congr fun c => Http.mapError_eq_ok
  · refine Eq.congr_right (List.filterMap_congr fun p _ => ?_)
    cases p.toCustomPermission ext with
    | error e => rfl
    | ok c => rfl

theorem validateRows_eq_ok {rows : List Permission} {self : PublicKey} {op : Operation} :
    validateRows ext rows self op = .ok () ↔
      (∀ p ∈ rows, p.Converts ext) ∧
        ∀ c ∈ Http.convertPermissions ext rows, c.allows ext self op = true := by
  unfold validateRows
  cases hconv : Nip46Handler.convertPermissions ext rows with
  | error e =>
    have hnot : ¬ ∀ p ∈ rows, p.Converts ext := fun hall =>
      absurd (hconv.symm.trans (convertPermissions_eq_ok.mpr ⟨hall, rfl⟩)) (by simp)
    exact .intro (fun h => nomatch h) fun h => absurd h.1 hnot
  | ok ps =>
    obtain ⟨hall, rfl⟩ := convertPermissions_eq_ok.mp hconv
    exact checkAll_eq_ok.trans ⟨fun h => ⟨hall, h⟩, fun h => h.2⟩

/-- The three `validate_permissions_for_*` methods are `validateRows` on the rows they select. -/
theorem validateOperation_run (h : Nip46Handler) (op : Operation) (s : State) :
    ((h.validateOperation ext op).run s).1 =
      ((h.policyPermissions ext).run s).1.bind
        (validateRows ext · (ext.publicKey h.userKeys) op) := by
  have hcore : ∀ allows : CustomPermission → Bool,
      (((h.loadPermissions ext).bind fun ps =>
          Prog.ofExcept (Nip46Handler.checkAll allows ps)).run s).1 =
        ((h.policyPermissions ext).run s).1.bind fun rows =>
          (Nip46Handler.convertPermissions ext rows).bind (Nip46Handler.checkAll allows) := by
    intro allows
    simp only [Nip46Handler.loadPermissions, Prog.bind_def, Prog.bind_assoc]
    rw [Prog.run_bind]
    rcases (h.policyPermissions ext).run s with ⟨e | rows, s'⟩
    · rfl
    · rcases hc : Nip46Handler.convertPermissions ext rows with e | ps
      · simp [Except.bind, hc]
      · rcases hk : Nip46Handler.checkAll allows ps with e | _ <;> simp [Except.bind, hc, hk]
  cases op <;> exact hcore _

end Signer

/-- What the NIP-46 path selects for an OAuth authorization. -/
theorem Signer.policyPermissions_run {ext : External} {n : Signer.Nip46Handler} {s : Signer.State}
    {row : OAuthAuthorization} {rows : List Permission} (hn : n.isOauth = true)
    (hfind : s.db.oauthFind n.tenantId n.authorizationId = some row)
    (hrows : Http.policyRows ext s.db row = some rows) :
    ((n.policyPermissions ext).run s).1 = .ok rows := by
  unfold Signer.Nip46Handler.policyPermissions
  unfold Http.policyRows at hrows
  rw [if_pos hn]
  cases hp : row.policyId with
  | none =>
    rw [hp] at hrows
    cases hrows
    simp [hfind, hp]
  | some policyId =>
    rw [hp] at hrows
    simp only at hrows
    simp [hfind, hp, hrows]

/-- The authorization of a NIP-46 handler has this policy. -/
def HasPolicy (n : Signer.Nip46Handler) (db : Db) (policyId : RowId) : Prop :=
  if n.isOauth then ∃ row, db.oauthFind n.tenantId n.authorizationId = some row ∧
    row.policyId = some policyId
  else ∃ row, db.teamFind n.tenantId n.authorizationId = some row ∧ row.policyId = policyId

/-- The rows such a handler loads. -/
theorem HasPolicy.policyPermissions_run {ext : External} {n : Signer.Nip46Handler}
    {s : Signer.State} {policyId : RowId}
    {rows : List Permission} (hpolicy : HasPolicy n s.db policyId)
    (hrows : s.db.getPermissions ext policyId = some rows) :
    ((n.policyPermissions ext).run s).1 = .ok rows := by
  unfold HasPolicy at hpolicy
  split at hpolicy
  · next hoauth =>
    obtain ⟨row, hfind, hid⟩ := hpolicy
    refine Signer.policyPermissions_run hoauth hfind ?_
    rw [Http.policyRows, hid]
    exact hrows
  · next hteam =>
    obtain ⟨row, hfind, rfl⟩ := hpolicy
    unfold Signer.Nip46Handler.policyPermissions
    rw [if_neg hteam]
    simp [hfind, hrows]

/-- The same permissions, linked to the same policies. -/
structure SamePermissions (db db' : Db) : Prop where
  permissions : db'.permissions = db.permissions
  links : db'.policyPermissions = db.policyPermissions

theorem SamePermissions.getPermissions {ext : External} {db db' : Db} (h : SamePermissions db db')
    (policyId : RowId) :
    db'.getPermissions ext policyId = db.getPermissions ext policyId := by
  unfold Db.getPermissions Db.permissionRows
  rw [h.permissions, h.links]

/-- **When the two paths agree.** Take one OAuth authorization: a handler loaded for it on the HTTP
path and a handler for it on the NIP-46 path, for the same user, with the policy unchanged. The two
agree on an operation exactly when all rows of the policy convert, or a row that converts refuses
the operation. -/
theorem paths_agree_iff (w : Http.Web) {hs : Http.State} {ss : Signer.State} (hdb : ss.db = hs.db)
    {bunker user : PublicKey} {tenant : TenantId} {row : OAuthAuthorization}
    (hrow : hs.db.oauthByBunker bunker = some row) {h : Http.HttpRpcHandler}
    (hload : ((Http.loadHandlerOnDemand w bunker user tenant).run hs).1 = .ok h)
    {n : Signer.Nip46Handler} (hn : n.isOauth = true)
    (hfind : ss.db.oauthFind n.tenantId n.authorizationId = some row)
    (hkey : w.publicKey n.userKeys = h.userPubkey) {rows : List Permission}
    (hrows : Http.policyRows w.toExternal hs.db row = some rows) (op : Operation) :
    (h.validateOperation w.toExternal op = .ok () ↔
        ((n.validateOperation w.toExternal op).run ss).1 = .ok ()) ↔
      (∀ p ∈ rows, p.Converts w.toExternal) ∨
        ∃ p ∈ rows, ∃ c, p.toCustomPermission w.toExternal = .ok c ∧
          c.allows w.toExternal h.userPubkey op = false := by
  obtain ⟨-, row', permissions, _, _, _, _, hrow', -, hpolicy, -, -, -, rfl⟩ :=
    Http.loadHandlerOnDemand_run (Prod.ext hload rfl)
  cases hrow.symm.trans hrow'
  have hperm : Http.convertPermissions w.toExternal rows = permissions := by
    simpa [Http.policyOf, hrows] using hpolicy
  subst hperm
  rw [Signer.validateOperation_run, Signer.policyPermissions_run hn hfind (hdb ▸ hrows), hkey,
    Http.HttpRpcHandler.validateOperation_eq, Http.HttpRpcHandler.validate_eq_ok]
  simp only [Except.bind, Signer.validateRows_eq_ok]
  generalize hself : (Http.HttpRpcHandler.new w.toExternal _ _ _ _ _ _ _ _).userPubkey = self
  have hrefuse : (¬ ∀ c ∈ Http.convertPermissions w.toExternal rows,
      c.allows w.toExternal self op = true) ↔
      ∃ p ∈ rows, ∃ c, p.toCustomPermission w.toExternal = .ok c ∧
        c.allows w.toExternal self op = false := by
    simp only [Http.mem_convertPermissions, not_forall, Bool.not_eq_true, exists_prop]
    constructor
    · rintro ⟨c, ⟨p, hp, hc⟩, hno⟩
      exact ⟨p, hp, c, hc, hno⟩
    · rintro ⟨p, hp, c, hc, hno⟩
      exact ⟨c, ⟨p, hp, hc⟩, hno⟩
  rw [← hrefuse]
  change ((∀ c ∈ Http.convertPermissions w.toExternal rows, _) ↔ _ ∧ _) ↔ _
  tauto

/-! ## Row by row -/

/-- The two ways on which an operation reaches a user's key. -/
inductive Path
  | nip46
  | http
  deriving DecidableEq, Repr

/-- The path's check lets the operation through, for an authorization whose policy has these
rows. -/
def Path.Lets (ext : External) (rows : List Permission) (self : PublicKey)
    (op : Operation) : Path → Prop
  | .nip46 => Signer.validateRows ext rows self op = .ok ()
  | .http =>
    ∀ h : Http.HttpRpcHandler, h.permissions = Http.convertPermissions ext rows →
    h.userPubkey = self →
      h.validateOperation ext op = .ok ()

/-- What one row says. A row that does not convert refuses everything on one path, and nothing on
the other. -/
def Permission.Lets (ext : External) (self : PublicKey) (op : Operation)
    (p : Permission) : Path → Prop
  | .nip46 => ∃ c, p.toCustomPermission ext = .ok c ∧ c.allows ext self op = true
  | .http => ∀ c, p.toCustomPermission ext = .ok c → c.allows ext self op = true

theorem Permission.lets_iff {ext : External} {self : PublicKey} {op : Operation}
    {p : Permission} {path : Path}
    {c : CustomPermission} (hc : p.toCustomPermission ext = .ok c) :
    p.Lets ext self op path ↔ c.allows ext self op = true := by
  cases path with
  | nip46 =>
    refine ⟨?_, fun h => ⟨c, hc, h⟩⟩
    rintro ⟨c', hc', h⟩
    cases hc.symm.trans hc'
    exact h
  | http =>
    refine ⟨fun h => h c hc, fun h c' hc' => ?_⟩
    cases hc.symm.trans hc'
    exact h

/-- **On both paths all rows have to let an operation through.** -/
theorem Path.lets_iff {ext : External} {path : Path} {rows : List Permission} {self : PublicKey}
    {op : Operation} :
    path.Lets ext rows self op ↔ ∀ p ∈ rows, p.Lets ext self op path := by
  cases path with
  | nip46 =>
    refine Signer.validateRows_eq_ok.trans ⟨?_, ?_⟩
    · rintro ⟨hall, hallow⟩ p hp
      obtain ⟨c, hc⟩ := hall p hp
      exact ⟨c, hc, hallow c (Http.mem_convertPermissions.mpr ⟨p, hp, hc⟩)⟩
    · intro h
      refine ⟨fun p hp => (h p hp).imp fun _ hc => hc.1, fun c hc => ?_⟩
      obtain ⟨p, hp, hpc⟩ := Http.mem_convertPermissions.mp hc
      obtain ⟨c', hc', hallow⟩ := h p hp
      cases hpc.symm.trans hc'
      exact hallow
  | http =>
    constructor
    · intro h p hp c hc
      have hok :=
        h ⟨"", 0, self, none, none, Http.convertPermissions ext rows, true, "", ""⟩ rfl rfl
      rw [Http.HttpRpcHandler.validateOperation_eq, Http.HttpRpcHandler.validate_eq_ok] at hok
      exact hok c (Http.mem_convertPermissions.mpr ⟨p, hp, hc⟩)
    · intro h handler hperms hself
      rw [Http.HttpRpcHandler.validateOperation_eq, Http.HttpRpcHandler.validate_eq_ok,
        hperms, hself]
      intro c hc
      obtain ⟨p, hp, hpc⟩ := Http.mem_convertPermissions.mp hc
      exact h p hp c hpc

/-! One authorization, one row in its policy, and a row whose identifier has a typo. -/

section Sample

def policyWeb : Http.Web :=
  .symbolic [] [("cfg", .obj [("allowed_kinds", .arr [.int 1])])]

/-- The database with a policy of one row with the given identifier. -/
def policyDb (identifier : String) : Db where
  users := [{ pubkey := "pub:sk", tenantId := 1 }]
  personalKeys := [⟨"pub:sk", 1, "sk"⟩]
  oauthAuthorizations :=
    [{ id := 1, tenantId := 1, userPubkey := "pub:sk", bunkerPublicKey := "bunker",
       secretHash := "h", policyId := some 5 }]
  permissions := [⟨9, identifier, "cfg"⟩]
  policyPermissions := [⟨5, 9⟩]

def policyHttp (identifier : String) : Http.State := ⟨policyDb identifier, 0, fun _ => .empty⟩
def policySigner (identifier : String) : Signer.State := ⟨policyDb identifier, 0, .empty⟩

def policyHandler : Signer.Nip46Handler where
  bunkerKeys := "bunker-sk"
  userKeys := "sk"
  secretHash := "h"
  authorizationId := 1
  tenantId := 1
  isOauth := true

/-- Signing a direct message, which a policy for kind 1 is there to forbid. -/
def dmEvent : Operation := .sign ⟨"pub:sk", 0, 4, [], "hi"⟩

/-- The handler the HTTP path loads, with the given permissions. -/
def policyHttpHandler (permissions : List CustomPermission) : Http.HttpRpcHandler where
  keys := "sk"
  authorizationId := 1
  userPubkey := "pub:sk"
  expiresAt := none
  revokedAt := none
  permissions := permissions
  isOauth := true
  bunkerPubkey := "bunker"
  authorizationHandle := "bunker"

/-- The row with the given identifier. -/
def policyRow (identifier : String) : Permission :=
  ⟨9, identifier, .obj [("allowed_kinds", .arr [.int 1])]⟩

theorem paths_agree_iff_sample :
    (((policyHttpHandler [.allowedKinds (some [1])]).validateOperation policyWeb.toExternal
        dmEvent = .ok ()) ↔
      ((policyHandler.validateOperation policyWeb.toExternal dmEvent).run
        (policySigner "allowed_kinds")).1 = .ok ()) ↔
      (∀ p ∈ [policyRow "allowed_kinds"], p.Converts policyWeb.toExternal) ∨
      ∃ p ∈ [policyRow "allowed_kinds"],
        ∃ c, p.toCustomPermission policyWeb.toExternal = .ok c ∧
          c.allows policyWeb.toExternal "pub:sk" dmEvent = false :=
  @paths_agree_iff policyWeb (policyHttp "allowed_kinds") _ rfl "bunker" "pub:sk" 1 _ (by rfl) _
    (by decide +kernel) _ rfl (by rfl) rfl _ (by rfl) dmEvent

/-- **A typo opens the HTTP path.** The only row of the policy is unknown: the NIP-46 path refuses
to sign the message, the HTTP path drops the row and signs. -/
theorem unknown_row_opens_http :
    ((Http.loadHandlerOnDemand policyWeb "bunker" "pub:sk" 1).run (policyHttp "allowed_kind")).1 =
        .ok (policyHttpHandler []) ∧
      ¬ ((policyHttpHandler []).validateOperation policyWeb.toExternal dmEvent = .ok () ↔
        ((policyHandler.validateOperation policyWeb.toExternal dmEvent).run
          (policySigner "allowed_kind")).1 = .ok ()) := by
  decide

end Sample

end Keycast
