import Keycast.Core.Schema
import Keycast.Http.PolicyOrder
import Keycast.Lib.Interleave

/-!
# `Http/Commerce.lean` — the policy of an orders app

A customer who signs in for a merchant's orders app gives it an authorization whose policy has one
permission, `commerce_envelope` with the merchant's key. The policy is made when the merchant is
first met (`find_or_create_commerce_envelope` of `core/src/repositories/policy.rs`) and found by its
name from then on. Two customers may meet a merchant at the same time: both `SELECT`s find nothing,
and both transactions make a policy. The merchant then has two, which does no harm, since each is
whole when it can be found.

Whole it has to be. On both paths to the customer's key a policy without rows allows everything.
-/

set_option autoImplicit false

namespace Keycast

open Lib

/-! ## The program -/

namespace Http

/-- The name the policy is found by. -/
def commerceName (merchant : String) : String := "commerce_envelope:" ++ merchant

def commerceConfig (merchant : String) : Json := .obj [("merchant_pubkey", .str merchant)]

end Http

namespace Db

/-- `SELECT id FROM policies WHERE name = $1 AND team_id IS NULL ORDER BY id LIMIT 1`. -/
def findGlobalPolicy (db : Db) (name : String) : Option RowId :=
  ((db.policies.filter fun p => p.name == name && p.teamId.isNone).map (·.id)).min?

/-- The transaction: a policy of that name, a permission with this config, and the link between the
two. The ids are those the sequences give. -/
def createCommerceEnvelope (db : Db) (name config : String)
    (policyId permissionId : RowId) : Option Db :=
  if db.policies.any (·.id == policyId) || db.permissions.any (·.id == permissionId) then none
  else some { db with
    policies := db.policies ++ [{ id := policyId, slug := none, name }]
    permissions := db.permissions ++ [⟨permissionId, "commerce_envelope", config⟩]
    policyPermissions := db.policyPermissions ++ [⟨policyId, permissionId⟩] }

end Db

namespace Http

inductive PolicyStmt
  | select (name : String)
  | create (name : String)
  deriving DecidableEq, Repr

/-- A call, with the ids its transaction will draw if it comes to one. -/
structure CommerceCall where
  merchant : String
  policyId : RowId
  permissionId : RowId
  deriving DecidableEq, Repr

/-- `find_or_create_commerce_envelope`. -/
def findOrCreateCommerceEnvelope (w : Web) (call : CommerceCall) :
    Prog PolicyStmt Db RepositoryError RowId := do
  let name := commerceName call.merchant
  match ← .read (.select name) fun db => db.findGlobalPolicy name with
  | some policyId => return policyId
  | none =>
    let created ← .stmt (.create name) fun db =>
      match db.createCommerceEnvelope name
        (w.renderJson (commerceConfig call.merchant)) call.policyId
          call.permissionId with
      | some db' => (some call.policyId, db')
      | none => (none, db)
    .orErr created .duplicate

/-- Any number of calls, for any merchants. Nothing else makes or changes a policy of that kind. -/
def commerceSystem (w : Web) : System CommerceCall PolicyStmt Db RepositoryError RowId Empty where
  prog := findOrCreateCommerceEnvelope w
  env e := nomatch e

/-! ## Whole policies -/

variable {w : Web}

/-- The policy is there, and its only permission is the one for this merchant. -/
structure OnlyCommerce (w : Web) (db : Db) (merchant : String) (policyId : RowId) : Prop where
  policy : ∃ p ∈ db.policies, p.id = policyId
  permission : ∃ permissionId,
    db.policyPermissions.filter (·.policyId == policyId) = [⟨policyId, permissionId⟩] ∧
    db.permissions.filter (·.id == permissionId) =
      [⟨permissionId, "commerce_envelope", w.renderJson (commerceConfig merchant)⟩]

/-- What can be found under a merchant's name is whole. -/
structure CommerceSound (w : Web) (db : Db) : Prop where
  links : References (fun l => some l.policyId) Policy.id db.policyPermissions db.policies
  named : ∀ p ∈ db.policies, p.teamId = none → ∀ merchant, p.name = commerceName merchant →
    OnlyCommerce w db merchant p.id

/-- What was whole stays whole. -/
def CommerceKept (w : Web) (db db' : Db) : Prop :=
  ∀ merchant policyId, OnlyCommerce w db merchant policyId → OnlyCommerce w db' merchant policyId

theorem commerceName_inj {merchant merchant' : String}
    (h : commerceName merchant = commerceName merchant') :
    merchant = merchant' :=
  (String.append_right_inj _).mp h

theorem findGlobalPolicy_some {db : Db} {name : String} {policyId : RowId}
    (h : db.findGlobalPolicy name = some policyId) :
    ∃ p ∈ db.policies, p.id = policyId ∧ p.name = name ∧ p.teamId = none := by
  obtain ⟨p, hp, hid⟩ := List.mem_map.mp (List.min?_mem h)
  rw [List.mem_filter, Bool.and_eq_true, beq_iff_eq, Option.isNone_iff_eq_none] at hp
  exact ⟨p, hp.1, hid, hp.2⟩

section Create

variable {db db' : Db} {name config : String} {policyId permissionId : RowId}

theorem createCommerceEnvelope_some
    (h : db.createCommerceEnvelope name config policyId permissionId = some db') :
    (∀ p ∈ db.policies, p.id ≠ policyId) ∧ (∀ p ∈ db.permissions, p.id ≠ permissionId) ∧
      db' = { db with
      policies := db.policies ++ [{ id := policyId, slug := none, name }]
      permissions := db.permissions ++ [⟨permissionId, "commerce_envelope", config⟩]
      policyPermissions := db.policyPermissions ++ [⟨policyId, permissionId⟩] } := by
  unfold Db.createCommerceEnvelope at h
  split at h
  · cases h
  · next hfree =>
    simp only [Bool.or_eq_true, List.any_eq_true, beq_iff_eq, not_or, not_exists, not_and] at hfree
    exact ⟨hfree.1, hfree.2, (Option.some.inj h).symm⟩

theorem CommerceKept.create
    (h : db.createCommerceEnvelope name config policyId permissionId = some db') :
    CommerceKept w db db' := by
  obtain ⟨hpolicy, hpermission, rfl⟩ := createCommerceEnvelope_some h
  rintro merchant id ⟨⟨p, hp, rfl⟩, permId, hlinks, hrows⟩
  refine ⟨⟨p, List.mem_append_left _ hp, rfl⟩, permId, ?_, ?_⟩
  · rw [List.filter_append, hlinks, List.filter_cons_of_neg (by simpa using (hpolicy p hp).symm)]
    rfl
  · have hmem :
      (⟨permId, "commerce_envelope", w.renderJson (commerceConfig merchant)⟩ : PermissionRow) ∈
        db.permissions.filter (·.id == permId) := by
      rw [hrows]
      exact List.mem_singleton.mpr rfl
    have hne := hpermission _ (List.mem_filter.mp hmem).1
    rw [List.filter_append, hrows, List.filter_cons_of_neg (by simpa using hne.symm)]
    rfl

/-- The new policy has the new permission and no other: no link can name a policy that was not
there. -/
theorem onlyCommerce_create {merchant : String} (hdb : CommerceSound w db)
    (h : db.createCommerceEnvelope name (w.renderJson (commerceConfig merchant)) policyId
      permissionId = some db') :
    OnlyCommerce w db' merchant policyId := by
  obtain ⟨hpolicy, hpermission, rfl⟩ := createCommerceEnvelope_some h
  refine ⟨⟨_, List.mem_append_right _ (List.mem_singleton.mpr rfl), rfl⟩, permissionId, ?_, ?_⟩
  · have hnone : db.policyPermissions.filter (·.policyId == policyId) = [] := by
      rw [List.filter_eq_nil_iff]
      intro l hl heq
      obtain ⟨p, hp, hid⟩ := hdb.links l hl l.policyId rfl
      exact hpolicy p hp (hid.trans (by simpa using heq))
    rw [List.filter_append, hnone, List.filter_cons_of_pos (by simp)]
    rfl
  · have hnone : db.permissions.filter (·.id == permissionId) = [] := by
      rw [List.filter_eq_nil_iff]
      intro p hp heq
      exact hpermission p hp (by simpa using heq)
    rw [List.filter_append, hnone, List.filter_cons_of_pos (by simp)]
    rfl

theorem CommerceSound.create {merchant : String} (hdb : CommerceSound w db)
    (h : db.createCommerceEnvelope (commerceName merchant) (w.renderJson (commerceConfig merchant))
      policyId permissionId =
      some db') : CommerceSound w db' := by
  have hnew := onlyCommerce_create hdb h
  have hkept : CommerceKept w db db' := .create h
  obtain ⟨-, -, rfl⟩ := createCommerceEnvelope_some h
  refine ⟨fun l hl k hk => ?_, fun p hp hteam m hname => ?_⟩
  · rcases List.mem_append.mp hl with hl | hl
    · obtain ⟨p, hp, hid⟩ := hdb.links l hl k hk
      exact ⟨p, List.mem_append_left _ hp, hid⟩
    · rw [List.mem_singleton] at hl
      subst hl
      cases hk
      exact ⟨_, List.mem_append_right _ (List.mem_singleton.mpr rfl), rfl⟩
  · rcases List.mem_append.mp hp with hp | hp
    · exact hkept m p.id (hdb.named p hp hteam m hname)
    · rw [List.mem_singleton] at hp
      subst hp
      rw [← commerceName_inj hname]
      exact hnew

end Create

/-! ## Runs -/

theorem findOrCreateCommerceEnvelope_holds (call : CommerceCall) (db : Db) :
    (findOrCreateCommerceEnvelope w call).Holds (CommerceSound w) (fun _ _ => True) (CommerceKept w)
      (fun _ db r => ∀ policyId, r = .ok policyId →
        OnlyCommerce w db call.merchant policyId) [] db := by
  refine .read (fun _ _ _ h => h) fun db₁ _ hdb₁ _ => ?_
  split
  · next policyId hfound =>
    rintro id ⟨⟩
    obtain ⟨p, hp, rfl, hname, hteam⟩ := findGlobalPolicy_some hfound
    exact hdb₁.named p hp hteam call.merchant hname
  · refine .stmt fun db₂ _ hdb₂ _ => ?_
    cases hcreate : db₂.createCommerceEnvelope (commerceName call.merchant)
      (w.renderJson (commerceConfig call.merchant))
        call.policyId call.permissionId with
    | none => exact ⟨hdb₂, fun _ _ h => h, fun _ h => nomatch h⟩
    | some db₃ =>
      refine ⟨hdb₂.create hcreate, .create hcreate, ?_⟩
      rintro id ⟨⟩
      exact onlyCommerce_create hdb₂ hcreate

theorem commerceSystem_guarantees (w : Web) :
    (commerceSystem w).Guarantees (CommerceSound w) (fun _ _ => True) (fun _ _ => True)
      (CommerceKept w)
      fun call _ db r => ∀ policyId, r = .ok policyId →
        OnlyCommerce w db call.merchant policyId where
  refl _ _ _ h := h
  trans _ _ _ h h' m id hid := h' m id (h m id hid)
  post _ _ _ _ _ hkept h id hr := hkept _ id (h id hr)
  prog call db _ := findOrCreateCommerceEnvelope_holds call db
  env e := nomatch e

/-! ## What such a policy lets through -/

/-- What an orders app may do: sign seals, and encrypt commerce envelopes that name the merchant, to
the merchant or to the customer. -/
def OrdersOnly (w : Web) (merchant self : PublicKey) : Operation → Prop
  | .sign event => event.kind = 13
  | .encrypt plaintext recipient =>
    (∃ event, w.parseUnsignedEvent plaintext = some event ∧ event.kind = 1327 ∧
      merchant ∈ w.tagPublicKeys event.tags) ∧
      (recipient = merchant ∨ recipient = self)
  | .decrypt .. => True

theorem ordersOnly_of_allows {merchant self : PublicKey} {op : Operation}
    (h : (CustomPermission.commerceEnvelope merchant).allows w.toExternal self op = true) :
      OrdersOnly w merchant self op := by
  cases op with
  | sign event => exact beq_iff_eq.mp h
  | decrypt => trivial
  | encrypt plaintext recipient =>
    simp only [CustomPermission.allows, CustomPermission.canEncrypt, Bool.and_eq_true,
      Bool.or_eq_true, beq_iff_eq] at h
    obtain ⟨hrecipient, henvelope⟩ := h
    refine ⟨?_, hrecipient⟩
    unfold CustomPermission.isEnvelopeForMerchant at henvelope
    split at henvelope
    · next event hparse =>
      rw [Bool.and_eq_true, beq_iff_eq, List.any_eq_true] at henvelope
      obtain ⟨hkind, key, hkey, heq⟩ := henvelope
      exact ⟨event, hparse, hkind, beq_iff_eq.mp heq ▸ hkey⟩
    · cases henvelope

/-- The rows of such a policy, read. -/
theorem OnlyCommerce.getPermissions {db : Db} {merchant : String} {policyId : RowId}
    (h : OnlyCommerce w db merchant policyId)
    (hjson : w.parseJson (w.renderJson (commerceConfig merchant)) =
      some (commerceConfig merchant)) :
    ∃ permissionId, db.getPermissions w.toExternal policyId =
      some [⟨permissionId, "commerce_envelope", commerceConfig merchant⟩] := by
  obtain ⟨-, permissionId, hlinks, hrows⟩ := h
  refine ⟨permissionId, ?_⟩
  rw [Db.getPermissions, Db.permissionRows, hlinks, List.flatMap_singleton, hrows]
  show ((w.parseJson _).map _ >>= _ : Option (List Permission)) = _
  rw [hjson]
  rfl

theorem convert_commerceEnvelope {id : RowId} {merchant : String} {key : PublicKey}
    (hkey : w.publicKeyFromHex merchant = .ok key) :
    (⟨id, "commerce_envelope", commerceConfig merchant⟩ : Permission).toCustomPermission
      w.toExternal =
      .ok (.commerceEnvelope key) := by
  unfold Permission.toCustomPermission
  rw [if_neg (show ¬ ("commerce_envelope".startsWith "allowed_kinds" = true) by decide +kernel),
    if_pos rfl]
  have hread : CustomPermission.orInvalid
      (Json.deStruct "merchant_pubkey" none Json.asStr (commerceConfig merchant)) = .ok merchant :=
        rfl
  simp only [CustomPermission.commerceEnvelopeFrom, hread, bind, Except.bind, hkey]
  rfl

/-! ## The result -/

/-- **Orders apps are confined to their merchant.** Start from tables in which no merchant has a
policy yet, and let any calls run, for any merchants, in any interleaving. The policy a call returns
has the permission for its merchant and no other; and whatever passes the checks of either path for
an authorization with that policy is what an orders app may do. -/
theorem orders_apps_confined {db : Db}
    (hlinks : References (fun l => some l.policyId) Policy.id db.policyPermissions db.policies)
    (hfirst : ∀ p ∈ db.policies, p.teamId = none → ∀ merchant, p.name ≠ commerceName merchant)
    {es : List (Ev CommerceCall Empty)}
    {t : Thread CommerceCall PolicyStmt Db RepositoryError RowId}
    (ht : t ∈ (run (commerceSystem w).step (.init db) es).threads) {policyId : RowId}
    (hres : t.result? = some (.ok policyId)) {key : PublicKey}
    (hkey : w.publicKeyFromHex t.req.merchant = .ok key)
    (hjson : w.parseJson (w.renderJson (commerceConfig t.req.merchant)) =
      some (commerceConfig t.req.merchant)) :
    OnlyCommerce w (run (commerceSystem w).step (.init db) es).state t.req.merchant policyId ∧
      (∀ (s : Signer.State) (n : Signer.Nip46Handler) (op : Operation),
        SamePermissions (run (commerceSystem w).step (.init db) es).state s.db →
        HasPolicy n s.db policyId →
        ((n.validateOperation w.toExternal op).run s).1 = .ok () →
          OrdersOnly w key (w.publicKey n.userKeys) op) ∧
      ∀ (s : State) (bunker user : PublicKey) (tenant : TenantId) (row : OAuthAuthorization)
        (h : HttpRpcHandler)
        (op : Operation), SamePermissions (run (commerceSystem w).step (.init db) es).state s.db →
        s.db.oauthByBunker bunker = some row → row.policyId = some policyId →
        ((loadHandlerOnDemand w bunker user tenant).run s).1 = .ok h →
        h.validateOperation w.toExternal op = .ok () → OrdersOnly w key h.userPubkey op := by
  have hsound : CommerceSound w db :=
    ⟨hlinks, fun p hp hteam m hname => absurd hname (hfirst p hp hteam m)⟩
  have honly :=
    (commerceSystem_guarantees w).result hsound (System.along_allowed _ _ es) ht hres policyId rfl
  obtain ⟨permissionId, hrows⟩ := honly.getPermissions hjson
  have hrow :
    (⟨permissionId, "commerce_envelope",
      commerceConfig t.req.merchant⟩ : Permission).toCustomPermission
      w.toExternal = .ok (.commerceEnvelope key) := convert_commerceEnvelope hkey
  refine ⟨honly, fun s n op hsame hpolicy hok => ?_,
    fun s bunker user tenant row h op hsame hrow' hid hload hok => ?_⟩
  · rw [← hsame.getPermissions] at hrows
    rw [Signer.validateOperation_run, hpolicy.policyPermissions_run hrows] at hok
    have hlets : Path.Lets w.toExternal _ (w.publicKey n.userKeys) op .nip46 := hok
    have hlets := Path.lets_iff.mp hlets _ List.mem_cons_self
    exact ordersOnly_of_allows ((Permission.lets_iff hrow).mp hlets)
  · rw [← hsame.getPermissions] at hrows
    obtain ⟨-, row', permissions, _, _, _, _, hrow'', -, hperms, -, -, -, rfl⟩ :=
      loadHandlerOnDemand_run (Prod.ext hload rfl)
    cases hrow'.symm.trans hrow''
    rw [policyOf, policyRows, hid] at hperms
    simp only [hrows, Option.map_some, Option.some.injEq] at hperms
    rw [HttpRpcHandler.validateOperation_eq, HttpRpcHandler.validate_eq_ok] at hok
    have hmem : CustomPermission.commerceEnvelope key ∈ permissions := by
      rw [← hperms]
      exact mem_convertPermissions.mpr ⟨_, List.mem_cons_self, hrow⟩
    exact ordersOnly_of_allows (hok _ hmem)

/-! Two customers meet a merchant at the same time. -/

def ordersWeb : Web := .symbolic [] [("response", commerceConfig "merchant")]

def meetMerchant : List (Ev CommerceCall Empty) :=
  [.spawn ⟨"merchant", 1, 1⟩, .spawn ⟨"merchant", 2, 2⟩, .exec 0, .exec 1, .exec 0, .exec 1]

theorem orders_apps_confined_two :
    ∃ t ∈ (run (commerceSystem ordersWeb).step (.init {}) meetMerchant).threads,
      t.result? = some (.ok 2) ∧
      OnlyCommerce ordersWeb (run (commerceSystem ordersWeb).step (.init {}) meetMerchant).state
        "merchant" 2 := by
  obtain ⟨t, ht, hp⟩ := Conf.exists_thread (i := 1)
    (p := fun t => decide (t.result? = some (.ok 2)) && t.req.merchant == "merchant")
    (show ((run (commerceSystem ordersWeb).step (.init {}) meetMerchant).threads[1]?).any _ =
      true by decide)
  rw [Bool.and_eq_true, decide_eq_true_iff, beq_iff_eq] at hp
  have hmem := List.mem_of_getElem? ht
  have honly := orders_apps_confined (by intro l hl; cases hl) (by intro p hp; cases hp) hmem hp.1
    (show ordersWeb.publicKeyFromHex t.req.merchant = .ok t.req.merchant from rfl)
      (by rw [hp.2]; rfl)
  refine ⟨t, hmem, hp.1, ?_⟩
  rw [← hp.2]
  exact honly.1

end Http

end Keycast
