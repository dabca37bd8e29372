import Keycast.Http.Token
import Keycast.Lib.Cache
import Keycast.Lib.Interleave

/-!
# `Http/Tenants.lean` — which tenant a request is for

`api/src/api/tenant.rs`. A request is for the tenant whose domain is the host it names. The
customers' tenant has only a few routes, and `customer_tenant_guard` enforces it by comparing names,
before any tenant is looked up; the handlers get their tenant from `TenantExtractor`, which asks a
cache, and behind it a table where an unknown domain gets a row of its own.

So the two must agree, after every history of the caches. They do: a tenant is only ever cached
under its domain (`TenantState.Sound`), and both look at the host in the same way.
-/

set_option autoImplicit false

namespace Keycast.Http.Tenants

open Lib

/-- A row of `tenants`. -/
structure Tenant where
  id : TenantId
  domain : String
  deriving DecidableEq, Repr

inductive TenantError
  | invalidDomain (text : String)
  | validationFailed (text : String)
  deriving DecidableEq, Repr

/-- `CUSTOMER_TENANT_DOMAIN` and `ALLOWED_TENANT_DOMAINS`. -/
structure Env where
  customerTenantDomain : Option String
  allowedTenantDomains : Option String

/-- What of the request is read here. -/
structure Parts where
  host : Option HeaderValue := none
  uriHost : Option String := none
  path : String
  deriving DecidableEq, Repr

/-! ## The guard -/

/-- `customer_tenant_domain`. -/
def customerTenantDomain (env : Env) : Option String :=
  (env.customerTenantDomain.map fun domain => String.ofList (trimmed domain)).filter
    fun domain => domain ≠ ""

/-- `Tenant::is_customer_tenant`. -/
def Tenant.isCustomerTenant (env : Env) (tenant : Tenant) : Bool :=
  customerTenantDomain env == some tenant.domain

/-- `request_domain`: the `Host` header, or the authority of the URI, up to the first colon. -/
def requestDomain (parts : Parts) : Option String :=
  ((parts.host.bind id).or parts.uriHost).map fun host =>
    String.ofList (host.toList.takeWhile (· ≠ ':'))

/-- `is_customer_route`. -/
def isCustomerRoute (path : String) : Bool :=
  ["/nostr", "/auth/magic-link", "/auth/magic-link/verify", "/customer/account",
    "/customer/authorizations",
    "/customer/authorizations/revoke"].contains path

/-- The path as the guard sees it. -/
def apiPath (parts : Parts) : String := (stripPrefix "/api" parts.path).getD parts.path

/-- `customer_tenant_guard`: the request goes on. -/
def customerTenantGuard (env : Env) (parts : Parts) : Bool :=
  match customerTenantDomain env, requestDomain parts with
  | some customerDomain, some domain =>
    !(domain == customerDomain && !isCustomerRoute (apiPath parts))
  | _, _ => true

/-! ## The extractor -/

/-- `domain_is_allowed`. -/
def domainIsAllowed (env : Env) (domain : String) : Bool :=
  match env.allowedTenantDomains with
  | some allowed => (allowed.toList.splitOn ',').any fun d =>
    trimmed (String.ofList d) == domain.toList
  | none => true

def blockedPrefixes : List String := ["127.", "192.168.", "10.", "172."]

def blockedSuffixes : List String := [".local", ".internal", ".test"]

/-- What a domain matches that may not be provisioned: an address from the start, a name from the
end. -/
def blockedPattern (domain : String) : Option String :=
  let name := domain.toList.reverse.dropWhile (· == '.')
  (blockedPrefixes.find? fun pattern => pattern.toList.isPrefixOf domain.toList).or
    (blockedSuffixes.find? fun pattern => pattern.toList.reverse.isPrefixOf name)

/-- `validate_domain`. A host is ASCII, so `is_alphanumeric` is what it is there. -/
def validateDomain (env : Env) (domain : String) : Except TenantError Unit :=
  if domain = "" then .error (.invalidDomain "Domain cannot be empty")
  else if env.allowedTenantDomains.isSome then
    if domainIsAllowed env domain then .ok ()
    else .error (.validationFailed ("Domain '" ++ domain ++ "' not in allowed list"))
  else if 253 < domain.utf8ByteSize then .error (.invalidDomain "Domain too long")
  else if domain = "localhost" then .ok ()
  else if !domain.toList.contains '.' then
    .error (.validationFailed "Domain must contain at least one dot")
  else if !domain.toList.all (fun c => c.isAlphanum || c == '.' || c == '-') then
    .error (.invalidDomain "Domain contains invalid characters")
  else
    match blockedPattern domain with
    | some pattern => .error (.validationFailed ("Domain matches blocked pattern: " ++ pattern))
    | none => .ok ()

/-- The table, with its sequence, and the cache of every instance. -/
structure TenantState where
  tenants : List Tenant
  seq : TenantId
  caches : Nat → Cache String Tenant

inductive TenantStmt
  | cacheGet (inst : Nat) (domain : String)
  | upsertTenant (domain : String)
  | cacheInsert (inst : Nat) (domain : String)
  | listTenants
  deriving DecidableEq, Repr

namespace TenantState

def updateCache (s : TenantState) (inst : Nat) (f : Cache String Tenant → Cache String Tenant) :
    TenantState :=
  { s with caches := fun i => if i = inst then f (s.caches i) else s.caches i }

/-- `INSERT INTO tenants ... ON CONFLICT (domain) DO UPDATE ... RETURNING`. The sequence moves in
both cases. -/
def upsertTenant (s : TenantState) (domain : String) : Tenant × TenantState :=
  match s.tenants.find? (·.domain == domain) with
  | some tenant => (tenant, { s with seq := s.seq + 1 })
  | none =>
    (⟨s.seq + 1, domain⟩,
      { s with seq := s.seq + 1, tenants := s.tenants ++ [⟨s.seq + 1, domain⟩] })

end TenantState

/-- `get_or_create_tenant`. -/
def getOrCreateTenant (env : Env) (domain : String) :
    Prog TenantStmt TenantState TenantError Tenant := do
  .ofExcept (validateDomain env domain)
  .stmt (.upsertTenant domain) (·.upsertTenant domain)

/-- Status and text. -/
abbrev Rejection := Nat × String

def invalidDomain (domain : String) : Rejection := (400, "Invalid domain: " ++ domain)

/-- `TenantExtractor::from_request_parts`. -/
def fromRequestParts (env : Env) (inst : Nat) (parts : Parts) :
    Prog TenantStmt TenantState Rejection Tenant := do
  let domain ← .orErr (requestDomain parts) (400, "Missing Host header")
  -- before the cache, which holds every tenant of the table
  if !domainIsAllowed env domain then .err (invalidDomain domain)
  else
    match ← .read (.cacheGet inst domain) fun s => (s.caches inst).get domain with
    | some tenant => return tenant
    | none =>
      let tenant ← (getOrCreateTenant env domain).mapErr fun _ => invalidDomain domain
      .write (.cacheInsert inst domain) (·.updateCache inst (·.insert domain tenant))
      return tenant

/-- A request that comes through the guard, up to its tenant. -/
def serve (env : Env) (inst : Nat) (parts : Parts) : Prog TenantStmt TenantState Rejection Tenant :=
  if customerTenantGuard env parts then fromRequestParts env inst parts else .err (404, "Not found")

/-- The loop of the preload task. -/
def cacheTenants (inst : Nat) : List Tenant → Prog TenantStmt TenantState Rejection Unit
  | [] => return ()
  | tenant :: rest => do
    .write (.cacheInsert inst tenant.domain) (·.updateCache inst (·.insert tenant.domain tenant))
    cacheTenants inst rest

/-- The preload task of `keycast/src/main.rs`. -/
def preload (inst : Nat) : Prog TenantStmt TenantState Rejection Unit := do
  let tenants ← .read .listTenants (·.tenants)
  cacheTenants inst tenants

/-! ## The system -/

inductive TenantWork
  | request (inst : Nat) (parts : Parts)
  | preload (inst : Nat)
  deriving DecidableEq, Repr

/-- The tenant of a request; a preload has none. -/
def perform (env : Env) : TenantWork → Prog TenantStmt TenantState Rejection (Option Tenant)
  | .request inst parts => do
    let tenant ← serve env inst parts
    return some tenant
  | .preload inst => do
    preload inst
    return none

/-- A cache forgets entries when it likes. -/
structure Eviction where
  inst : Nat
  domain : String

def system (env : Env) :
    System TenantWork TenantStmt TenantState Rejection (Option Tenant) Eviction where
  prog := perform env
  env e s := s.updateCache e.inst (·.invalidate e.domain)

/-- The keys of the table, and: **what is cached under a domain is the row with that domain**. -/
structure TenantState.Sound (s : TenantState) : Prop where
  domains : (s.tenants.map Tenant.domain).Nodup
  ids : (s.tenants.map Tenant.id).Nodup
  drawn : ∀ t ∈ s.tenants, t.id ≤ s.seq
  cached : ∀ inst domain t, (s.caches inst).get domain = some t → t.domain = domain ∧ t ∈ s.tenants

/-- Rows stay. -/
def TenantState.Grows (s s' : TenantState) : Prop := s.tenants ⊆ s'.tenants

/-- A request ends with the row that has the domain it names. -/
def Found (env : Env) (r : TenantWork) (s : TenantState)
    (result : Except Rejection (Option Tenant)) : Prop :=
  ∀ inst parts tenant, r = .request inst parts → result = .ok (some tenant) →
    customerTenantGuard env parts = true ∧ requestDomain parts = some tenant.domain ∧
      tenant ∈ s.tenants

section Steps

variable {s : TenantState} {tenant : Tenant}

theorem TenantState.Sound.insert (h : s.Sound) (inst : Nat) (hmem : tenant ∈ s.tenants) :
    (s.updateCache inst (·.insert tenant.domain tenant)).Sound where
  domains := h.domains
  ids := h.ids
  drawn := h.drawn
  cached i domain t hget := by
    simp only [TenantState.updateCache] at hget
    split at hget
    · rw [Cache.get_insert] at hget
      split at hget
      · next hsame =>
        cases hget
        exact ⟨hsame.symm, hmem⟩
      · exact h.cached i domain t hget
    · exact h.cached i domain t hget

theorem TenantState.Sound.evict (h : s.Sound) (inst : Nat) (domain : String) :
    (s.updateCache inst (·.invalidate domain)).Sound where
  domains := h.domains
  ids := h.ids
  drawn := h.drawn
  cached i domain' t hget := by
    simp only [TenantState.updateCache] at hget
    split at hget
    · rw [Cache.get_invalidate] at hget
      split at hget
      · cases hget
      · exact h.cached i domain' t hget
    · exact h.cached i domain' t hget

/-- The row that comes back has the domain, old or new. -/
theorem TenantState.upsertTenant_spec (h : s.Sound) (domain : String) :
    (s.upsertTenant domain).2.Sound ∧ s.Grows (s.upsertTenant domain).2 ∧
      (s.upsertTenant domain).1.domain = domain ∧
        (s.upsertTenant domain).1 ∈ (s.upsertTenant domain).2.tenants := by
  unfold TenantState.upsertTenant
  split
  · next t hfound =>
    refine ⟨⟨h.domains, h.ids, fun t ht => ?_, h.cached⟩, List.Subset.refl _, ?_,
      List.mem_of_find?_eq_some hfound⟩
    · exact Int.le_of_lt (Int.lt_add_one_of_le (h.drawn t ht))
    · simpa using List.find?_some hfound
  · next hnone =>
    have hnew : domain ∉ s.tenants.map Tenant.domain := by
      intro hmem
      obtain ⟨t, ht, rfl⟩ := List.mem_map.mp hmem
      have hno := List.find?_eq_none.mp hnone t ht
      simp at hno
    have hid : s.seq + 1 ∉ s.tenants.map Tenant.id := by
      intro hmem
      obtain ⟨t, ht, heq⟩ := List.mem_map.mp hmem
      have hle := h.drawn t ht
      rw [heq] at hle
      exact absurd hle (Int.not_le.mpr (Int.lt_add_one_of_le (Int.le_refl _)))
    refine ⟨⟨?_, ?_, fun t ht => ?_, fun i d t hget => ?_⟩, List.subset_append_left _ _, rfl, ?_⟩
    · rw [List.map_append]
      exact h.domains.append (List.nodup_singleton _) (List.disjoint_singleton.mpr hnew)
    · rw [List.map_append]
      exact h.ids.append (List.nodup_singleton _) (List.disjoint_singleton.mpr hid)
    · rcases List.mem_append.mp ht with ht | ht
      · exact Int.le_of_lt (Int.lt_add_one_of_le (h.drawn t ht))
      · exact Int.le_of_eq (by rw [List.mem_singleton.mp ht])
    · obtain ⟨hdomain, hmem⟩ := h.cached i d t hget
      exact ⟨hdomain, List.mem_append_left _ hmem⟩
    · exact List.mem_append_right _ (List.mem_singleton_self _)

end Steps

section Requests

variable {env : Env} {inst : Nat} {parts : Parts}

/-- The row that has the domain, at the end of every interleaving. -/
def IsRow (domain : String) (s : TenantState) (r : Except Rejection Tenant) : Prop :=
  ∀ tenant, r = .ok tenant → tenant.domain = domain ∧ tenant ∈ s.tenants

theorem TenantState.Grows.refl (s : TenantState) : s.Grows s := List.Subset.refl _

theorem getOrCreateTenant_holds (domain : String) (seen : List (TenantStmt × TenantState))
    (s : TenantState) :
    ((getOrCreateTenant env domain).mapErr fun _ => invalidDomain domain).Holds TenantState.Sound
      (fun _ _ => True)
      TenantState.Grows (fun _ s r => IsRow domain s r) seen s := by
  refine .mapErr (.ofExcept (fun _ _ h => nomatch h) fun _ _ => ?_)
  intro s' _ hs _
  obtain ⟨hsound, hgrows, hdomain, hmem⟩ := TenantState.upsertTenant_spec hs domain
  refine ⟨hsound, hgrows, fun tenant heq => ?_⟩
  cases heq
  exact ⟨hdomain, hmem⟩

/-- The tenant of a request is the row with the domain it names. -/
theorem fromRequestParts_holds (seen : List (TenantStmt × TenantState)) (s : TenantState) :
    (fromRequestParts env inst parts).Holds TenantState.Sound (fun _ _ => True) TenantState.Grows
      (fun _ s r => ∀ tenant, r = .ok tenant → requestDomain parts = some tenant.domain ∧
        tenant ∈ s.tenants)
      seen s := by
  unfold fromRequestParts
  refine .orErr (fun tenant h => by cases h) fun domain hdomain => ?_
  split
  · intro tenant h
    cases h
  refine .read .refl fun s₁ _ hs₁ _ => ?_
  cases hget : (s₁.caches inst).get domain with
  | some tenant =>
    intro t heq
    cases heq
    obtain ⟨rfl, hmem⟩ := hs₁.cached inst domain tenant hget
    exact ⟨hdomain, hmem⟩
  | none =>
    refine .bind ((getOrCreateTenant_holds domain _ _).mono fun seen s₂ r hrow => ?_)
    cases r with
    | error e =>
      intro tenant h
      cases h
    | ok tenant =>
      obtain ⟨rfl, hmem⟩ := hrow tenant rfl
      refine .write fun s₃ hgrows hs₃ _ => ⟨hs₃.insert inst (hgrows hmem), .refl _, fun t heq => ?_⟩
      cases heq
      exact ⟨hdomain, hgrows hmem⟩

theorem cacheTenants_holds {tenants : List Tenant} {seen : List (TenantStmt × TenantState)}
    {s : TenantState}
    (hrows : ∀ t ∈ tenants, t ∈ s.tenants) :
    (cacheTenants inst tenants).Holds TenantState.Sound (fun _ _ => True) TenantState.Grows
      (fun _ _ _ => True) seen
      s := by
  induction tenants generalizing seen s with
  | nil => trivial
  | cons tenant rest ih =>
    refine .write fun s₁ hgrows hs₁ _ =>
      ⟨hs₁.insert inst (hgrows (hrows tenant List.mem_cons_self)), .refl _, ?_⟩
    exact ih fun t ht => hgrows (hrows t (List.mem_cons_of_mem _ ht))

theorem perform_holds (r : TenantWork) (s : TenantState) :
    (perform env r).Holds TenantState.Sound (fun _ _ => True) TenantState.Grows
      (fun _ s x => Found env r s x) []
      s := by
  cases r with
  | request inst parts =>
    refine .bind ?_
    unfold serve
    split
    · next hguard =>
      refine (fromRequestParts_holds _ _).mono fun seen s₁ x hrow => ?_
      cases x with
      | error e => exact fun _ _ _ _ h => nomatch h
      | ok tenant =>
        intro inst' parts' t hr heq
        cases hr
        cases heq
        exact ⟨hguard, hrow tenant rfl⟩
    · exact fun _ _ _ _ h => nomatch h
  | preload inst =>
    refine .bind
      (.read .refl fun s₁ _ _ _ => (cacheTenants_holds fun t ht => ht).mono fun seen s₂ x _ => ?_)
    cases x with
    | error e => exact fun _ _ _ h => nomatch h
    | ok => exact fun _ _ _ h => nomatch h

end Requests

theorem system_guarantees (env : Env) :
    (system env).Guarantees TenantState.Sound (fun _ _ => True) (fun _ _ => True) TenantState.Grows
      fun r _ s x => Found env r s x where
  refl := .refl
  trans _ _ _ := List.Subset.trans
  post r _ s s' x hgrows hfound inst parts tenant hr hx := by
    obtain ⟨hguard, hdomain, hmem⟩ := hfound inst parts tenant hr hx
    exact ⟨hguard, hdomain, hgrows hmem⟩
  prog r s _ := perform_holds r s
  env e s _ hs := ⟨hs.evict e.inst e.domain, .refl _⟩

/-! ## The result -/

/-- The customers' tenant: by its domain, as the handlers ask, or by its id, which is in their
queries. -/
def IsCustomers (env : Env) (s : TenantState) (tenant : Tenant) : Prop :=
  tenant.isCustomerTenant env = true ∨ ∃ row ∈ s.tenants, row.isCustomerTenant env = true ∧
    row.id = tenant.id

/-- The table as an instance finds it when it starts, with nothing cached. -/
def TenantState.boot (tenants : List Tenant) (seq : TenantId) : TenantState :=
  ⟨tenants, seq, fun _ => .empty⟩

theorem TenantState.sound_boot {tenants : List Tenant} {seq : TenantId}
    (hdomains : (tenants.map Tenant.domain).Nodup) (hids : (tenants.map Tenant.id).Nodup)
    (hdrawn : ∀ t ∈ tenants, t.id ≤ seq) : (TenantState.boot tenants seq).Sound := by
  refine ⟨hdomains, hids, hdrawn, fun inst domain t hget => ?_⟩
  rw [TenantState.boot, Cache.get_empty] at hget
  cases hget

/-- **The customers' tenant is confined to its routes.** In every run, whatever hosts the requests
name and whenever the caches are preloaded, a request that passes the guard and is for the
customers' tenant is for one of the customers' routes. -/
theorem customers_confined {env : Env} {tenants : List Tenant} {seq : TenantId}
    (hdomains : (tenants.map Tenant.domain).Nodup) (hids : (tenants.map Tenant.id).Nodup)
    (hdrawn : ∀ t ∈ tenants, t.id ≤ seq) (events : List (Ev TenantWork Eviction))
    {t : Thread TenantWork TenantStmt TenantState Rejection (Option Tenant)}
    (ht : t ∈ (run (system env).step (Conf.init (.boot tenants seq)) events).threads) {inst : Nat}
    {parts : Parts}
    (hreq : t.req = .request inst parts) {tenant : Tenant}
    (hresult : t.result? = some (.ok (some tenant)))
    (hcustomers : IsCustomers env
      (run (system env).step (Conf.init (.boot tenants seq)) events).state tenant) :
    isCustomerRoute (apiPath parts) = true := by
  have hs := TenantState.sound_boot hdomains hids hdrawn
  have hok := (system env).along_allowed (Conf.init (.boot tenants seq)) events
  obtain ⟨hguard, hdomain, hmem⟩ :=
    (system_guarantees env).result hs hok ht hresult inst parts tenant hreq rfl
  have hsound := ((system_guarantees env).run hs hok).state
  have hcustomer : tenant.isCustomerTenant env = true := by
    rcases hcustomers with h | ⟨row, hrow, hcustomer, hid⟩
    · exact h
    · rwa [List.inj_on_of_nodup_map hsound.ids hrow hmem hid] at hcustomer
  rw [Tenant.isCustomerTenant, beq_iff_eq] at hcustomer
  rw [customerTenantGuard, hcustomer, hdomain] at hguard
  simpa using hguard

/-! The customers' host in another case is another tenant; the customers' own is found in the
cache. -/

def hosts : Env := ⟨some "orders.example", none⟩

def tenantRows : List Tenant := [⟨1, "app.example"⟩, ⟨2, "orders.example"⟩]

def tenantEvents : List (Ev TenantWork Eviction) :=
  [.spawn (.preload 0), .exec 0, .exec 0, .exec 0,
    .spawn (.request 0
      { host := some (some "Orders.example:443"), path := "/api/user/bunker/create" }),
    .exec 1, .exec 1, .exec 1,
    .spawn (.request 0 { uriHost := some "orders.example", path := "/api/customer/account" }),
      .exec 2]

theorem customers_confined_orders :
    ((run (system hosts).step (Conf.init (.boot tenantRows 2)) tenantEvents).threads.map
      fun t => t.result?) =
      [some (.ok none), some (.ok (some ⟨3, "Orders.example"⟩)),
        some (.ok (some ⟨2, "orders.example"⟩))] ∧
    isCustomerRoute
      (apiPath { uriHost := some "orders.example", path := "/api/customer/account" }) = true := by
  obtain ⟨t, ht, hfacts⟩ := Conf.exists_thread (i := 2)
    (c := run (system hosts).step (Conf.init (.boot tenantRows 2)) tenantEvents) (p := fun t =>
      decide (t.req =
        .request 0 { uriHost := some "orders.example", path := "/api/customer/account" }) &&
        decide (t.result? = some (.ok (some ⟨2, "orders.example"⟩)))) (by decide)
  rw [Bool.and_eq_true, decide_eq_true_eq, decide_eq_true_eq] at hfacts
  exact ⟨by decide, customers_confined (by decide) (by decide) (by decide) tenantEvents
    (List.mem_of_getElem? ht) hfacts.1 hfacts.2 (.inl (by decide))⟩

end Keycast.Http.Tenants
