import Keycast.Core.BuiltIn
import Keycast.Http.ApiCalls

/-!
# `Http/Confined.lean` — what a third-party token is confined to

An attacker holds tokens, codes and refresh tokens of an app. The invariant of all it does is that
these are harmless (`Confined`): the tokens are a third party's, the codes are for policies that
allow nothing beyond a bound, and so are the authorizations that the refresh tokens belong to.

The bound is a set of operations, and stays the same. That a policy is within it could change with
the tables, for teams come and go with their policies. But a code or an OAuth authorization names a
built-in policy, and these stay (`KeepsBuiltIn`).

`Safe` is what one statement may do to the tables. It composes, so that an endpoint needs one lemma
for each kind of statement it is made of.
-/

set_option autoImplicit false

namespace Keycast.Http

open Lib

/-! ## What a policy allows -/

/-- The policy lets the operation through on the HTTP path; the other path lets through no more. -/
def Grants (w : Web) (db : Db) (policy : Option RowId) (user : PublicKey) (op : Operation) : Prop :=
  match policy with
  | none => True
  | some id => ∃ rows, db.getPermissions w.toExternal id = some rows ∧
      ∀ c ∈ convertPermissions w.toExternal rows, c.allows w.toExternal user op = true

/-- The policy allows nothing beyond `A`. -/
def Bounded (w : Web) (A : PublicKey → Operation → Prop) (db : Db) (p : Option RowId) : Prop :=
  ∀ user op, Grants w db p user op → A user op

/-- The policy `p` allows no operation that `P` forbids. -/
def Within (w : Web) (db : Db) (P p : Option RowId) : Prop := Bounded w (Grants w db P) db p

/-- The policy a scope names, if it names one, allows nothing beyond `A`. -/
def ScopeBounded (w : Web) (A : PublicKey → Operation → Prop) (db : Db) (scope : String) : Prop :=
  ∀ slug policy, parsePolicyScope scope = .ok slug → db.findPolicyBySlug slug = some policy →
    Bounded w A db (some policy.id)

def ScopeWithin (w : Web) (db : Db) (P : Option RowId) (scope : String) : Prop :=
  ScopeBounded w (Grants w db P) db scope

/-- The same of a policy that stays as it is. -/
structure Capped (w : Web) (A : PublicKey → Operation → Prop) (db : Db) (p : Option RowId) :
    Prop where
  builtIn : ∀ id, p = some id → db.BuiltIn id
  bounded : Bounded w A db p

section Policies

variable {w : Web} {A : PublicKey → Operation → Prop} {db db' : Db}

theorem grants_congr (h : db.KeepsBuiltIn db') {p : Option RowId}
    (hp : ∀ id, p = some id → db.BuiltIn id) (user : PublicKey) (op : Operation) :
    Grants w db' p user op ↔ Grants w db p user op := by
  cases p with
  | none => rfl
  | some id =>
    unfold Grants
    simp only
    rw [h.getPermissions w.toExternal (hp id rfl)]

theorem Capped.congr (h : db.KeepsBuiltIn db') {p : Option RowId} (hp : Capped w A db p) :
    Capped w A db' p :=
  ⟨fun id hid => h.builtIn id (hp.builtIn id hid),
    fun user op hgrants => hp.bounded user op ((grants_congr h hp.builtIn user op).mp hgrants)⟩

theorem ScopeBounded.capped (htables : db.PolicyTables) {scope : String}
    (h : ScopeBounded w A db scope) {slug : String} {policy : Policy}
    (hslug : parsePolicyScope scope = .ok slug)
    (hpolicy : db.findPolicyBySlug slug = some policy) : Capped w A db (some policy.id) := by
  refine ⟨fun id hid => ?_, h slug policy hslug hpolicy⟩
  cases hid
  exact htables.builtIn_of_slug hpolicy

theorem ScopeBounded.congr (htables : db.PolicyTables) (h : db.KeepsBuiltIn db') {scope : String}
    (hscope : ScopeBounded w A db scope) : ScopeBounded w A db' scope := by
  intro slug policy hslug hpolicy
  rw [h.slugs] at hpolicy
  exact ((hscope.capped htables hslug hpolicy).congr h).bounded

end Policies

/-! ## Whom a token is for -/

/-- The key is not the server's, nor is the one its text stands for. -/
def Foreign (w : Web) (user : PublicKey) : Prop :=
  some user ≠ w.serverPubkey ∧ ∀ k, w.publicKeyFromHex user = .ok k → some k ≠ w.serverPubkey

/-- The token of a third-party app: signed by the server, for a user, without the `first_party`
fact. -/
def ThirdParty (w : Web) (token : String) : Prop :=
  ∀ ucan, w.decodeToken token = some ucan → ucan.issuer = w.serverPubkey ∧
    (∀ user, ucan.audience = some user → Foreign w user) ∧
    ucan.fact "first_party" Json.asBool ≠ some true

/-! ## The invariant -/

/-- A code that leads to nothing new: not headless, no registration, for a policy within the
bound. -/
structure Harmless (w : Web) (A : PublicKey → Operation → Prop) (db : Db) (c : OAuthCode) :
    Prop where
  headless : c.isHeadless = false
  pending : c.pendingEmail = none
  user : Foreign w c.userPubkey
  scope : ScopeBounded w A db c.scope

/-- All that the attacker holds is harmless. -/
structure Confined (w : Web) (A : PublicKey → Operation → Prop) (held : Held) (db : Db) :
    Prop where
  tables : db.PolicyTables
  tokens : ∀ token ∈ held.tokens, ThirdParty w token
  codes : ∀ c ∈ db.oauthCodes, c.code ∈ held.codes → Harmless w A db c
  refreshTokens : ∀ token ∈ held.refreshTokens, ∀ r ∈ db.refreshTokens,
    r.tokenHash = w.sha256 token → ∀ a ∈ db.oauthAuthorizations, a.id = r.authorizationId →
      Capped w A db a.policyId ∧ Foreign w a.userPubkey

/-- What a statement may do to the tables: built-in policies stay, an OAuth authorization is an old
row or within the bound, and one of a team is an old row. -/
structure Safe (w : Web) (A : PublicKey → Operation → Prop) (held : Held) (db db' : Db) :
    Prop where
  confined : Confined w A held db'
  policies : db.KeepsBuiltIn db'
  rows : ∀ a ∈ db'.oauthAuthorizations,
    (∃ b ∈ db.oauthAuthorizations, b.id = a.id ∧ b.policyId = a.policyId) ∨
      Capped w A db' a.policyId
  team : ∀ a ∈ db'.authorizations, ∃ b ∈ db.authorizations, b.id = a.id

section Safe

variable {w : Web} {A : PublicKey → Operation → Prop} {held : Held} {db db' db'' : Db}

theorem Harmless.congr (htables : db.PolicyTables) (h : db.KeepsBuiltIn db') {c : OAuthCode}
    (hc : Harmless w A db c) : Harmless w A db' c :=
  ⟨hc.headless, hc.pending, hc.user, hc.scope.congr htables h⟩

theorem Safe.refl (h : Confined w A held db) : Safe w A held db db :=
  ⟨h, .refl h.tables, fun a ha => .inl ⟨a, ha, rfl, rfl⟩, fun a ha => ⟨a, ha, rfl⟩⟩

theorem Safe.trans {held' : Held} (h : Safe w A held db db') (h' : Safe w A held' db' db'') :
    Safe w A held' db db'' := by
  refine ⟨h'.confined, h.policies.trans h'.policies, fun a ha => ?_, fun a ha => ?_⟩
  · rcases h'.rows a ha with ⟨b, hb, hid, hpolicy⟩ | hcapped
    · rcases h.rows b hb with ⟨c, hc, hid', hpolicy'⟩ | hcapped
      · exact .inl ⟨c, hc, hid'.trans hid, hpolicy'.trans hpolicy⟩
      · rw [hpolicy] at hcapped
        exact .inr (hcapped.congr h'.policies)
    · exact .inr hcapped
  · obtain ⟨b, hb, hid⟩ := h'.team a ha
    obtain ⟨c, hc, hid'⟩ := h.team b hb
    exact ⟨c, hc, hid'.trans hid⟩

/-- What is held stays harmless when rows are taken away or marked. -/
theorem Confined.of_fewer (h : Confined w A held db) (hpolicies : db.KeepsBuiltIn db')
    (hcodes : ∀ c ∈ db'.oauthCodes, c ∈ db.oauthCodes)
    (hrefresh : ∀ t ∈ db'.refreshTokens, ∃ t₀ ∈ db.refreshTokens,
      t₀.tokenHash = t.tokenHash ∧ t₀.authorizationId = t.authorizationId)
    (hrows : ∀ a ∈ db'.oauthAuthorizations, ∃ b ∈ db.oauthAuthorizations,
      b.id = a.id ∧ b.policyId = a.policyId ∧ b.userPubkey = a.userPubkey) :
    Confined w A held db' := by
  refine ⟨hpolicies.tables, h.tokens, fun c hc hheld => ?_,
    fun token htoken r hr hhash a ha hid => ?_⟩
  · exact (h.codes c (hcodes c hc) hheld).congr h.tables hpolicies
  · obtain ⟨r₀, hr₀, hhash₀, hid₀⟩ := hrefresh r hr
    obtain ⟨b, hb, hbid, hbpolicy, hbuser⟩ := hrows a ha
    obtain ⟨hcapped, huser⟩ := h.refreshTokens token htoken r₀ hr₀ (hhash₀.trans hhash) b hb
      (hbid.trans (hid.trans hid₀.symm))
    rw [hbpolicy] at hcapped
    rw [hbuser] at huser
    exact ⟨hcapped.congr hpolicies, huser⟩

theorem Safe.of_fewer (h : Confined w A held db) (hpolicies : db.KeepsBuiltIn db')
    (hcodes : ∀ c ∈ db'.oauthCodes, c ∈ db.oauthCodes)
    (hrefresh : ∀ t ∈ db'.refreshTokens, ∃ t₀ ∈ db.refreshTokens,
      t₀.tokenHash = t.tokenHash ∧ t₀.authorizationId = t.authorizationId)
    (hrows : ∀ a ∈ db'.oauthAuthorizations, ∃ b ∈ db.oauthAuthorizations,
      b.id = a.id ∧ b.policyId = a.policyId ∧ b.userPubkey = a.userPubkey)
    (hteam : ∀ a ∈ db'.authorizations, ∃ b ∈ db.authorizations, b.id = a.id) :
    Safe w A held db db' := by
  refine ⟨h.of_fewer hpolicies hcodes hrefresh hrows, hpolicies, fun a ha => ?_, hteam⟩
  obtain ⟨b, hb, hbid, hbpolicy, -⟩ := hrows a ha
  exact .inl ⟨b, hb, hbid, hbpolicy⟩

/-- A change of other tables. -/
theorem Safe.of_same (h : Confined w A held db) (hpolicies : db.KeepsBuiltIn db')
    (hcodes : db'.oauthCodes = db.oauthCodes) (hrefresh : db'.refreshTokens = db.refreshTokens)
    (hrows : db'.oauthAuthorizations = db.oauthAuthorizations)
    (hteam : db'.authorizations ⊆ db.authorizations) : Safe w A held db db' := by
  refine .of_fewer h hpolicies (fun c hc => hcodes ▸ hc) (fun t ht => ?_) (fun a ha => ?_)
    fun a ha => ⟨a, hteam ha, rfl⟩
  · rw [hrefresh] at ht
    exact ⟨t, ht, rfl, rfl⟩
  · rw [hrows] at ha
    exact ⟨a, ha, rfl, rfl, rfl⟩

theorem Safe.updateRefreshTokens (h : Confined w A held db) (p : RefreshToken → Bool)
    (now : Timestamp) : Safe w A held db (db.updateRefreshTokens p now) :=
  .of_fewer h (.of_same h.tables rfl rfl rfl) (fun _ hc => hc)
    (fun _ ht => Db.mem_updateRefreshTokens ht) (fun a ha => ⟨a, ha, rfl, rfl, rfl⟩)
    fun a ha => ⟨a, ha, rfl⟩

theorem Safe.updateOAuth (h : Confined w A held db) (p : OAuthAuthorization → Bool)
    {f : OAuthAuthorization → OAuthAuthorization}
    (hf : ∀ a, a.id = (f a).id ∧ a.policyId = (f a).policyId ∧ a.userPubkey = (f a).userPubkey) :
    Safe w A held db (db.updateOAuth p f) := by
  refine .of_fewer h (.of_same h.tables rfl rfl rfl) (fun _ hc => hc)
    (fun t ht => ⟨t, ht, rfl, rfl⟩) (fun a ha => ?_) fun a ha => ⟨a, ha, rfl⟩
  rcases mem_updateWhere.mp ha with ⟨b, hb, -, rfl⟩ | ⟨ha, -⟩
  · exact ⟨b, hb, hf b⟩
  · exact ⟨a, ha, rfl, rfl, rfl⟩

theorem Safe.deleteCode (h : Confined w A held db) (tenant : TenantId) (code : String) :
    Safe w A held db (db.deleteCode tenant code) :=
  .of_fewer h (.of_same h.tables rfl rfl rfl) (fun _ hc => List.mem_of_mem_filter hc)
    (fun t ht => ⟨t, ht, rfl, rfl⟩) (fun a ha => ⟨a, ha, rfl, rfl, rfl⟩) fun a ha => ⟨a, ha, rfl⟩

/-- An endpoint that adds no row. -/
theorem Safe.addingNothing (h : Confined w A held db) (after : Db) :
    Safe w A held db (addingNothing db after) := by
  refine .of_fewer h (.of_same h.tables rfl rfl rfl) (fun c hc => ?_) (fun t ht => ?_)
    (fun a ha => ?_)
    fun a ha => ?_
  · exact List.contains_iff_mem.mp (List.mem_filter.mp hc).2
  · obtain ⟨t₀, ht₀, heq⟩ := List.any_eq_true.mp (List.mem_filter.mp ht).2
    rw [Bool.and_eq_true, beq_iff_eq, beq_iff_eq] at heq
    exact ⟨t₀, ht₀, heq⟩
  · obtain ⟨b, hb, heq⟩ := List.any_eq_true.mp (List.mem_filter.mp ha).2
    simp only [Bool.and_eq_true, beq_iff_eq] at heq
    exact ⟨b, hb, heq.1.1, heq.1.2, heq.2⟩
  · obtain ⟨b, hb, heq⟩ := List.any_eq_true.mp (List.mem_filter.mp ha).2
    rw [Bool.and_eq_true, beq_iff_eq] at heq
    exact ⟨b, hb, heq.1⟩

/-- A harmless code may be stored, and then held. -/
theorem Safe.storeOAuthCode (h : Confined w A held db) {c : OAuthCode} (hc : Harmless w A db c)
    (hstore : db.storeOAuthCode c = some db') :
    Safe w A (held.learn (some (.code c.code))) db db' := by
  unfold Db.storeOAuthCode at hstore
  split at hstore
  · cases hstore
  · next hnew =>
    cases hstore
    have hpolicies : db.KeepsBuiltIn { db with oauthCodes := db.oauthCodes ++ [c] } :=
      .of_same h.tables rfl rfl rfl
    refine ⟨⟨hpolicies.tables, h.tokens, fun c' hc' hheld => ?_,
      fun token ht r hr hhash a ha hid => ?_⟩,
      hpolicies, fun a ha => .inl ⟨a, ha, rfl, rfl⟩, fun a ha => ⟨a, ha, rfl⟩⟩
    · rcases List.mem_append.mp hc' with hc' | hc'
      · rcases List.mem_cons.mp hheld with heq | hheld
        · -- the code is a primary key
          exact absurd (List.any_eq_true.mpr ⟨c', hc', by simpa using heq⟩) hnew
        · exact (h.codes c' hc' hheld).congr h.tables hpolicies
      · rw [List.mem_singleton.mp hc']
        exact hc.congr h.tables hpolicies
    · obtain ⟨hcapped, huser⟩ := h.refreshTokens token ht r hr hhash a ha hid
      exact ⟨hcapped.congr hpolicies, huser⟩

/-- A new authorization within the bound. -/
theorem Safe.insertOAuth (h : Confined w A held db) {row : OAuthAuthorization}
    (hcapped : Capped w A db row.policyId) (huser : Foreign w row.userPubkey)
    (hinsert : db.insertOAuth row = some db') : Safe w A held db db' := by
  obtain ⟨rfl, -⟩ := Db.insertOAuth_eq hinsert
  have hpolicies : db.KeepsBuiltIn
      { db with oauthAuthorizations := db.oauthAuthorizations ++ [row] } :=
    .of_same h.tables rfl rfl rfl
  refine ⟨⟨hpolicies.tables, h.tokens,
    fun c hc hheld => (h.codes c hc hheld).congr h.tables hpolicies,
    fun token htoken r hr hhash a ha hid => ?_⟩, hpolicies, fun a ha => ?_,
      fun a ha => ⟨a, ha, rfl⟩⟩
  · rcases List.mem_append.mp ha with ha | ha
    · obtain ⟨hold, hforeign⟩ := h.refreshTokens token htoken r hr hhash a ha hid
      exact ⟨hold.congr hpolicies, hforeign⟩
    · rw [List.mem_singleton.mp ha]
      exact ⟨hcapped.congr hpolicies, huser⟩
  · rcases List.mem_append.mp ha with ha | ha
    · exact .inl ⟨a, ha, rfl, rfl⟩
    · rw [List.mem_singleton.mp ha]
      exact .inr (hcapped.congr hpolicies)

/-- A refresh token for an authorization within the bound may be stored, and then held. -/
theorem Safe.insertRefreshToken (h : Confined w A held db) {t : RefreshToken} {token : String}
    (hhash : t.tokenHash = w.sha256 token)
    (hrow : ∀ a ∈ db.oauthAuthorizations, a.id = t.authorizationId →
      Capped w A db a.policyId ∧ Foreign w a.userPubkey)
    (hinsert : db.insertRefreshToken t = some db') :
    Safe w A { held with refreshTokens := token :: held.refreshTokens } db db' := by
  obtain ⟨rfl, hnew⟩ := Db.insertRefreshToken_eq hinsert
  have hpolicies : db.KeepsBuiltIn { db with refreshTokens := db.refreshTokens ++ [t] } :=
    .of_same h.tables rfl rfl rfl
  have hkept : ∀ a ∈ db.oauthAuthorizations, Capped w A db a.policyId ∧ Foreign w a.userPubkey →
      Capped w A { db with refreshTokens := db.refreshTokens ++ [t] } a.policyId ∧
        Foreign w a.userPubkey := fun a _ h => ⟨h.1.congr hpolicies, h.2⟩
  refine ⟨⟨hpolicies.tables, h.tokens,
    fun c hc hheld => (h.codes c hc hheld).congr h.tables hpolicies,
    fun token' htoken' r hr hhash' a ha hid => hkept a ha ?_⟩, hpolicies,
    fun a ha => .inl ⟨a, ha, rfl, rfl⟩, fun a ha => ⟨a, ha, rfl⟩⟩
  rcases List.mem_append.mp hr with hr | hr
  · rcases List.mem_cons.mp htoken' with rfl | htoken'
    · exact absurd (hhash'.trans hhash.symm) (hnew r hr)
    · exact h.refreshTokens token' htoken' r hr hhash' a ha hid
  · rw [List.mem_singleton.mp hr] at hid
    exact hrow a ha hid

/-- Nor does a third-party token matter. -/
theorem Safe.holding {token : String} (htoken : ThirdParty w token) (h : Safe w A held db db') :
    Safe w A { held with tokens := token :: held.tokens } db db' := by
  refine ⟨⟨h.confined.tables, fun t ht => ?_, h.confined.codes, h.confined.refreshTokens⟩,
    h.policies, h.rows, h.team⟩
  rcases List.mem_cons.mp ht with rfl | ht
  · exact htoken
  · exact h.confined.tokens t ht

end Safe

/-! ## Tokens -/

/-- What is used of `PublicKey`: the text of a parsed key parses to it. -/
def ParsesBack (w : Web) : Prop :=
  ∀ text key, w.publicKeyFromHex text = .ok key → w.publicKeyFromHex key = .ok key

section Tokens

variable {w : Web} {held : Held} {now : Timestamp}

/-- The key a foreign text stands for is foreign. -/
theorem Foreign.parsed (hparse : ParsesBack w) {text : String} {key : PublicKey}
    (h : Foreign w text) (hkey : w.publicKeyFromHex text = .ok key) : Foreign w key := by
  refine ⟨h.2 key hkey, fun k hk => ?_⟩
  rw [hparse text key hkey] at hk
  cases hk
  exact h.2 key hkey

end Tokens

end Keycast.Http
