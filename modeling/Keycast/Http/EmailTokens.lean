import Keycast.Core.Credentials
import Keycast.Core.Grants
import Keycast.Http.Preload

/-!
# `Http/EmailTokens.lean` — where the tokens that prove an email are kept

An email is proved with a token: of a verification or password-reset mail, of a claim link, of a
sign-in link. Until somebody presents it, a token waits in one of five places — two columns of
`users`, the pending columns of `oauth_codes`, `magic_link_tokens`, `account_claim_tokens` — and in
each of them it stands beside what it is good for.

`Sound I P db` says that the tables keep it there: with `I` the tokens that were sent or issued and
`P` the emails that were proved, a token beside an email was issued for it, and an email marked as
verified was proved. The lemmas say which rows a statement may write. None of them looks at an
endpoint.
-/

set_option autoImplicit false

namespace Keycast.Http

open Lib

inductive TokenKind
  | verification
  | passwordReset
  | claim
  | magicLink
  deriving DecidableEq, Repr

/-- A token that was sent to an address or, a claim link, handed out for an account. A sign-in link
counts by the hash of its token, which is all the table has. -/
structure Issue where
  kind : TokenKind
  token : String
  email : Option String
  tenant : TenantId
  deriving DecidableEq, Repr

/-! ## Rows -/

/-- What a row of `users` with the email `e` may say. A token may also have been issued for an
earlier email of the row, once the present one is proved. -/
structure SoundEmail (I : Issue → Prop) (P : String → TenantId → Prop) (u : User)
    (e : String) : Prop where
  verified : u.emailVerified = true → P e u.tenantId
  verification : ∀ v, u.emailVerificationToken = some v →
    I ⟨.verification, v, some e, u.tenantId⟩ ∨ P e u.tenantId
  reset : ∀ r, u.passwordResetToken = some r → I ⟨.passwordReset, r, some e, u.tenantId⟩ ∨
    P e u.tenantId

def SoundUser (I : Issue → Prop) (P : String → TenantId → Prop) (u : User) : Prop :=
  ∀ e, u.email = some e → SoundEmail I P u e

def SoundCode (I : Issue → Prop) (c : OAuthCode) : Prop :=
  ∀ e v, c.pendingEmail = some e → c.pendingEmailVerificationToken = some v →
    I ⟨.verification, v, some e, c.tenantId⟩

/-- A claim token is for a user of its tenant. -/
def SoundClaim (I : Issue → Prop) (users : List User) (t : ClaimToken) : Prop :=
  I ⟨.claim, t.token, none, t.tenantId⟩ ∧
    ∃ u ∈ users, u.pubkey = t.userPubkey ∧ u.tenantId = t.tenantId

structure Sound (I : Issue → Prop) (P : String → TenantId → Prop) (db : Db) : Prop where
  unique : PkUnique db
  users : ∀ u ∈ db.users, SoundUser I P u
  codes : ∀ c ∈ db.oauthCodes, SoundCode I c
  links : ∀ l ∈ db.magicLinkTokens, I ⟨.magicLink, l.tokenHash, some l.email, l.tenantId⟩
  claims : ∀ t ∈ db.claimTokens, SoundClaim I db.users t
  members : db.teamUsers = []

section Rows

variable {I I' : Issue → Prop} {P P' : String → TenantId → Prop} {u u' : User}

theorem SoundUser.mono (hI : ∀ i, I i → I' i) (hP : ∀ e t, P e t → P' e t) (h : SoundUser I P u) :
    SoundUser I' P' u := by
  intro e he
  obtain ⟨hverified, htoken, hreset⟩ := h e he
  exact ⟨fun hv => hP _ _ (hverified hv), fun v hv => (htoken v hv).imp (hI _) (hP _ _),
    fun r hr => (hreset r hr).imp (hI _) (hP _ _)⟩

/-- A proved email may be marked, and whatever tokens are beside it do no harm. -/
theorem SoundUser.of_proved (h : ∀ e, u.email = some e → P e u.tenantId) : SoundUser I P u := by
  intro e he
  have hproved := h e he
  exact ⟨fun _ => hproved, fun _ _ => .inr hproved, fun _ _ => .inr hproved⟩

/-- Only the columns about the email matter. -/
theorem SoundUser.congr (h : SoundUser I P u) (htenant : u'.tenantId = u.tenantId)
    (hemail : u'.email = u.email) (hverified : u'.emailVerified = u.emailVerified)
    (htoken : u'.emailVerificationToken = u.emailVerificationToken)
    (hreset : u'.passwordResetToken = u.passwordResetToken) : SoundUser I P u' := by
  intro e he
  rw [hemail] at he
  obtain ⟨h₁, h₂, h₃⟩ := h e he
  refine ⟨?_, ?_, ?_⟩
  · rwa [hverified, htenant]
  · rwa [htoken, htenant]
  · rwa [hreset, htenant]

/-- A row without an email says nothing. -/
theorem SoundUser.of_none (h : u.email = none) : SoundUser I P u := by
  intro e he
  rw [h] at he
  cases he

/-- A code that is not a registration waits for no token. -/
theorem SoundCode.of_none {c : OAuthCode} (h : c.pendingEmail = none) : SoundCode I c := by
  intro e v he _
  rw [h] at he
  cases he

end Rows

/-! ## Statements -/

section Statements

variable {I I' : Issue → Prop} {P P' : String → TenantId → Prop} {db db' : Db}

theorem Sound.mono (hI : ∀ i, I i → I' i) (hP : ∀ e t, P e t → P' e t) (h : Sound I P db) :
    Sound I' P' db where
  unique := h.unique
  users u hu := (h.users u hu).mono hI hP
  codes c hc e v he hv := hI _ (h.codes c hc e v he hv)
  links l hl := hI _ (h.links l hl)
  claims t ht := ⟨hI _ (h.claims t ht).1, (h.claims t ht).2⟩
  members := h.members

/-- The other tables do not matter. -/
structure SameAccounts (db db' : Db) : Prop where
  users : db'.users = db.users
  codes : db'.oauthCodes = db.oauthCodes
  links : db'.magicLinkTokens = db.magicLinkTokens
  claims : db'.claimTokens = db.claimTokens
  members : db'.teamUsers = db.teamUsers

/-- Rows disappear, but no user before its claim tokens. -/
structure Fewer (db db' : Db) : Prop where
  users : List.Sublist db'.users db.users
  codes : db'.oauthCodes ⊆ db.oauthCodes
  links : db'.magicLinkTokens ⊆ db.magicLinkTokens
  claims : db'.claimTokens ⊆ db.claimTokens
  owners : ∀ t ∈ db'.claimTokens, ∀ u ∈ db.users, u.pubkey = t.userPubkey → u ∈ db'.users
  members : db'.teamUsers ⊆ db.teamUsers

theorem Sound.fewer (h : Sound I P db) (hf : Fewer db db') : Sound I P db' where
  unique := h.unique.sublist (hf.users.map _)
  users u hu := h.users u (hf.users.subset hu)
  codes c hc := h.codes c (hf.codes hc)
  links l hl := h.links l (hf.links hl)
  claims t ht := by
    obtain ⟨hissued, u, hu, hpub, htenant⟩ := h.claims t (hf.claims ht)
    exact ⟨hissued, u, hf.owners t ht u hu hpub, hpub, htenant⟩
  members := List.subset_nil.mp (h.members ▸ hf.members)

theorem Sound.same (h : Sound I P db) (hs : SameAccounts db db') : Sound I P db' := by
  refine h.fewer ⟨?_, ?_, ?_, ?_, ?_, ?_⟩
  · rw [hs.users]
  · rw [hs.codes]; exact List.Subset.refl _
  · rw [hs.links]; exact List.Subset.refl _
  · rw [hs.claims]; exact List.Subset.refl _
  · intro t _ u hu _
    rwa [hs.users]
  · rw [hs.members]; exact List.Subset.refl _

/-- Deleting a user to whom no claim token refers. -/
theorem Fewer.deleteUser {db : Db} {user : PublicKey}
    (h : ∀ t ∈ db.claimTokens, t.userPubkey ≠ user) :
    Fewer db (db.deleteUser user) where
  users := List.filter_sublist
  codes := List.Subset.refl _
  links := List.Subset.refl _
  claims := List.Subset.refl _
  owners t ht u hu hpub := by
    have hother : t.userPubkey ≠ user := h t ht
    refine List.mem_filter.mpr ⟨hu, ?_⟩
    simpa [hpub] using hother
  members := List.Subset.refl _

theorem Fewer.trans {db₁ db₂ db₃ : Db} (h : Fewer db₁ db₂) (h' : Fewer db₂ db₃) :
    Fewer db₁ db₃ where
  users := h'.users.trans h.users
  codes := List.Subset.trans h'.codes h.codes
  links := List.Subset.trans h'.links h.links
  claims := List.Subset.trans h'.claims h.claims
  owners t ht u hu hpub := h'.owners t ht u (h.owners t (h'.claims ht) u hu hpub) hpub
  members := List.Subset.trans h'.members h.members

/-- A new user says of its email what may be said. -/
theorem Sound.insertUser (h : Sound I P db) {u : User} (hinsert : db.insertUser u = some db')
    (hu : SoundUser I P u) : Sound I P db' := by
  obtain ⟨rfl, hnew⟩ := Db.insertUser_eq hinsert
  refine ⟨h.unique.insert rfl hnew, fun u' hu' => ?_, h.codes, h.links, fun t ht => ?_, h.members⟩
  · rcases List.mem_append.mp hu' with hu' | hu'
    · exact h.users u' hu'
    · rwa [List.mem_singleton.mp hu']
  · obtain ⟨hissued, owner, howner, hpub, htenant⟩ := h.claims t ht
    exact ⟨hissued, owner, List.mem_append_left _ howner, hpub, htenant⟩

/-- An update that keeps the keys of its rows. -/
theorem Sound.updateUsers (h : Sound I P db) {p : User → Bool} {f : User → User}
    (hf : ∀ u, (f u).pubkey = u.pubkey ∧ (f u).tenantId = u.tenantId)
    (hrow : ∀ u ∈ db.users, p u = true → SoundUser I P (f u)) : Sound I P (db.updateUsers p f) := by
  refine ⟨?_, fun u hu => ?_, h.codes, h.links, fun t ht => ?_, h.members⟩
  · show (List.map _ (updateWhere p f db.users)).Nodup
    rw [map_updateWhere]
    · exact h.unique
    · exact fun u => (hf u).1
  · rcases mem_updateWhere.mp hu with ⟨u₀, hu₀, hp, rfl⟩ | ⟨hu, -⟩
    · exact hrow u₀ hu₀ hp
    · exact h.users u hu
  · obtain ⟨hissued, u, hu, hpub, htenant⟩ := h.claims t ht
    refine ⟨hissued, ?_⟩
    -- the owner is there as before, changed or not
    by_cases hp : p u = true
    · exact ⟨f u, mem_updateWhere.mpr (.inl ⟨u, hu, hp, rfl⟩), (hf u).1.trans hpub,
        (hf u).2.trans htenant⟩
    · exact ⟨u, mem_updateWhere.mpr (.inr ⟨hu, by simpa using hp⟩), hpub, htenant⟩

theorem Sound.storeOAuthCode (h : Sound I P db) {c : OAuthCode} (hc : SoundCode I c)
    (hstore : db.storeOAuthCode c = some db') : Sound I P db' := by
  unfold Db.storeOAuthCode at hstore
  split at hstore
  · cases hstore
  cases hstore
  refine ⟨h.unique, h.users, fun c' hc' => ?_, h.links, h.claims, h.members⟩
  rcases List.mem_append.mp hc' with hc' | hc'
  · exact h.codes c' hc'
  · rwa [List.mem_singleton.mp hc']

/-- Codes disappear. -/
theorem Sound.filterCodes (h : Sound I P db) (p : OAuthCode → Bool) :
    Sound I P { db with oauthCodes := db.oauthCodes.filter p } :=
  ⟨h.unique, h.users, fun c hc => h.codes c (List.mem_filter.mp hc).1, h.links, h.claims, h.members⟩

theorem Sound.createClaimToken (h : Sound I P db) {now : Timestamp} {token : String}
    {user : PublicKey}
    {tenant : TenantId} (hissued : I ⟨.claim, token, none, tenant⟩)
    (huser : ∃ u ∈ db.users, u.pubkey = user ∧ u.tenantId = tenant)
    (hcreate : db.createClaimToken now token user tenant = some db') : Sound I P db' := by
  unfold Db.createClaimToken at hcreate
  split at hcreate
  · cases hcreate
  cases hcreate
  refine ⟨h.unique, h.users, h.codes, h.links, fun t ht => ?_, h.members⟩
  rcases List.mem_append.mp ht with ht | ht
  · exact h.claims t ht
  · rw [List.mem_singleton.mp ht]
    exact ⟨hissued, huser⟩

theorem Sound.markUsed (h : Sound I P db) (now : Timestamp) (token : String) :
    Sound I P (db.markUsed now token) := by
  refine ⟨h.unique, h.users, h.codes, h.links, fun t ht => ?_, h.members⟩
  rcases mem_updateWhere.mp ht with ⟨t₀, ht₀, -, rfl⟩ | ⟨ht, -⟩
  · exact h.claims t₀ ht₀
  · exact h.claims t ht

theorem Sound.createMagicLink (h : Sound I P db) {link : MagicLinkToken}
    (hissued : I ⟨.magicLink, link.tokenHash, some link.email, link.tenantId⟩)
    (hcreate : db.createMagicLink link = some db') : Sound I P db' := by
  unfold Db.createMagicLink at hcreate
  split at hcreate
  · cases hcreate
  cases hcreate
  refine ⟨h.unique, h.users, h.codes, fun l hl => ?_, h.claims, h.members⟩
  rcases List.mem_append.mp hl with hl | hl
  · exact h.links l hl
  · rwa [List.mem_singleton.mp hl]

/-- A consumed link was issued for its address, and stays a row like before. -/
theorem Sound.consumeMagicLink (h : Sound I P db) (now : Timestamp) (hash : String)
    (tenant : TenantId) :
    Sound I P (db.consumeMagicLink now hash tenant).2 ∧
      ∀ l, (db.consumeMagicLink now hash tenant).1 = some l →
        I ⟨.magicLink, hash, some l.email, tenant⟩ := by
  constructor
  · refine ⟨h.unique, h.users, h.codes, fun l hl => ?_, h.claims, h.members⟩
    rcases mem_updateWhere.mp hl with ⟨l₀, hl₀, -, rfl⟩ | ⟨hl, -⟩
    · exact h.links l₀ hl₀
    · exact h.links l hl
  · intro l hl
    have hvalid := List.find?_some hl
    simp only [Bool.and_eq_true, beq_iff_eq] at hvalid
    obtain ⟨⟨⟨rfl, rfl⟩, -⟩, -⟩ := hvalid
    exact h.links l (List.mem_of_find?_eq_some hl)

end Statements

end Keycast.Http
