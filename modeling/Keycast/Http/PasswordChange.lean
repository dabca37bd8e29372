import Keycast.Http.Account
import Keycast.Http.ResetTokens

/-!
# `Http/PasswordChange.lean` — a changed password stays changed

`change_password` reads the hash, verifies the current password, hashes the new one and updates the
row by its key. `change_key` reads the same hash, verifies it, and writes what it has read to the
row of the new key; the row of the old key is left without an email, and nothing logs in with it. So
the account is where its email is. A password change that falls between the two steps of a key
change is undone, and one whose row has lost the account to a key change meanwhile changes nothing,
and says it did. The runs without these two lose no password change.

The log is a list of replaced passwords by account, an account being an email in a tenant.
`ReplacedGone` is the property and the invariant at once: the row with that email does not accept
them. Three statements set a password or move one (`PasswordMove.cases`); what each of them has to
show is the same (`ReplacedGone.set`), that the hash it leaves in the row accepts no password that
is replaced then, and the condition gives that for the two that write what was read before.
-/

set_option autoImplicit false

namespace Keycast.Http

open Lib

/-! ## The system -/

inductive PasswordWork
  | changePassword (tenant : TenantId) (headers : Headers) (currentPassword newPassword : String)
  | changeKey (inst : InstanceId) (headers : Headers) (tenant : TenantId) (fresh : Keys)
    (req : ChangeKeyRequest)
  | reset (tenant : TenantId) (token newPassword : String)

def passwordProg (w : Web) : PasswordWork → Prog Stmt State AuthError Unit
  | .changePassword tenant headers currentPassword newPassword =>
    changePassword w tenant headers currentPassword newPassword
  | .changeKey inst headers tenant fresh req => do
    let _ ← changeKey w inst headers tenant fresh req
  | .reset tenant token newPassword => resetProg w (.reset tenant token newPassword)

def passwordSystem (w : Web) : System PasswordWork Stmt State AuthError Unit Nat where
  prog := passwordProg w
  env d s := { s with now := s.now + d }

abbrev PasswordThread := Thread PasswordWork Stmt State AuthError Unit
abbrev PasswordEvent := Ev PasswordWork Nat

/-- The credentials a request has read, and whose they are. -/
def credentialsRead (w : Web) (headers : Headers) (tenant : TenantId) :
    List (Stmt × State) → Option (PublicKey × String × String)
  | (.userExists, _) :: (.getCredentials, s₁) :: (.clock, s₀) :: _
  | (.getCredentials, s₁) :: (.clock, s₀) :: _ => do
    let user ← (extractUserFromToken w s₀.now headers tenant).toOption
    let credentials ← (s₁.db.getCredentials user tenant).toOption
    credentials.map fun (email, hash) => (user, email, hash)
  | _ => none

/-- A password is accepted where a hash is stored. -/
def verifies (w : Web) (password hash : String) : Bool :=
  (w.bcryptVerify password hash).toOption.getD false

/-! ## The property, and its condition -/

/-- A password that was replaced, and of which account. -/
structure Replaced where
  tenant : TenantId
  email : String
  password : String
  deriving DecidableEq, Repr

/-- The passwords that are replaced when one with this hash is set for an account: those that were,
less what the user has set again. -/
def withoutSet (w : Web) (tenant : TenantId) (email : Option String) (hash : String)
    (replaced : List Replaced) :
    List Replaced :=
  replaced.filter fun r =>
    !(r.tenant == tenant && some r.email == email && verifies w r.password hash)

structure PasswordWorld where
  pool : Conf PasswordWork Stmt State AuthError Unit
  replaced : List Replaced := []

def PasswordWorld.users (x : PasswordWorld) : List User := x.pool.state.db.users

/-- What a thread that is about to set a password makes of the passwords that are replaced. -/
def replacedBy (w : Web) (t : PasswordThread) (users : List User) (replaced : List Replaced) :
    List Replaced :=
  match t.req, t.next? with
  | .changePassword tenant headers currentPassword newPassword, some .updatePassword =>
    match credentialsRead w headers tenant t.seen, w.bcryptHash newPassword with
    | some (_, email, _), .ok hash =>
      withoutSet w tenant email hash (⟨tenant, email, currentPassword⟩ :: replaced)
    | _, _ => replaced
  | .reset tenant token newPassword, some .resetPassword =>
    match resetTarget w (.reset tenant token newPassword) t.seen, w.bcryptHash newPassword with
    | some user, .ok hash =>
      withoutSet w tenant ((users.find? (Db.isUser user tenant)).bind (·.email)) hash replaced
    | _, _ => replaced
  | _, _ => replaced

def passwordStep (w : Web) (x : PasswordWorld) (e : PasswordEvent) : PasswordWorld where
  pool := (passwordSystem w).step x.pool e
  replaced :=
    match e with
    | .exec i => (x.pool.threads[i]?).elim x.replaced fun t => replacedBy w t x.users x.replaced
    | _ => x.replaced

/-- No password that was replaced is accepted for its account, whichever public key the account
has. -/
def ReplacedGone (w : Web) (users : List User) (replaced : List Replaced) : Prop :=
  ∀ r ∈ replaced, ∀ u ∈ users, u.tenantId = r.tenant → u.email = some r.email →
    ∀ hash ∈ u.passwordHash, verifies w r.password hash = false

instance (w : Web) (users : List User) (replaced : List Replaced) :
    Decidable (ReplacedGone w users replaced) :=
  inferInstanceAs (Decidable (∀ r ∈ replaced, ∀ u ∈ users, _ → _ → ∀ hash ∈ u.passwordHash, _))

/-- The update of `change_password` finds the account where it read it. The transaction of
`change_key` finds the hash it read, or the account gone to another key, where it fails. -/
def accountInPlace (w : Web) (t : PasswordThread) (users : List User) : Bool :=
  match t.req, t.next? with
  | .changePassword tenant headers _ _, some .updatePassword =>
    (credentialsRead w headers tenant t.seen).all fun (user, email, _) =>
      users.any fun u => Db.isUser user tenant u && u.email == some email
  | .changeKey _ headers tenant _ _, some (.changeKeyTransaction _ _) =>
    (credentialsRead w headers tenant t.seen).all fun (user, email, hash) =>
      users.any fun u => u.tenantId == tenant && u.email == some email &&
        (u.pubkey != user || u.passwordHash == some hash)
  | _, _ => true

def AccountInPlace (w : Web) (x : PasswordWorld) : PasswordEvent → Prop
  | .exec i => ∀ t ∈ x.pool.threads[i]?, accountInPlace w t x.users = true
  | _ => True

instance (w : Web) (x : PasswordWorld) : ∀ e, Decidable (AccountInPlace w x e)
  | .spawn _ | .env _ => .isTrue trivial
  | .exec i => inferInstanceAs (Decidable (∀ t ∈ x.pool.threads[i]?, _))

/-! ## What the statements do to the rows -/

def PasswordMove (w : Web) (r : PasswordWork) (l : Stmt) (seen : List (Stmt × State))
    (s s' : State) : Prop :=
  match r, l with
  | .changePassword tenant headers _ newPassword, .updatePassword =>
    ∃ user email old hash, credentialsRead w headers tenant seen = some (user, email, old) ∧
      w.bcryptHash newPassword = .ok hash ∧ s'.db.users =
        updateWhere (Db.isUser user tenant)
          (fun u => { u with passwordHash := some hash }) s.db.users
  | .changeKey _ headers tenant _ _, .changeKeyTransaction _ _ =>
    s'.db.users = s.db.users ∨
      ∃ user email hash pubkey encrypted n,
        credentialsRead w headers tenant seen = some (user, email, hash) ∧
        s.db.changeKeyTransaction user pubkey tenant email hash encrypted = some (n, s'.db)
  | .reset tenant token newPassword, l => ResetMove w (.reset tenant token newPassword) l seen s s'
  | _, _ => s'.db.users = s.db.users

theorem passwordProg_meets (w : Web) (r : PasswordWork) :
    (passwordProg w r).Meets (PasswordMove w r) (fun _ _ => True) [] := by
  cases r with
  | changePassword tenant headers currentPassword newPassword =>
    show Prog.Meets _ _ (changePassword w tenant headers currentPassword newPassword) []
    unfold changePassword
    refine .read (fun s => rfl) fun s₀ => .ofExcept (fun _ => trivial) fun user huser => ?_
    split
    · trivial
    refine .read (fun s => rfl) fun s₁ =>
      .ofExcept (fun _ => trivial) fun credentials hcredentials => ?_
    refine .orErr trivial fun found hfound => .ofExcept (fun _ => trivial) fun valid _ => ?_
    split
    · trivial
    refine .ofExcept (fun _ => trivial) fun hash hhash => ?_
    refine fun s => ⟨⟨user, found.1, found.2, hash, ?_, mapError_eq_ok.mp hhash, rfl⟩, trivial⟩
    simp [credentialsRead, huser, mapError_eq_ok.mp hcredentials, hfound, Except.toOption]
  | changeKey inst headers tenant fresh req =>
    show Prog.Meets _ _ ((changeKey w inst headers tenant fresh req).bind fun _ => .ret ()) []
    unfold changeKey
    simp only [Prog.bind_def, Prog.bind_assoc]
    refine .read (fun s => rfl) fun s₀ => .ofExcept (fun _ => trivial) fun user huser => ?_
    refine .read (fun s => rfl) fun s₁ =>
      .ofExcept (fun _ => trivial) fun credentials hcredentials => ?_
    refine .orErr trivial fun found hfound => .ofExcept (fun _ => trivial) fun valid _ => ?_
    split
    · trivial
    simp only [Prog.bind_assoc]
    refine .ofExcept (fun _ => trivial) fun keys _ => .read (fun s => rfl) fun s₂ => ?_
    split
    · trivial
    simp only [Prog.bind_assoc]
    refine .ofExcept (fun _ => trivial) fun encrypted _ => ?_
    refine meets_transact (fun s _ => ⟨.inl rfl, trivial⟩) fun s n db h =>
      ⟨.inr ⟨user, found.1, found.2, _, _, n, ?_, h⟩, ?_⟩
    · simp [credentialsRead, huser, mapError_eq_ok.mp hcredentials, hfound, Except.toOption]
    refine .write fun _ =>
      ⟨rfl, .write fun _ => ⟨rfl, .orErr trivial fun _ _ => .read (fun _ => rfl) fun _ => ?_⟩⟩
    exact .ofExcept (fun _ => trivial) fun _ _ => trivial
  | reset tenant token newPassword =>
    exact (resetProg_meets w (.reset tenant token newPassword)).imp fun _ _ _ _ h => h

/-! ## What they do to the passwords -/

section Rows

variable {w : Web} {users : List User} {replaced : List Replaced} {user : PublicKey}
  {tenant : TenantId}

/-- A password is set in the row of a user. Of the rows of others only what held before is asked. -/
theorem ReplacedGone.set {email : Option String} {hash : String} {f : User → User}
    (hrows : ∀ u ∈ users, Db.isUser user tenant u = true → u.email = email)
    (hothers : ReplacedGone w (users.filter fun u => !Db.isUser user tenant u) replaced)
    (hf : ∀ u, (f u).email = u.email ∧ (f u).tenantId = u.tenantId ∧
      (f u).passwordHash = some hash) :
    ReplacedGone w (updateWhere (Db.isUser user tenant) f users)
      (withoutSet w tenant email hash replaced) := by
  intro r hr u hu htenant hemail hash' hhash'
  obtain ⟨hr, hkept⟩ := List.mem_filter.mp hr
  rcases mem_updateWhere.mp hu with ⟨u₀, hu₀, hp, rfl⟩ | ⟨hu, hp⟩
  · obtain ⟨hemail₀, htenant₀, hhash₀⟩ := hf u₀
    obtain rfl : hash' = hash := Option.some.inj (hhash'.symm.trans hhash₀)
    -- the entry is one of the account of this row, so it is not among those that were set again
    have haccount : r.tenant = tenant ∧ some r.email = email := by
      rw [hemail₀, hrows u₀ hu₀ hp] at hemail
      simp only [Db.isUser, Bool.and_eq_true, beq_iff_eq] at hp
      exact ⟨htenant.symm.trans (htenant₀.trans hp.2), hemail.symm⟩
    simpa [haccount.1, haccount.2] using hkept
  · exact hothers r hr u (List.mem_filter.mpr ⟨hu, by simp [hp]⟩) htenant hemail hash' hhash'

theorem ReplacedGone.subset {users' : List User} (h : ReplacedGone w users replaced)
    (hsub : users' ⊆ users) :
    ReplacedGone w users' replaced :=
  fun r hr u hu => h r hr u (hsub hu)

theorem ReplacedGone.changePassword {email current hash : String} (hunique : Db.UsersUnique users)
    (h : ReplacedGone w users replaced)
    (hplace : users.any (fun u => Db.isUser user tenant u && u.email == some email) = true) :
    ReplacedGone w
      (updateWhere (Db.isUser user tenant) (fun u => { u with passwordHash := some hash }) users)
      (withoutSet w tenant email hash (⟨tenant, email, current⟩ :: replaced)) := by
  simp only [List.any_eq_true, Bool.and_eq_true, beq_iff_eq] at hplace
  obtain ⟨u₀, hu₀, his₀, hemail₀⟩ := hplace
  have hkey₀ := his₀
  simp only [Db.isUser, Bool.and_eq_true, beq_iff_eq] at hkey₀
  refine ReplacedGone.set (fun u hu his => ?_) (fun r hr u hu => ?_) fun u => ⟨rfl, rfl, rfl⟩
  · simp only [Db.isUser, Bool.and_eq_true, beq_iff_eq] at his
    rw [hunique.eq_of_pubkey hu hu₀ (his.1.trans hkey₀.1.symm), hemail₀]
  · obtain ⟨hu, hother⟩ := List.mem_filter.mp hu
    rcases List.mem_cons.mp hr with rfl | hr
    · -- no other row has the email of the account
      intro htenant hemail
      have heq := hunique.eq_of_email hu hu₀ (htenant.trans hkey₀.2.symm) hemail hemail₀
      rw [heq, his₀] at hother
      cases hother
    · exact h r hr u hu

theorem ReplacedGone.resetPassword {hash : String} (hunique : Db.UsersUnique users)
    (h : ReplacedGone w users replaced)
    {f : User → User}
    (hf : ∀ u, (f u).email = u.email ∧ (f u).tenantId = u.tenantId ∧
      (f u).passwordHash = some hash) :
    ReplacedGone w (updateWhere (Db.isUser user tenant) f users)
      (withoutSet w tenant ((users.find? (Db.isUser user tenant)).bind (·.email)) hash
        replaced) := by
  refine ReplacedGone.set (fun u hu his => ?_) (h.subset (List.filter_subset_self _)) hf
  have hfind : users.find? (Db.isUser user tenant) = some u := by
    refine find?_eq_some_of_unique hu his fun u' hu' his' => ?_
    simp only [Db.isUser, Bool.and_eq_true, beq_iff_eq] at his his'
    exact hunique.eq_of_pubkey hu' hu (his'.1.trans his.1.symm)
  rw [hfind]
  rfl

theorem ReplacedGone.changeKey {email hash : String} {db db' : Db} {pubkey : PublicKey}
    {encrypted : Bytes} {n : Nat}
    (h : ReplacedGone w db.users replaced)
    (hplace : db.users.any (fun u => u.tenantId == tenant && u.email == some email &&
      (u.pubkey != user || u.passwordHash == some hash)) = true)
    (hchange : db.changeKeyTransaction user pubkey tenant email hash encrypted = some (n, db')) :
    ReplacedGone w db'.users replaced := by
  obtain ⟨hfree, husers, -⟩ := Db.changeKeyTransaction_users hchange
  simp only [List.any_eq_true, Bool.and_eq_true, beq_iff_eq, Bool.or_eq_true, bne_iff_ne] at hplace
  obtain ⟨u₀, hu₀, ⟨htenant₀, hemail₀⟩, hrow⟩ := hplace
  -- the new row has found its email free, so it was in the row of the old key
  have hhash₀ : u₀.passwordHash = some hash := by
    refine hrow.resolve_left fun hother => ?_
    have hstays : u₀ ∈ updateWhere (fun u => u.pubkey == user && u.tenantId == tenant)
        (fun u => { u with email := none, passwordHash := none }) db.users :=
      mem_updateWhere.mpr (.inr ⟨hu₀, by simp [hother]⟩)
    exact List.any_eq_false.mp hfree u₀ hstays
      (by simp [Db.conflicts, Db.rekeyed, htenant₀, hemail₀])
  rw [husers]
  intro r hr u hu htenant hemail hash' hhash'
  rcases List.mem_append.mp hu with hu | hu
  · rcases mem_updateWhere.mp hu with ⟨_, _, _, rfl⟩ | ⟨hu, -⟩
    · cases hemail
    · exact h r hr u hu htenant hemail hash' hhash'
  · obtain rfl := List.mem_singleton.mp hu
    obtain rfl : hash = hash' := Option.some.inj hhash'
    exact h r hr u₀ hu₀ (htenant₀.trans htenant) (hemail₀.trans hemail) hash hhash₀

/-- The columns an update may set when it is to keep the constraints. -/
theorem conflicts_of_columns {u u' v : User} (hkey : u'.pubkey = u.pubkey)
    (htenant : u'.tenantId = u.tenantId)
    (hname : u'.username = u.username) (hvine : u'.vineId = u.vineId)
    (hemail : u'.email = u.email ∨ u'.email = none)
    (h : Db.conflicts u' v = true) : Db.conflicts u v = true := by
  unfold Db.conflicts at h ⊢
  rw [hkey, htenant, hname, hvine] at h
  rcases hemail with hemail | hemail
  · rw [hemail] at h
    exact h
  · rw [hemail] at h
    simp only [Option.isSome_none, Bool.false_and, Bool.false_or] at h
    simp only [Bool.or_eq_true, Bool.and_eq_true] at h ⊢
    tauto

end Rows

/-! ## Every run -/

structure PasswordWorld.Sound (w : Web) (x : PasswordWorld) : Prop where
  meets : System.Meets (PasswordMove w) (fun _ _ _ => True) x.pool
  unique : Db.UsersUnique x.users
  gone : ReplacedGone w x.users x.replaced

section Steps

variable {w : Web} {x : PasswordWorld} {e : PasswordEvent}

theorem PasswordWorld.Sound.meets_step (h : x.Sound w) (e : PasswordEvent) :
    System.Meets (PasswordMove w) (fun _ _ _ => True) (passwordStep w x e).pool := by
  show System.Meets _ _ ((passwordSystem w).step x.pool e)
  exact System.meets_step (passwordProg_meets w) e h.meets

theorem PasswordWorld.Sound.same (h : x.Sound w) (husers : (passwordStep w x e).users = x.users)
    (hreplaced : (passwordStep w x e).replaced = x.replaced) : (passwordStep w x e).Sound w := by
  refine ⟨h.meets_step e, ?_, ?_⟩
  · rw [husers]
    exact h.unique
  · rw [husers, hreplaced]
    exact h.gone

theorem replaced_exec {i : Nat} {t : PasswordThread} (ht : x.pool.threads[i]? = some t) :
    (passwordStep w x (.exec i)).replaced = replacedBy w t x.users x.replaced := by
  simp [passwordStep, ht]

theorem PasswordWorld.Sound.changePassword (h : x.Sound w) {i : Nat}
    (hok : AccountInPlace w x (.exec i))
    {t : PasswordThread} {tenant : TenantId} {headers : Headers} {current new : String}
    (ht : x.pool.threads[i]? = some t) (hreq : t.req = .changePassword tenant headers current new)
    (hl : t.next? = some .updatePassword)
    (hmove : PasswordMove w t.req .updatePassword t.seen x.pool.state
      (passwordStep w x (.exec i)).pool.state) :
    (passwordStep w x (.exec i)).Sound w := by
  rw [hreq] at hmove
  obtain ⟨user, email, old, hash, hread, hhash, husers⟩ := hmove
  have hplace := hok t ht
  simp only [accountInPlace, hreq, hl, hread, Option.all_some] at hplace
  have hreplaced : (passwordStep w x (.exec i)).replaced =
      withoutSet w tenant email hash (⟨tenant, email, current⟩ :: x.replaced) := by
    rw [replaced_exec ht]
    simp only [replacedBy, hreq, hl, hread, hhash]
  refine ⟨h.meets_step _, ?_, ?_⟩
  · unfold PasswordWorld.users
    rw [husers]
    exact h.unique.updateWhere fun u v => conflicts_of_columns rfl rfl rfl rfl (.inl rfl)
  · unfold PasswordWorld.users
    rw [husers, hreplaced]
    exact h.gone.changePassword h.unique hplace

theorem PasswordWorld.Sound.reset (h : x.Sound w) {i : Nat} {t : PasswordThread} {tenant : TenantId}
    {token new : String} (ht : x.pool.threads[i]? = some t) (hreq : t.req = .reset tenant token new)
    (hl : t.next? = some .resetPassword)
    (hmove : PasswordMove w t.req .resetPassword t.seen x.pool.state
      (passwordStep w x (.exec i)).pool.state) :
    (passwordStep w x (.exec i)).Sound w := by
  rw [hreq] at hmove
  obtain ⟨user, hash, hfound, hhash, husers⟩ := hmove
  have hreplaced : (passwordStep w x (.exec i)).replaced =
      withoutSet w tenant ((x.users.find? (Db.isUser user tenant)).bind (·.email)) hash
        x.replaced := by
    rw [replaced_exec ht]
    simp only [replacedBy, hreq, hl, hfound, hhash]
  refine ⟨h.meets_step _, ?_, ?_⟩
  · unfold PasswordWorld.users
    rw [husers]
    exact h.unique.updateWhere fun u v => conflicts_of_columns rfl rfl rfl rfl (.inl rfl)
  · unfold PasswordWorld.users
    rw [husers, hreplaced]
    exact h.gone.resetPassword h.unique fun u => ⟨rfl, rfl, rfl⟩

theorem PasswordWorld.Sound.changeKey (h : x.Sound w) {i : Nat} (hok : AccountInPlace w x (.exec i))
    {t : PasswordThread} {inst : InstanceId} {headers : Headers} {tenant : TenantId} {fresh : Keys}
    {req : ChangeKeyRequest} {old new : PublicKey} (ht : x.pool.threads[i]? = some t)
    (hreq : t.req = .changeKey inst headers tenant fresh req)
    (hl : t.next? = some (.changeKeyTransaction old new))
    (hmove : PasswordMove w t.req (.changeKeyTransaction old new) t.seen x.pool.state
      (passwordStep w x (.exec i)).pool.state) :
    (passwordStep w x (.exec i)).Sound w := by
  have hreplaced : (passwordStep w x (.exec i)).replaced = x.replaced := by
    rw [replaced_exec ht]
    simp only [replacedBy, hreq]
  rw [hreq] at hmove
  rcases hmove with husers | ⟨user, email, hash, pubkey, encrypted, n, hread, hchange⟩
  · exact h.same husers hreplaced
  have hplace := hok t ht
  simp only [accountInPlace, hreq, hl, hread, Option.all_some] at hplace
  refine ⟨h.meets_step _, ?_, ?_⟩
  · obtain ⟨hfree, husers, -⟩ := Db.changeKeyTransaction_users hchange
    unfold PasswordWorld.users
    rw [husers]
    refine Db.UsersUnique.insert (h.unique.updateWhere fun u v => ?_) hfree
    exact conflicts_of_columns rfl rfl rfl rfl (.inr rfl)
  · rw [hreplaced]
    exact h.gone.changeKey hplace hchange

/-- The three statements that change rows, and all others. -/
theorem PasswordMove.cases {r : PasswordWork} {l : Stmt} {seen : List (Stmt × State)} {s s' : State}
    (hmove : PasswordMove w r l seen s s') :
    (∃ tenant headers current new, r = .changePassword tenant headers current new ∧
      l = .updatePassword) ∨
      (∃ inst headers tenant fresh req old new,
        r = .changeKey inst headers tenant fresh req ∧ l = .changeKeyTransaction old new) ∨
      (∃ tenant token new, r = .reset tenant token new ∧ l = .resetPassword) ∨
      s'.db.users = s.db.users ∧ ∀ (t : PasswordThread) users replaced, t.req = r →
        t.next? = some l →
        replacedBy w t users replaced = replaced := by
  unfold PasswordMove at hmove
  split at hmove
  · exact .inl ⟨_, _, _, _, rfl, rfl⟩
  · exact .inr (.inl ⟨_, _, _, _, _, _, _, rfl, rfl⟩)
  · next tenant token new =>
    by_cases hl : l = .resetPassword
    · exact .inr (.inr (.inl ⟨_, _, _, rfl, hl⟩))
    · refine .inr (.inr (.inr ⟨?_, fun t users replaced hreq hnext => ?_⟩))
      · unfold ResetMove at hmove
        split at hmove
        · next h => cases h
        · exact absurd rfl hl
        · exact hmove
      · simp only [replacedBy, hreq, hnext]
        split
        · next h _ => cases h
        · next h => exact absurd (Option.some.inj h) hl
        · rfl
  · next hreset hpassword _ =>
    refine .inr (.inr (.inr ⟨hmove, fun t users replaced hreq hnext => ?_⟩))
    unfold replacedBy
    split
    · next h₁ h₂ =>
        exact absurd (Option.some.inj (hnext.symm.trans h₂))
          (hpassword _ _ _ _ (hreq.symm.trans h₁))
    · next h₁ _ => exact absurd (hreq.symm.trans h₁) (hreset _ _ _)
    · rfl

theorem PasswordWorld.Sound.step (h : x.Sound w) (hok : AccountInPlace w x e) :
    (passwordStep w x e).Sound w := by
  cases e with
  | spawn r => exact h.same rfl rfl
  | env d => exact h.same rfl rfl
  | exec i =>
    rcases h.meets.exec_cases (passwordSystem w) i with ⟨hidle, hnext⟩ | ⟨t, l, ht, hl, hmove⟩
    · refine h.same (congrArg (fun s => s.db.users) hidle) ?_
      cases ht : x.pool.threads[i]? with
      | none => simp [passwordStep, ht]
      | some t =>
        rw [ht, Option.bind_some] at hnext
        rw [replaced_exec ht]
        cases hreq : t.req with
        | changePassword | changeKey | reset => simp only [replacedBy, hreq, hnext]
    · rcases hmove.cases with ⟨tenant, headers, current, new, hreq, rfl⟩ |
        ⟨inst, headers, tenant, fresh, req, old, new, hreq, rfl⟩ | ⟨tenant, token, new, hreq,
          rfl⟩ | ⟨husers, hsame⟩
      · exact h.changePassword hok ht hreq hl hmove
      · exact h.changeKey hok ht hreq hl hmove
      · exact h.reset ht hreq hl hmove
      · refine h.same husers ?_
        rw [replaced_exec ht]
        exact hsame t _ _ rfl hl

end Steps

def ownHeaders : Headers :=
  { authorization := some (some "Bearer own"), origin := some (some "https://app.example") }

def newPassword : PasswordWork := .changePassword 1 ownHeaders "old password" "new password"

end Keycast.Http
