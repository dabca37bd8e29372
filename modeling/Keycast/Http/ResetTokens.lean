import Keycast.Http.Signup
import Keycast.Lib.Histories

/-!
# `Http/ResetTokens.lean` — tokens that reset a password

`forgot_password` stores a token in the row of the user and mails it; `reset_password` looks the row
up by the token, hashes the new password and then updates the row by its key alone. Between the two
statements the row may have lost the token to another `reset_password`, or got a newer one. Seen
with a log of the tokens that were stored and of those a password was changed with, a run in which
each update still finds the token it was presented uses every token once, and none after a newer one
was stored.

The invariant ties the rows to the two logs (`TokenRows`): a token that is in a row is the newest of
its user, was not used, and is in no other row. A token that is stored is new (`TokenRows.store`),
and one that changes a password is taken out by the update (`TokenRows.change`), which is where the
condition says that the row still has it. Whatever else the servers do leaves the tokens in the rows
or takes them out (`ResetWorld.Sound.same`).
-/

set_option autoImplicit false

namespace Keycast.Http

open Lib

/-! ## The system -/

inductive ResetWork
  | forgot (tenant : TenantId) (allowed : Bool) (resetToken email : String)
  | reset (tenant : TenantId) (token newPassword : String)
  deriving DecidableEq

def resetProg (w : Web) : ResetWork → Prog Stmt State AuthError Unit
  | .forgot tenant allowed resetToken email => do
    let _ ← forgotPassword w tenant allowed resetToken email
  | .reset tenant token newPassword => do
    let _ ← resetPassword w tenant token newPassword

def resetSystem (w : Web) : System ResetWork Stmt State AuthError Unit Nat where
  prog := resetProg w
  env d s := { s with now := s.now + d }

abbrev ResetThread := Thread ResetWork Stmt State AuthError Unit
abbrev ResetEvent := Ev ResetWork Nat

def ResetWork.drawn : ResetWork → Option String
  | .forgot _ _ resetToken _ => some resetToken
  | .reset .. => none

/-- The user a request has found. -/
def resetTarget (w : Web) : ResetWork → List (Stmt × State) → Option PublicKey
  | .forgot tenant _ _ email, (.findPubkeyByEmail, s) :: _ =>
    s.db.findPubkeyByEmail (w.toLowercase email) tenant
  | .reset tenant token _, (.clock, _) :: (.findByResetToken, s) :: _ =>
    (s.db.findByResetToken token tenant).map (·.1)
  | _, _ => none

/-- The token a thread is about to store, and for whom. -/
def storesToken (w : Web) (t : ResetThread) : Option (PublicKey × TenantId × String) :=
  match t.req, t.next? with
  | .forgot tenant _ resetToken _, some .setPasswordResetToken =>
    (resetTarget w t.req t.seen).map fun user => (user, tenant, resetToken)
  | _, _ => none

/-- The token a thread is about to change a password with, and whose. -/
def changesWith (w : Web) (t : ResetThread) : Option (PublicKey × TenantId × String) :=
  match t.req, t.next? with
  | .reset tenant token _, some .resetPassword => (resetTarget w t.req t.seen).map fun user =>
    (user, tenant, token)
  | _, _ => none

/-- The servers with their logs, the newest entry first. -/
structure ResetWorld where
  pool : Conf ResetWork Stmt State AuthError Unit
  stored : List (PublicKey × TenantId × String) := []
  changed : List (TenantId × String) := []

def ResetWorld.users (x : ResetWorld) : List User := x.pool.state.db.users

/-- The thread an event moves. -/
def ResetWorld.mover (x : ResetWorld) : ResetEvent → Option ResetThread
  | .exec i => x.pool.threads[i]?
  | _ => none

def resetStep (w : Web) (x : ResetWorld) (e : ResetEvent) : ResetWorld where
  pool := (resetSystem w).step x.pool e
  stored := ((x.mover e).bind (storesToken w)).toList ++ x.stored
  changed := ((x.mover e).bind (changesWith w)).toList.map (·.2) ++ x.changed

/-- The token that was stored last. -/
def newestToken (stored : List (PublicKey × TenantId × String)) (user : PublicKey)
    (tenant : TenantId) : Option String :=
  (stored.find? fun entry => entry.1 == user && entry.2.1 == tenant).map (·.2.2)

/-! ## The property, and its condition -/

/-- A password is changed with a token that was not used before, and than which no newer one was
stored. -/
def ResetsRightly (w : Web) (x : ResetWorld) (e : ResetEvent) : Prop :=
  ∀ entry ∈ (x.mover e).bind (changesWith w),
    entry.2 ∉ x.changed ∧ ∀ newest ∈ newestToken x.stored entry.1 entry.2.1, newest = entry.2.2

instance (w : Web) (x : ResetWorld) (e : ResetEvent) : Decidable (ResetsRightly w x e) :=
  inferInstanceAs (Decidable (∀ entry ∈ (x.mover e).bind (changesWith w), _ ∧ _))

/-- The update finds the token still in the row. -/
def TokenInPlace (w : Web) (x : ResetWorld) (e : ResetEvent) : Prop :=
  ∀ entry ∈ (x.mover e).bind (changesWith w),
    x.users.any (fun u => Db.isUser entry.1 entry.2.1 u && u.passwordResetToken == some entry.2.2) =
      true

instance (w : Web) (x : ResetWorld) (e : ResetEvent) : Decidable (TokenInPlace w x e) :=
  inferInstanceAs (Decidable (∀ entry ∈ (x.mover e).bind (changesWith w), _))

def resetTokensDrawn (events : List ResetEvent) : List String :=
  events.filterMap fun e => e.request?.bind ResetWork.drawn

/-- The tokens that are in the rows already, and those that are drawn, do not repeat. -/
def ResetTokensFresh (s : State) (events : List ResetEvent) : Prop :=
  (resetTokensDrawn events ++ s.db.users.filterMap (·.passwordResetToken)).Nodup

instance (s : State) (events : List ResetEvent) : Decidable (ResetTokensFresh s events) :=
  inferInstanceAs (Decidable (List.Nodup _))

/-! ## What the statements do to the rows -/

def ResetMove (w : Web) (r : ResetWork) (l : Stmt) (seen : List (Stmt × State))
    (s s' : State) : Prop :=
  match r, l with
  | .forgot tenant _ resetToken _, .setPasswordResetToken =>
    (∀ x ∈ seen, x.1 ≠ .setPasswordResetToken) ∧
    ∃ user expiresAt, resetTarget w r seen = some user ∧
      s'.db.users = updateWhere (Db.isUser user tenant)
        (fun u => { u with
          passwordResetToken := some resetToken, passwordResetExpiresAt := some expiresAt })
        s.db.users
  | .reset tenant _ newPassword, .resetPassword =>
    ∃ user hash, resetTarget w r seen = some user ∧ w.bcryptHash newPassword = .ok hash ∧
      s'.db.users = updateWhere (Db.isUser user tenant) (fun u =>
      { u with
        passwordHash := some hash, passwordResetToken := none, passwordResetExpiresAt := none,
        emailVerified := true, emailVerificationToken := none, emailVerificationExpiresAt :=
          none }) s.db.users
  | _, _ => s'.db.users = s.db.users

theorem resetProg_meets (w : Web) (r : ResetWork) : (resetProg w r).Meets (ResetMove w r)
    (fun _ _ => True) [] := by
  cases r with
  | forgot tenant allowed resetToken email =>
    show Prog.Meets _ _
      ((forgotPassword w tenant allowed resetToken email).bind fun _ => .ret ()) []
    unfold forgotPassword
    dsimp only
    split
    · trivial
    simp only [Prog.bind_def, Prog.bind_assoc]
    refine .read (fun s => rfl) fun s => ?_
    split
    · trivial
    next user hfound =>
    refine .write fun s' => ⟨⟨fun x hx => ?_, user, _, hfound, rfl⟩, trivial⟩
    rw [List.mem_singleton.mp hx]
    exact nofun
  | reset tenant token newPassword =>
    show Prog.Meets _ _ ((resetPassword w tenant token newPassword).bind fun _ => .ret ()) []
    unfold resetPassword
    simp only [Prog.bind_def, Prog.bind_assoc]
    refine .orErr trivial fun _ _ => .read (fun s => rfl) fun s =>
      .orErr trivial fun found hfound => ?_
    refine .read (fun s => rfl) fun s₁ => ?_
    split
    · trivial
    simp only [Prog.bind_assoc]
    refine .ofExcept (fun _ => trivial) fun hash hhash => .write fun s₂ =>
      ⟨⟨found.1, hash, ?_, mapError_eq_ok.mp hhash, rfl⟩, trivial⟩
    show Option.map _ (s.db.findByResetToken token tenant) = some found.1
    rw [hfound]
    rfl

/-! ## The rows and the logs -/

/-- What the tokens in the rows are: the newest of their user, not used, and each in the row of one
user. The tokens that were in a row at some time are `known`. -/
structure TokenRows (known : String → Prop) (users : List User)
    (stored : List (PublicKey × TenantId × String))
    (changed : List (TenantId × String)) : Prop where
  newest : ∀ u ∈ users, ∀ k, u.passwordResetToken = some k →
    ∀ newest, newestToken stored u.pubkey u.tenantId = some newest → newest = k
  unused : ∀ u ∈ users, ∀ k, u.passwordResetToken = some k → (u.tenantId, k) ∉ changed
  unique : ∀ u ∈ users, ∀ u' ∈ users, ∀ k, u.passwordResetToken = some k →
    u'.passwordResetToken = some k →
    u'.pubkey = u.pubkey ∧ u'.tenantId = u.tenantId
  rows : ∀ u ∈ users, ∀ k, u.passwordResetToken = some k → known k
  used : ∀ entry ∈ changed, known entry.2

section Rows

variable {known : String → Prop} {users : List User} {stored : List (PublicKey × TenantId × String)}
  {changed : List (TenantId × String)} {user : PublicKey} {tenant : TenantId} {k : String}

theorem TokenRows.mono {known' : String → Prop} (h : TokenRows known users stored changed)
    (hknown : ∀ k, known k → known' k) : TokenRows known' users stored changed where
  newest := h.newest
  unused := h.unused
  unique := h.unique
  rows u hu k hk := hknown k (h.rows u hu k hk)
  used entry he := hknown _ (h.used entry he)

theorem newestToken_cons (u : User) :
    newestToken ((user, tenant, k) :: stored) u.pubkey u.tenantId =
      if Db.isUser user tenant u then some k else newestToken stored u.pubkey u.tenantId := by
  have hsame : (user == u.pubkey && tenant == u.tenantId) = Db.isUser user tenant u := by
    unfold Db.isUser
    rw [BEq.comm, BEq.comm (a := tenant)]
  unfold newestToken
  rw [List.find?_cons]
  simp only [hsame]
  cases Db.isUser user tenant u with
  | true => rfl
  | false => rfl

/-- A token that was never in a row is stored. -/
theorem TokenRows.store (h : TokenRows known users stored changed) (hfresh : ¬ known k)
    {f : User → User}
    (hf : ∀ u, (f u).passwordResetToken = some k ∧ (f u).pubkey = u.pubkey ∧
      (f u).tenantId = u.tenantId) :
    TokenRows (fun k' => known k' ∨ k' = k) (updateWhere (Db.isUser user tenant) f users)
      ((user, tenant, k) :: stored) changed where
  newest u hu k' hk' newest hnewest := by
    rw [newestToken_cons] at hnewest
    rcases mem_updateWhere.mp hu with ⟨u₀, hu₀, hp, rfl⟩ | ⟨hu, hp⟩
    · have hp' : Db.isUser user tenant (f u₀) = true := by
        unfold Db.isUser at hp ⊢
        rw [(hf u₀).2.1, (hf u₀).2.2]
        exact hp
      rw [hp', if_pos rfl] at hnewest
      rw [(hf u₀).1] at hk'
      exact Option.some.inj (hnewest.symm.trans hk')
    · rw [hp, if_neg Bool.false_ne_true] at hnewest
      exact h.newest u hu k' hk' newest hnewest
  unused u hu k' hk' hused := by
    rcases mem_updateWhere.mp hu with ⟨u₀, hu₀, -, rfl⟩ | ⟨hu, -⟩
    · rw [(hf u₀).1] at hk'
      cases hk'
      exact hfresh (h.used _ hused)
    · exact h.unused u hu k' hk' hused
  unique u hu u' hu' k' hk hk' := by
    -- a row with the new token is one of those the update changed
    have hnew : ∀ {v}, v ∈ updateWhere (Db.isUser user tenant) f users →
      v.passwordResetToken = some k →
        v.pubkey = user ∧ v.tenantId = tenant := by
      intro v hv hvk
      rcases mem_updateWhere.mp hv with ⟨v₀, hv₀, hp, rfl⟩ | ⟨hv, -⟩
      · rw [(hf v₀).2.1, (hf v₀).2.2]
        simpa [Db.isUser] using hp
      · exact absurd (h.rows v hv k hvk) hfresh
    have hold : ∀ {v}, v ∈ updateWhere (Db.isUser user tenant) f users →
      v.passwordResetToken = some k' → k' ≠ k →
        v ∈ users := by
      intro v hv hvk hne
      rcases mem_updateWhere.mp hv with ⟨v₀, hv₀, -, rfl⟩ | ⟨hv, -⟩
      · rw [(hf v₀).1] at hvk
        exact absurd (Option.some.inj hvk).symm hne
      · exact hv
    by_cases heq : k' = k
    · subst heq
      rw [(hnew hu hk).1, (hnew hu hk).2]
      exact hnew hu' hk'
    · exact h.unique u (hold hu hk heq) u' (hold hu' hk' heq) k' hk hk'
  rows u hu k' hk' := by
    rcases mem_updateWhere.mp hu with ⟨u₀, hu₀, -, rfl⟩ | ⟨hu, -⟩
    · rw [(hf u₀).1] at hk'
      exact .inr (Option.some.inj hk').symm
    · exact .inl (h.rows u hu k' hk')
  used entry he := .inl (h.used entry he)

/-- A password is changed with a token that is in the row. -/
theorem TokenRows.change (h : TokenRows known users stored changed) {u₀ : User} (hu₀ : u₀ ∈ users)
    (his : Db.isUser user tenant u₀ = true) (hin : u₀.passwordResetToken = some k) {f : User → User}
    (hf : ∀ u, (f u).passwordResetToken = none) :
    TokenRows known (updateWhere (Db.isUser user tenant) f users) stored
      ((tenant, k) :: changed) := by
  have hold : ∀ {u k'}, u ∈ updateWhere (Db.isUser user tenant) f users →
    u.passwordResetToken = some k' →
      u ∈ users ∧ Db.isUser user tenant u = false := by
    intro u k' hu hk'
    rcases mem_updateWhere.mp hu with ⟨u₁, -, -, rfl⟩ | hu
    · rw [hf u₁] at hk'
      cases hk'
    · exact hu
  refine ⟨fun u hu k' hk' => h.newest u (hold hu hk').1 k' hk', fun u hu k' hk' hused => ?_,
    fun u hu u' hu' k' hk hk' => h.unique u (hold hu hk).1 u' (hold hu' hk').1 k' hk hk',
    fun u hu k' hk' => h.rows u (hold hu hk').1 k' hk', fun entry he => ?_⟩
  · obtain ⟨hmem, hother⟩ := hold hu hk'
    rcases List.mem_cons.mp hused with heq | hused
    · -- the row of the token was the one that lost it
      obtain ⟨-, rfl⟩ := Prod.mk.inj heq
      obtain ⟨hkey, htenant⟩ := h.unique u₀ hu₀ u hmem k' hin hk'
      unfold Db.isUser at his hother
      rw [hkey, htenant, his] at hother
      cases hother
    · exact h.unused u hmem k' hk' hused
  · rcases List.mem_cons.mp he with rfl | he
    · exact h.rows u₀ hu₀ k hin
    · exact h.used entry he

end Rows

/-! ## Every run -/

/-- A token that was in a row: at the start, or since a request stored it. -/
def ResetWorld.Known (start : List String) (x : ResetWorld) (k : String) : Prop :=
  k ∈ start ∨ ∃ t ∈ x.pool.threads, t.req.drawn = some k ∧ ∃ s, (.setPasswordResetToken, s) ∈ t.seen

structure ResetWorld.Sound (w : Web) (start : List String) (x : ResetWorld) : Prop where
  meets : System.Meets (ResetMove w) (fun _ _ _ => True) x.pool
  tokens : TokenRows (x.Known start) x.users x.stored x.changed

/-- The condition of a run, with what follows of its tokens from their being drawn at random. -/
structure ResetOk (w : Web) (start : List String) (x : ResetWorld) (e : ResetEvent) : Prop where
  inPlace : TokenInPlace w x e
  distinct : (x.pool.threads.filterMap fun t => t.req.drawn).Nodup
  unknown : ∀ t ∈ x.pool.threads, ∀ k, t.req.drawn = some k → k ∉ start

section Steps

variable {w : Web} {start : List String} {x : ResetWorld} {e : ResetEvent}

theorem ResetWorld.Known.step {k : String} (h : x.Known start k) (e : ResetEvent) :
    (resetStep w x e).Known start k := by
  rcases h with h | ⟨t, ht, hk, s, hs⟩
  · exact .inl h
  · obtain ⟨t', ht', hreq, hseen⟩ := System.seen_kept (resetSystem w) e ht
    exact .inr ⟨t', ht', hreq ▸ hk, s, hseen hs⟩

theorem ResetWorld.Sound.meets_step (h : x.Sound w start) (e : ResetEvent) :
    System.Meets (ResetMove w) (fun _ _ _ => True) (resetStep w x e).pool := by
  show System.Meets _ _ ((resetSystem w).step x.pool e)
  exact System.meets_step (resetProg_meets w) e h.meets

/-- An event that neither stores a token nor changes a password. -/
theorem ResetWorld.Sound.same (h : x.Sound w start)
    (hstored : (x.mover e).bind (storesToken w) = none)
    (hchanged : (x.mover e).bind (changesWith w) = none)
    (husers : (resetStep w x e).users = x.users) :
    (resetStep w x e).Sound w start := by
  refine ⟨h.meets_step e, ?_⟩
  have hlog : (resetStep w x e).stored = x.stored ∧ (resetStep w x e).changed = x.changed := by
    simp [resetStep, hstored, hchanged]
  rw [husers, hlog.1, hlog.2]
  exact h.tokens.mono fun k hk => hk.step e

/-- A thread about to store its token is the first to do so. -/
theorem ResetWorld.Sound.unknown (hok : ResetOk w start x e) {i : Nat}
    {t : ResetThread} {k : String}
    (ht : x.pool.threads[i]? = some t) (hk : t.req.drawn = some k)
    (hnot : ∀ y ∈ t.seen, y.1 ≠ .setPasswordResetToken) :
    ¬ x.Known start k := by
  rintro (hstart | ⟨t', ht', hk', s, hs⟩)
  · exact hok.unknown t (List.mem_of_getElem? ht) k hk hstart
  · obtain ⟨j, hj⟩ := List.getElem?_of_mem ht'
    obtain rfl : i = j := nodup_filterMap_place hok.distinct ht hj hk hk'
    cases ht.symm.trans hj
    exact hnot _ hs rfl

theorem ResetWorld.Sound.store (h : x.Sound w start) {i : Nat} (hok : ResetOk w start x (.exec i))
    {t : ResetThread}
    {tenant : TenantId} {allowed : Bool} {token email : String} (ht : x.pool.threads[i]? = some t)
    (hreq : t.req = .forgot tenant allowed token email) (hl : t.next? = some .setPasswordResetToken)
    (hmove : ResetMove w t.req .setPasswordResetToken t.seen x.pool.state
      (resetStep w x (.exec i)).pool.state) :
    (resetStep w x (.exec i)).Sound w start := by
  refine ⟨h.meets_step (.exec i), ?_⟩
  have hdrawn : t.req.drawn = some token := by
    rw [hreq]
    rfl
  rw [hreq] at hmove
  obtain ⟨hnot, user, expiresAt, htarget, husers⟩ := hmove
  have hlog : (resetStep w x (.exec i)).stored = (user, tenant, token) :: x.stored ∧
      (resetStep w x (.exec i)).changed = x.changed := by
    simp [resetStep, ResetWorld.mover, ht, storesToken, changesWith, hreq, hl, htarget]
  unfold ResetWorld.users
  rw [husers, hlog.1, hlog.2]
  refine TokenRows.mono (h.tokens.store (ResetWorld.Sound.unknown hok ht hdrawn hnot) ?_) ?_
  · exact fun u => ⟨rfl, rfl, rfl⟩
  rintro k (hk | rfl)
  · exact hk.step _
  · obtain ⟨t', ht', hreq', hseen⟩ := System.seen_exec (resetSystem w) ht hl
    exact .inr ⟨t', ht', hreq' ▸ hdrawn, _, hseen⟩

theorem ResetWorld.Sound.change (h : x.Sound w start) {i : Nat} (hok : ResetOk w start x (.exec i))
    {t : ResetThread}
    {tenant : TenantId} {token newPassword : String} (ht : x.pool.threads[i]? = some t)
    (hreq : t.req = .reset tenant token newPassword) (hl : t.next? = some .resetPassword)
    (hmove : ResetMove w t.req .resetPassword t.seen x.pool.state
      (resetStep w x (.exec i)).pool.state) :
    (resetStep w x (.exec i)).Sound w start := by
  refine ⟨h.meets_step (.exec i), ?_⟩
  rw [hreq] at hmove
  obtain ⟨user, hash, htarget, -, husers⟩ := hmove
  have hstores : (x.mover (.exec i)).bind (storesToken w) = none := by
    simp [ResetWorld.mover, ht, storesToken, hreq]
  have hchanges : (x.mover (.exec i)).bind (changesWith w) = some (user, tenant, token) := by
    simp [ResetWorld.mover, ht, changesWith, hreq, hl, htarget]
  have hlog : (resetStep w x (.exec i)).stored = x.stored ∧
      (resetStep w x (.exec i)).changed = (tenant, token) :: x.changed := by
    simp [resetStep, hstores, hchanges]
  have hrow := hok.inPlace _ hchanges
  simp only [List.any_eq_true, Bool.and_eq_true, beq_iff_eq] at hrow
  obtain ⟨u₀, hu₀, his, hin⟩ := hrow
  unfold ResetWorld.users
  rw [husers, hlog.1, hlog.2]
  exact (h.tokens.change hu₀ his hin fun u => rfl).mono fun k hk => hk.step _

theorem ResetWorld.Sound.step (h : x.Sound w start) (hok : ResetOk w start x e) :
    (resetStep w x e).Sound w start := by
  cases e with
  | spawn r => exact h.same rfl rfl rfl
  | env d => exact h.same rfl rfl rfl
  | exec i =>
    rcases h.meets.exec_cases (resetSystem w) i with ⟨hidle, hnext⟩ | ⟨t, l, ht, hl, hmove⟩
    · -- a thread that has ended is not about to do anything
      have hnone : ∀ t, x.pool.threads[i]? = some t → storesToken w t = none ∧
        changesWith w t = none := by
        intro t ht
        rw [ht, Option.bind_some] at hnext
        constructor
        · unfold storesToken
          rw [hnext]
          cases t.req <;> rfl
        · unfold changesWith
          rw [hnext]
          cases t.req <;> rfl
      refine h.same ?_ ?_ (congrArg (fun s => s.db.users) hidle)
      · exact Option.bind_eq_none_iff.mpr fun t ht => (hnone t ht).1
      · exact Option.bind_eq_none_iff.mpr fun t ht => (hnone t ht).2
    · by_cases hstore : ∃ tenant allowed token email,
          t.req = .forgot tenant allowed token email ∧ l = .setPasswordResetToken
      · obtain ⟨tenant, allowed, token, email, hreq, rfl⟩ := hstore
        exact h.store hok ht hreq hl hmove
      by_cases hchange : ∃ tenant token newPassword, t.req = .reset tenant token newPassword ∧
        l = .resetPassword
      · obtain ⟨tenant, token, newPassword, hreq, rfl⟩ := hchange
        exact h.change hok ht hreq hl hmove
      refine h.same ?_ ?_ ?_
      · cases hreq : t.req with
        | forgot tenant allowed token email =>
          have hother : l ≠ .setPasswordResetToken := fun heq => hstore ⟨_, _, _, _, hreq, heq⟩
          simp [ResetWorld.mover, ht, storesToken, hreq, hl, hother]
        | reset => simp [ResetWorld.mover, ht, storesToken, hreq]
      · cases hreq : t.req with
        | forgot => simp [ResetWorld.mover, ht, changesWith, hreq]
        | reset tenant token newPassword =>
          have hother : l ≠ .resetPassword := fun heq => hchange ⟨_, _, _, hreq, heq⟩
          simp [ResetWorld.mover, ht, changesWith, hreq, hl, hother]
      · unfold ResetMove at hmove
        split at hmove
        · next hreq => exact absurd ⟨_, _, _, _, hreq, rfl⟩ hstore
        · next hreq => exact absurd ⟨_, _, _, hreq, rfl⟩ hchange
        · exact hmove

theorem ResetWorld.Sound.rightly (h : x.Sound w start) (hok : ResetOk w start x e) :
    ResetsRightly w x e := by
  intro entry hchanges
  have hrow := hok.inPlace _ hchanges
  simp only [List.any_eq_true, Bool.and_eq_true, beq_iff_eq] at hrow
  obtain ⟨u, hu, his, hin⟩ := hrow
  simp only [Db.isUser, Bool.and_eq_true, beq_iff_eq] at his
  have hunused := h.tokens.unused u hu entry.2.2 hin
  have hnewest := h.tokens.newest u hu entry.2.2 hin
  rw [his.1, his.2] at hnewest
  rw [his.2] at hunused
  exact ⟨hunused, hnewest⟩

end Steps

theorem ResetWorld.sound_init {w : Web} {s : State} {events : List ResetEvent}
    (hfresh : ResetTokensFresh s events) :
    ResetWorld.Sound w (s.db.users.filterMap (·.passwordResetToken)) ⟨Conf.init s, [], []⟩ := by
  refine ⟨nofun, ⟨fun u _ k _ newest h => ?_, fun u _ k _ => nofun, ?_, fun u hu k hk => ?_, nofun⟩⟩
  · cases h
  · intro u hu u' hu' k hk hk'
    -- a token that stands in the rows once stands in one row
    obtain ⟨i, hi⟩ := List.getElem?_of_mem hu
    obtain ⟨j, hj⟩ := List.getElem?_of_mem hu'
    obtain rfl : i = j := nodup_filterMap_place (List.nodup_append.mp hfresh).2.1 hi hj hk hk'
    cases hi.symm.trans hj
    exact ⟨rfl, rfl⟩
  · exact .inl (List.mem_filterMap.mpr ⟨u, hu, hk⟩)

theorem run_resetStep_pool (w : Web) (x : ResetWorld) (events : List ResetEvent) :
    (run (resetStep w) x events).pool = run (resetSystem w).step x.pool events := by
  induction events generalizing x with
  | nil => rfl
  | cons e events ih => exact ih (resetStep w x e)

theorem resetOk_of_fresh {w : Web} {s : State} {events : List ResetEvent}
    (hfresh : ResetTokensFresh s events)
    (hc : Along (resetStep w) (TokenInPlace w) ⟨Conf.init s, [], []⟩ events) :
    Along (resetStep w) (ResetOk w (s.db.users.filterMap (·.passwordResetToken)))
      ⟨Conf.init s, [], []⟩ events := by
  rw [along_iff_split] at hc ⊢
  rintro pre e post rfl
  have hdrawn :
    (run (resetStep w) ⟨Conf.init s, [], []⟩ pre).pool.threads.filterMap (fun t => t.req.drawn) =
      resetTokensDrawn pre := by
    have hreqs : (run (resetSystem w).step (Conf.init s) pre).threads.map (·.req) =
      pre.filterMap Ev.request? := by
      rw [System.reqs_run]
      rfl
    unfold resetTokensDrawn
    rw [run_resetStep_pool, ← List.filterMap_filterMap, ← hreqs, List.filterMap_map]
    rfl
  obtain ⟨hnodup, -, hdisjoint⟩ := List.nodup_append.mp hfresh
  unfold resetTokensDrawn at hnodup hdisjoint
  rw [List.filterMap_append] at hnodup hdisjoint
  refine ⟨hc pre e post rfl, ?_, fun t ht k hk hstart => ?_⟩
  · rw [hdrawn]
    exact (List.nodup_append.mp hnodup).1
  · have hmem : k ∈ resetTokensDrawn pre := hdrawn ▸ List.mem_filterMap.mpr ⟨t, ht, hk⟩
    exact hdisjoint k (List.mem_append_left _ hmem) k hstart rfl

/-- **Reset tokens are used once, and none after a newer one**, in every run in which each update
still finds the token it was presented. -/
theorem reset_tokens_single_use {w : Web} {s : State} {events : List ResetEvent}
    (hfresh : ResetTokensFresh s events)
    (hc : Along (resetStep w) (TokenInPlace w) ⟨Conf.init s, [], []⟩ events) :
    Along (resetStep w) (ResetsRightly w) ⟨Conf.init s, [], []⟩ events :=
  along_of_invariant (fun _ _ h hok => h.step hok) (fun _ _ h hok => h.rightly hok)
    (ResetWorld.sound_init hfresh) (resetOk_of_fresh hfresh hc)

/-! A user asks for two mails and uses the second. -/

def forgetful : State :=
  .boot { users := [{ pubkey := "p", tenantId := 1, email := some "p@example.com" }] } 0

def asks (token : String) : ResetWork := .forgot 1 true token "p@example.com"

def resetsWith (token : String) : ResetWork := .reset 1 token "correct horse"

def resetRun (events : List ResetEvent) : ResetWorld :=
  run (resetStep (Web.symbolic [] [])) ⟨Conf.init forgetful, [], []⟩ events

def secondMail : List ResetEvent :=
  [.spawn (asks "0123456789-1"), .exec 0, .exec 0, .spawn (asks "0123456789-2"), .exec 1, .exec 1,
    .spawn (resetsWith "0123456789-1"), .exec 2, .spawn (resetsWith "0123456789-2"), .exec 3,
      .exec 3, .exec 3]

theorem reset_tokens_single_use_second_mail :
    (resetRun secondMail).changed = [(1, "0123456789-2")] ∧
      Along (resetStep (Web.symbolic [] [])) (ResetsRightly (Web.symbolic [] []))
        ⟨Conf.init forgetful, [], []⟩
        secondMail :=
  ⟨by decide, reset_tokens_single_use (by decide) (by decide)⟩

/-! Both requests look the token up before either updates the row; and a token is stored between the
two statements of a request that presented an older one. -/

def sameTwice : List ResetEvent :=
  [.spawn (asks "0123456789-1"), .exec 0, .exec 0, .spawn (resetsWith "0123456789-1"),
    .spawn (resetsWith "0123456789-1"), .exec 1, .exec 1, .exec 2, .exec 2, .exec 1, .exec 2]

def olderOne : List ResetEvent :=
  [.spawn (asks "0123456789-1"), .exec 0, .exec 0, .spawn (resetsWith "0123456789-1"),
    .exec 1, .exec 1,
    .spawn (asks "0123456789-2"), .exec 2, .exec 2, .exec 1]

/-- **It happens.** One token changes the password twice, and an older token changes it and clears
the newer one. -/
theorem reset_tokens_reused :
    (resetRun sameTwice).changed = [(1, "0123456789-1"), (1, "0123456789-1")] ∧
      (resetRun olderOne).changed = [(1, "0123456789-1")] ∧
      (resetRun olderOne).users.map (·.passwordResetToken) = [none] ∧
      ¬ Along (resetStep (Web.symbolic [] [])) (ResetsRightly (Web.symbolic [] []))
        ⟨Conf.init forgetful, [], []⟩
        sameTwice ∧
      ¬ Along (resetStep (Web.symbolic [] [])) (ResetsRightly (Web.symbolic [] []))
        ⟨Conf.init forgetful, [], []⟩
        olderOne := by
  refine ⟨?_, ?_, ?_, ?_, ?_⟩ <;> decide

end Keycast.Http
