import Keycast.Http.OldLinks
import Keycast.Lib.Histories

/-!
# `Http/LinkLimit.lean` — how many links an address gets

`send_link` counts the links that an address was sent in the last hour, and stores another one if
there are fewer than five. What is counted are the rows of `magic_link_tokens`. Two requests can
count before either of them stores, and deleting an account deletes the links of its address with
it, so the count is not what was sent.

The servers are those of `OldLinks`, with the task that removes old links, and with a log of what
was sent: a link goes out when it has been stored. `link_limit_holds` says what has to be true when
a link is stored and when a deletion commits for the limit to hold, and `link_limit_exceeded` is a
run in which it does not.
-/

set_option autoImplicit false

namespace Keycast.Http

open Lib

/-! ## The system -/

/-- A link with the moment it went out. -/
abbrev MailedLink := Timestamp × LinkKey

structure MailWorld where
  pool : LinkPool
  mailed : List MailedLink := []

inductive MailEvent
  | pool (e : LinkEvent)
  | purgeExpired

namespace MailWorld

abbrev state (x : MailWorld) : State := x.pool.state

def start (s : State) : MailWorld := { pool := .init s }

end MailWorld

/-- `MagicLinkTokenRepository::purge_expired`. -/
def State.purgeExpired (s : State) : State :=
  s.withDb { s.db with
    magicLinkTokens :=
      s.db.magicLinkTokens.filter fun l => !decide (l.createdAt < s.now - hours 24) }

def mailStep (w : Web) (x : MailWorld) : MailEvent → MailWorld
  | .pool e =>
    let pool := (linkSystem w).step x.pool e
    { pool, mailed := x.mailed ++ (storedLinks x.state.db pool.state.db).map (x.state.now, ·) }
  | .purgeExpired => { x with pool := { x.pool with state := x.state.purgeExpired } }

/-! ## The limit -/

/-- In the hour from `a` on; both ends are in it, as they are for `count_recent`. -/
def inHour (a t : Timestamp) : Bool := decide (a ≤ t) && decide (t ≤ a + hours 1)

/-- How many links the address was sent in the hour from `a` on. -/
def mailedIn (x : MailWorld) (tenant : TenantId) (email : String) (a : Timestamp) : Nat :=
  x.mailed.countP fun m => m.2.1 == tenant && m.2.2.2 == email && inHour a m.1

/-- In no hour there are more than `EMAIL_HOURLY_LIMIT`. -/
def LimitKept (x : MailWorld) : Prop :=
  ∀ tenant email a, mailedIn x tenant email a ≤ emailHourlyLimit

/-- When a link is stored the count is still below the limit, and a deletion takes no link of the
last hour away. -/
def countsAll (s : State) : Stmt → LinkWork → Bool
  | .createMagicLink, .sendLink tenant _ _ email _ _ _ =>
    decide (s.db.countRecentLinks tenant email (s.now - hours 1) < emailHourlyLimit)
  | .commitDeletion _ tenant links, _ =>
    s.db.magicLinkTokens.all fun l => !Db.deletesLink tenant links l ||
      decide (l.createdAt < s.now - hours 1)
  | _, _ => true

/-- The step leaves the count right. -/
def CountsAll (x : MailWorld) : MailEvent → Prop
  | .pool (.exec i) => ∀ t ∈ x.pool.threads[i]?, ∀ l ∈ t.next?, countsAll x.state l t.req = true
  | _ => True

instance (x : MailWorld) : ∀ e, Decidable (CountsAll x e)
  | .purgeExpired | .pool (.spawn _) | .pool (.env _) => .isTrue trivial
  | .pool (.exec i) =>
    inferInstanceAs
      (Decidable (∀ t ∈ x.pool.threads[i]?, ∀ l ∈ t.next?, countsAll x.state l t.req = true))

/-! ## What the statements do to the links -/

section Moves

variable {w : Web}

/-- A link is stored by the request that sends it. -/
def StoresLink (r : LinkWork) (l : Stmt) (s s' : State) : Prop :=
  l = .createMagicLink → s' = s ∨ ∃ tenant ipAllowed windowAllowed email token page purpose row,
    r = .sendLink tenant ipAllowed windowAllowed email token page purpose ∧ row.tenantId = tenant ∧
      row.email = email ∧ row.createdAt = s.now ∧
      s' = s.withDb { s.db with magicLinkTokens := s.db.magicLinkTokens ++ [row] } ∧
      ∀ r ∈ s.db.magicLinkTokens, r.tokenHash ≠ row.tokenHash

theorem sendLink_stores {tenant : TenantId} {ipAllowed windowAllowed : Bool}
    {email token page : String}
    {purpose : LinkPurpose} :
    (sendLink w tenant ipAllowed windowAllowed email token page purpose).Does
      (StoresLink (.sendLink tenant ipAllowed windowAllowed email token page purpose)) := by
  unfold sendLink
  split
  · trivial
  refine .bind (.read (fun s h => ?_) _) fun recent => ?_
  · cases h
  split
  · trivial
  refine .bind (.attempt (transact_does (fun s _ => .inl rfl) fun s _ db hstored _ => ?_))
    fun stored => ?_
  · obtain ⟨db', hcreate, heq⟩ := Option.map_eq_some_iff.mp hstored
    cases heq
    unfold Db.createMagicLink at hcreate
    split at hcreate
    · cases hcreate
    · next hnew =>
      cases hcreate
      refine .inr ⟨_, _, _, _, _, _, _, _, rfl, rfl, rfl, rfl, rfl, fun row hrow heq => hnew ?_⟩
      exact List.any_eq_true.mpr ⟨row, hrow, by rw [heq]; exact beq_self_eq_true _⟩
  · cases stored <;> trivial

theorem deleteCustomerAccount_stores (user : PublicKey) (tenant : TenantId) (r : LinkWork) :
    (deleteCustomerAccount user tenant).Does (StoresLink r) := by
  have hread : ∀ {α : Type} {l : Stmt}, l ≠ .createMagicLink → ∀ f : State → α,
      (Prog.read l f : Prog Stmt State RepositoryError α).Does (StoresLink r) :=
    fun hl f => .read (fun s h => absurd h hl) f
  refine .bind (hread (by decide) _) fun _ => .bind (hread (by decide) _) fun _ =>
    .bind (hread (by decide) _) fun _ =>
    .bind (hread (by decide) _) fun _ => .bind (hread (by decide) _) fun _ =>
      .bind (hread (by decide) _) fun _ =>
    .bind (hread (by decide) _) fun _ => .bind (inTransaction_does fun s h => ?_) fun _ => trivial
  cases h

theorem verifyMagicLink_stores {inst : InstanceId} {tenant : TenantId} {drawn : GrantDrawn}
    {generated : Keys}
    {approved : Option PublicKey} {policyId : RowId} {req : VerifyMagicLinkRequest} (r : LinkWork) :
    (verifyMagicLink w inst tenant drawn generated approved policyId req).Does (StoresLink r) := by
  refine (verifyMagicLink_does inst drawn generated approved policyId).mono fun l s s' h hl => ?_
  subst hl
  rcases h.1 with h | h <;> cases h

theorem performLink_stores (r : LinkWork) :
    (performLink w r).Meets (fun l _ s s' => StoresLink r l s s') (fun _ _ => True) [] := by
  have hdoes : (performLink w r).Does (StoresLink r) := by
    cases r with
    | deleteCustomer user tenant =>
      exact .bind (.mapErr (deleteCustomerAccount_stores user tenant _)) fun _ => trivial
    | sendLink => exact .bind (.mapErr sendLink_stores) fun _ => trivial
    | verify => exact .bind (.mapErr (verifyMagicLink_stores _)) fun _ => trivial
  exact hdoes.meets (fun h => h) fun _ _ _ => trivial

end Moves

/-! ## Links of an hour -/

section Hours

variable {tenant : TenantId} {email : String} {a : Timestamp}

/-- The links of the address that were stored in the hour from `a` on, as far as they are there. -/
def storedIn (rows : List MagicLinkToken) (tenant : TenantId) (email : String)
    (a : Timestamp) : Nat :=
  rows.countP fun l => l.tenantId == tenant && l.email == email && inHour a l.createdAt

theorem inHour_iff {t : Timestamp} : inHour a t = true ↔ a ≤ t ∧ t ≤ a + hours 1 := by
  unfold inHour
  rw [Bool.and_eq_true, decide_eq_true_eq, decide_eq_true_eq]

/-- Those of an hour that has not passed are counted. -/
theorem storedIn_le_recent (db : Db) (tenant : TenantId) (email : String) {now : Timestamp}
    (h : now ≤ a + hours 1) :
    storedIn db.magicLinkTokens tenant email a ≤
      db.countRecentLinks tenant email (now - hours 1) := by
  refine List.countP_mono_left fun l _ hl => ?_
  rw [Bool.and_eq_true, Bool.and_eq_true, inHour_iff] at hl
  rw [Bool.and_eq_true, Bool.and_eq_true, decide_eq_true_eq]
  exact ⟨hl.1, Int.le_trans (Int.sub_right_le_of_le_add h) hl.2.1⟩

/-- Links that are older do not matter to it. -/
theorem storedIn_filter {rows : List MagicLinkToken} {now : Timestamp} (h : now ≤ a + hours 1)
    {gone : MagicLinkToken → Bool}
    (hold : ∀ l ∈ rows, gone l = true → l.createdAt < now - hours 1) :
    storedIn (rows.filter fun l => !gone l) tenant email a = storedIn rows tenant email a := by
  unfold storedIn
  rw [List.countP_filter]
  refine List.countP_congr fun l hl => ?_
  simp only [Bool.and_eq_true, Bool.not_eq_true', inHour_iff]
  refine ⟨fun hboth => hboth.1, fun hin => ⟨hin, ?_⟩⟩
  by_contra hgone
  have hbefore := hold l hl (by simpa using hgone)
  exact absurd (Int.le_trans (Int.sub_right_le_of_le_add h) hin.2.1) (Int.not_le.mpr hbefore)

theorem storedIn_updateWhere (rows : List MagicLinkToken) (p : MagicLinkToken → Bool)
    (now : Timestamp) :
    storedIn (updateWhere p (fun l => { l with consumedAt := some now }) rows) tenant email a =
      storedIn rows tenant email a := by
  unfold storedIn updateWhere
  rw [List.countP_map]
  refine List.countP_congr fun l _ => ?_
  simp only [Function.comp]
  split <;> exact Iff.rfl

theorem storedIn_append (rows : List MagicLinkToken) (row : MagicLinkToken) :
    storedIn (rows ++ [row]) tenant email a = storedIn rows tenant email a +
      if row.tenantId == tenant && row.email == email && inHour a row.createdAt then 1 else 0 := by
  unfold storedIn
  rw [List.countP_append, List.countP_singleton]

/-- A step that stores nothing. -/
theorem storedLinks_eq_nil {before after : Db}
    (h : ∀ l ∈ after.magicLinkTokens, ∃ r ∈ before.magicLinkTokens, r.tokenHash = l.tokenHash) :
    storedLinks before after = [] := by
  unfold storedLinks
  rw [List.map_eq_nil_iff, List.filter_eq_nil_iff]
  intro l hl hnew
  obtain ⟨r, hr, heq⟩ := h l hl
  have hne := List.all_eq_true.mp hnew r hr
  rw [heq] at hne
  simp at hne

theorem storedLinks_append {before after : Db} {row : MagicLinkToken}
    (h : after.magicLinkTokens = before.magicLinkTokens ++ [row])
    (hnew : ∀ r ∈ before.magicLinkTokens, r.tokenHash ≠ row.tokenHash) :
    storedLinks before after = [linkKey row] := by
  have hold : (before.magicLinkTokens.filter fun l =>
      before.magicLinkTokens.all fun r => r.tokenHash != l.tokenHash) = [] := by
    rw [List.filter_eq_nil_iff]
    intro l hl hall
    have hne := List.all_eq_true.mp hall l hl
    simp at hne
  have hrow : (before.magicLinkTokens.all fun r => r.tokenHash != row.tokenHash) = true :=
    List.all_eq_true.mpr fun r hr => by simpa using hnew r hr
  unfold storedLinks
  rw [h, List.filter_append, hold, List.nil_append, List.filter_singleton, hrow]
  rfl

end Hours

/-! ## Every run -/

section Run

variable {w : Web} {x : MailWorld}

/-- What holds of the log: what went out in an hour that has not passed is still there to be
counted. -/
structure MailWorld.Sound (w : Web) (x : MailWorld) : Prop where
  moves : System.Meets (LinkMove w) (fun _ _ _ => True) x.pool
  stores : System.Meets (fun r l _ s s' => StoresLink r l s s') (fun _ _ _ => True) x.pool
  counted : ∀ tenant email a, x.state.now ≤ a + hours 1 →
    mailedIn x tenant email a ≤ storedIn x.state.db.magicLinkTokens tenant email a
  limit : LimitKept x

/-- A step that sends nothing and takes no link of the last hour away. -/
theorem MailWorld.Sound.quiet {pool : LinkPool} (h : MailWorld.Sound w x)
    (hmoves : System.Meets (LinkMove w) (fun _ _ _ => True) pool)
    (hstores : System.Meets (fun r l _ s s' => StoresLink r l s s') (fun _ _ _ => True) pool)
    (hnow : x.state.now ≤ pool.state.now)
    (hcounted : ∀ tenant email a, x.state.now ≤ a + hours 1 →
      storedIn pool.state.db.magicLinkTokens tenant email a =
        storedIn x.state.db.magicLinkTokens tenant email a) :
    MailWorld.Sound w { pool, mailed := x.mailed } where
  moves := hmoves
  stores := hstores
  counted tenant email a ha := by
    have hbefore : x.state.now ≤ a + hours 1 := Int.le_trans hnow ha
    show _ ≤ storedIn pool.state.db.magicLinkTokens tenant email a
    rw [hcounted tenant email a hbefore]
    exact h.counted tenant email a hbefore
  limit := h.limit

/-- A link is stored, and goes out. -/
theorem MailWorld.Sound.mailed {pool : LinkPool} {row : MagicLinkToken} (h : MailWorld.Sound w x)
    (hmoves : System.Meets (LinkMove w) (fun _ _ _ => True) pool)
    (hstores : System.Meets (fun r l _ s s' => StoresLink r l s s') (fun _ _ _ => True) pool)
    (hnow : pool.state.now = x.state.now) (hcreated : row.createdAt = x.state.now)
    (hrows : pool.state.db.magicLinkTokens = x.state.db.magicLinkTokens ++ [row])
    (hbelow : x.state.db.countRecentLinks row.tenantId row.email (x.state.now - hours 1) <
      emailHourlyLimit) :
    MailWorld.Sound w { pool, mailed := x.mailed ++ [(x.state.now, linkKey row)] } := by
  have hmailed : ∀ tenant email a,
      mailedIn { pool, mailed := x.mailed ++ [(x.state.now, linkKey row)] } tenant email a =
        mailedIn x tenant email a +
        if row.tenantId == tenant && row.email == email && inHour a row.createdAt then
          1 else 0 := by
    intro tenant email a
    unfold mailedIn
    rw [List.countP_append, List.countP_singleton, hcreated]
    rfl
  refine ⟨hmoves, hstores, fun tenant email a ha => ?_, fun tenant email a => ?_⟩
  · show _ ≤ storedIn pool.state.db.magicLinkTokens tenant email a
    rw [hmailed, hrows, storedIn_append]
    have ha : pool.state.now ≤ a + hours 1 := ha
    rw [hnow] at ha
    exact Nat.add_le_add_right (h.counted tenant email a ha) _
  · rw [hmailed]
    split
    · next hin =>
      -- the hour of the new link has not passed, so all that went out in it is counted
      rw [Bool.and_eq_true, Bool.and_eq_true, beq_iff_eq, beq_iff_eq, inHour_iff, hcreated] at hin
      obtain ⟨⟨rfl, rfl⟩, -, ha⟩ := hin
      have hcounted := h.counted row.tenantId row.email a ha
      have hrecent := storedIn_le_recent x.state.db row.tenantId row.email ha
      omega
    · exact h.limit tenant email a

theorem MailWorld.Sound.meets_step (h : MailWorld.Sound w x) (e : LinkEvent) :
    System.Meets (LinkMove w) (fun _ _ _ => True) ((linkSystem w).step x.pool e) ∧
      System.Meets (fun r l _ s s' => StoresLink r l s s') (fun _ _ _ => True)
        ((linkSystem w).step x.pool e) :=
  ⟨System.meets_step performLink_meets e h.moves, System.meets_step performLink_stores e h.stores⟩

/-- A step of a server that sends nothing. -/
theorem MailWorld.Sound.silent (h : MailWorld.Sound w x) {e : LinkEvent}
    (hhashes : ∀ l ∈ ((linkSystem w).step x.pool e).state.db.magicLinkTokens,
      ∃ r ∈ x.state.db.magicLinkTokens, r.tokenHash = l.tokenHash)
    (hnow : x.state.now ≤ ((linkSystem w).step x.pool e).state.now)
    (hcounted : ∀ tenant email a, x.state.now ≤ a + hours 1 →
      storedIn ((linkSystem w).step x.pool e).state.db.magicLinkTokens tenant email a =
        storedIn x.state.db.magicLinkTokens tenant email a) : MailWorld.Sound w (mailStep w x
          (.pool e)) := by
  unfold mailStep
  dsimp only
  rw [storedLinks_eq_nil hhashes, List.map_nil, List.append_nil]
  exact h.quiet (h.meets_step e).1 (h.meets_step e).2 hnow hcounted

/-- One that leaves the links alone. -/
theorem MailWorld.Sound.idle (h : MailWorld.Sound w x) {e : LinkEvent}
    (hnow : x.state.now ≤ ((linkSystem w).step x.pool e).state.now)
    (hlinks : ((linkSystem w).step x.pool e).state.db.magicLinkTokens =
      x.state.db.magicLinkTokens) :
    MailWorld.Sound w (mailStep w x (.pool e)) :=
  h.silent (fun l hl => ⟨l, hlinks ▸ hl, rfl⟩) hnow fun _ _ _ _ => by rw [hlinks]

theorem MailWorld.Sound.exec (h : MailWorld.Sound w x) {i : Nat}
    (hok : CountsAll x (.pool (.exec i))) :
    MailWorld.Sound w (mailStep w x (.pool (.exec i))) := by
  rcases h.moves.exec_cases (linkSystem w) i with ⟨hsame, -⟩ | ⟨t, l, ht, hl, hmove⟩
  · exact h.idle (Int.le_of_eq (by rw [hsame])) (by rw [hsame])
  have hcond := hok t ht l hl
  cases l with
  | createMagicLink =>
    rcases h.stores.exec (linkSystem w) ht hl rfl with hsame |
      ⟨tenant, ipAllowed, windowAllowed, email, token, page, purpose, row, hreq, rfl, rfl,
        hcreated, hstate, hnew⟩
    · exact h.idle (Int.le_of_eq (by rw [hsame])) (by rw [hsame])
    · rw [hreq] at hcond
      have hrows : ((linkSystem w).step x.pool (.exec i)).state.db.magicLinkTokens =
          x.state.db.magicLinkTokens ++ [row] := by rw [hstate]; rfl
      unfold mailStep
      dsimp only
      rw [storedLinks_append hrows hnew]
      exact h.mailed (h.meets_step _).1 (h.meets_step _).2 (by rw [hstate]; rfl) hcreated hrows
        (of_decide_eq_true hcond)
  | commitDeletion user tenant links =>
    rcases hmove with hsame | ⟨hnow, -, hlinks⟩
    · exact h.idle (Int.le_of_eq hsame.now.symm) hsame.links
    · refine h.silent (fun l hl => ?_) (Int.le_of_eq hnow.symm) fun tenant' email a ha => ?_
      · rw [hlinks] at hl
        exact ⟨l, List.mem_of_mem_filter hl, rfl⟩
      · rw [hlinks]
        refine storedIn_filter ha fun l hl hdeleted => ?_
        have hold := List.all_eq_true.mp hcond l hl
        rw [hdeleted, Bool.not_true, Bool.false_or] at hold
        exact of_decide_eq_true hold
  | consumeMagicLink =>
    obtain ⟨inst, tenant, drawn, generated, approved, policyId, req, -, hstate⟩ := hmove
    refine h.silent (fun l hl => ?_) (by rw [hstate]; exact Int.le_refl _)
      fun tenant' email a _ => ?_
    · rw [hstate] at hl
      rcases mem_updateWhere.mp hl with ⟨r, hr, -, rfl⟩ | ⟨hr, -⟩
      · exact ⟨r, hr, rfl⟩
      · exact ⟨l, hr, rfl⟩
    · rw [hstate]
      exact storedIn_updateWhere _ _ _
  | findOrCreatePasswordless =>
    rcases hmove with hsame | ⟨u, email, -, -, hnow, -, hlinks⟩
    · exact h.idle (Int.le_of_eq hsame.now.symm) hsame.links
    · exact h.idle (Int.le_of_eq hnow.symm) hlinks
  | _ => exact h.idle (Int.le_of_eq hmove.now.symm) hmove.links

theorem MailWorld.Sound.step (h : MailWorld.Sound w x) {e : MailEvent} (hok : CountsAll x e) :
    MailWorld.Sound w (mailStep w x e) := by
  cases e with
  | purgeExpired =>
    refine h.quiet h.moves h.stores (Int.le_refl _) fun tenant email a ha => ?_
    refine storedIn_filter ha fun l _ hold => Int.lt_of_lt_of_le (of_decide_eq_true hold) ?_
    exact Int.sub_le_sub_left (by decide) _
  | pool e =>
    cases e with
    | spawn r => exact h.idle (Int.le_refl _) rfl
    | env d => exact h.idle (Int.le_add_of_nonneg_right (Int.natCast_nonneg d)) rfl
    | exec i => exact h.exec hok

theorem MailWorld.Sound.start (s : State) : MailWorld.Sound w (.start s) where
  moves t ht := absurd ht (by simp [MailWorld.start, Conf.init])
  stores t ht := absurd ht (by simp [MailWorld.start, Conf.init])
  counted _ _ _ _ := Nat.zero_le _
  limit _ _ _ := Nat.zero_le _

/-- **The hourly limit holds** in every run in which the count is right. -/
theorem link_limit_holds (w : Web) (s : State) (es : List MailEvent)
    (hok : Along (mailStep w) CountsAll (.start s) es) :
      LimitKept (run (mailStep w) (.start s) es) :=
  (run_invariant (I := MailWorld.Sound w) (fun _ _ h hok => h.step hok) (.start s) hok).limit

end Run

/-! A customer asks for five links, and a sixth is refused. After an hour the account is deleted,
and a link for a new one is sent. -/

def limitRows : Db where
  users := [{ pubkey := "p", tenantId := 1, email := some "p@example.com", emailVerified := true }]

/-- Thread `i` sends a link; without Redis nothing else is in its way. -/
def sending (i : Nat) (token : String) : List MailEvent :=
  [.pool (.spawn (.sendLink 1 true true "p@example.com" token "https://app.example" .signIn)),
    .pool (.exec i),
    .pool (.exec i)]

def fiveSent : List MailEvent :=
  sending 0 "a" ++ sending 1 "b" ++ sending 2 "c" ++ sending 3 "d" ++ sending 4 "e"

def deleting (i : Nat) : List MailEvent :=
  .pool (.spawn (.deleteCustomer "p" 1)) :: List.replicate 8 (.pool (.exec i))

def deletedLater : List MailEvent :=
  fiveSent ++ sending 5 "f" ++ [.pool (.env 3600000001)] ++ deleting 6 ++
    [.purgeExpired] ++ sending 7 "g"

theorem link_limit_holds_deletedLater :
    mailedIn (run (mailStep linkWeb) (.start (.boot limitRows 0)) deletedLater) 1
      "p@example.com" 0 = 5 ∧
      LimitKept (run (mailStep linkWeb) (.start (.boot limitRows 0)) deletedLater) :=
  ⟨by decide, link_limit_holds linkWeb _ _ (by decide)⟩

/-! When it is deleted at once, the sixth is sent. -/

def deletedBetween : List MailEvent := fiveSent ++ deleting 5 ++ sending 6 "f"

theorem link_limit_exceeded :
    ¬ LimitKept (run (mailStep linkWeb) (.start (.boot limitRows 0)) deletedBetween) :=
  fun h => absurd (h 1 "p@example.com" 0) (by decide)

end Keycast.Http
