import Keycast.Core.Schema
import Keycast.Http.MagicLink
import Keycast.Lib.Outbox

/-!
# `Http/Notices.lean` — the notices of deleted customers

`api/src/customer_deletion.rs` and `core/src/repositories/deletion_notice.rs`. When a customer
account is deleted, another server has to hear of it. The notice is written in the transaction of
the deletion; a task on every instance sends what is due, and deletes a notice once the other server
has answered.

Requests and delivery passes are interleaved statement by statement. A pass may find every answer,
and it may crash anywhere: then its thread is not executed any more. The table is an `Outbox` whose
messages are done when a pass has seen the answer, and `notices_account_for_deletions` is what that
comes to.

The invariant (`NoticeWorld.Sound`) is that of an outbox: the notices ever written are those of the
beginning and one for each deletion, each is still in the table or was answered, and none is done
that was not answered. A step leaves the rows alone, puts one in (`NoticeWorld.Sound.deletion`) or
takes out what was answered (`NoticeWorld.Sound.remove`); that a pass acknowledges only what it has
read and seen answered is what its program guarantees (`deliverNotices_meets`).
-/

set_option autoImplicit false

namespace Keycast

open Lib

namespace Db

/-- `DELIVERY_BATCH_SIZE`. -/
def deliveryBatchSize : Nat := 50

/-- `MAX_RETRY_DELAY_MINUTES`. -/
def maxRetryDelayMinutes : Int := 60

/-- `DeletionNoticeRepository::find_due`. -/
def findDue (db : Db) (now : Timestamp) (limit : Nat) : List DeletionNotice :=
  ((db.deletionNotices.filter fun n => decide (n.nextAttemptAt ≤ now)).mergeSort
    fun a b => decide (a.deletedAt ≤ b.deletedAt)).take limit

/-- `DeletionNoticeRepository::acknowledge`. -/
def acknowledge (db : Db) (id : RowId) : Db :=
  { db with deletionNotices := db.deletionNotices.filter fun n => n.id != id }

/-- `DeletionNoticeRepository::schedule_retry`. The delay is by what the pass has read, the count by
what is in the row. -/
def scheduleRetry (db : Db) (now : Timestamp) (notice : DeletionNotice) : Db :=
  let delay := min (2 ^ (max 0 (min notice.attempts 16)).toNat) maxRetryDelayMinutes
  let later (n : DeletionNotice) : DeletionNotice :=
    { n with attempts := n.attempts + 1, nextAttemptAt := now + seconds (60 * delay) }
  { db with deletionNotices := updateWhere (fun n => n.id == notice.id) later db.deletionNotices }

/-- What of a notice never changes: its id, and what is sent. -/
def noticeRows (db : Db) : List (RowId × PublicKey × Timestamp) :=
  db.deletionNotices.map fun n => (n.id, n.pubkey, n.deletedAt)

theorem noticeRows_acknowledge (db : Db) (id : RowId) :
    (db.acknowledge id).noticeRows = db.noticeRows.filter fun r => r.1 != id := by
  rw [noticeRows, noticeRows, acknowledge, List.filter_map]
  rfl

theorem noticeRows_scheduleRetry (db : Db) (now : Timestamp) (notice : DeletionNotice) :
    (db.scheduleRetry now notice).noticeRows = db.noticeRows := by
  unfold noticeRows scheduleRetry
  rw [map_updateWhere]
  exact fun _ => rfl

/-- A plain deletion writes no notice. -/
theorem deleteAccount_notices (db : Db) (pubkey : PublicKey) (tenant : TenantId) :
    (db.deleteAccount pubkey tenant).2.noticeRows = db.noticeRows ∧
      (db.deleteAccount pubkey tenant).2.noticeSeq = db.noticeSeq := by
  rcases hresult : db.deleteAccount pubkey tenant with ⟨e | r, db'⟩
  · obtain rfl := Prog.transaction_error hresult
    exact ⟨rfl, rfl⟩
  · obtain ⟨-, -, rfl, -⟩ := run_deleteAccountIn (Prog.transaction_ok.mp hresult)
    exact ⟨rfl, rfl⟩

/-- The deletion of a customer writes one notice if it commits, and none if it fails. -/
theorem deleteCustomerAccount_notices (db : Db) (now : Timestamp) (pubkey : PublicKey)
    (tenant : TenantId) :
    if (db.deleteCustomerAccount now pubkey tenant).1.isOk then
      (db.deleteCustomerAccount now pubkey tenant).2.noticeRows =
          db.noticeRows ++ [(db.noticeSeq + 1, pubkey, now)] ∧
        (db.deleteCustomerAccount now pubkey tenant).2.noticeSeq = db.noticeSeq + 1
    else (db.deleteCustomerAccount now pubkey tenant).2 = db := by
  rcases hresult : db.deleteCustomerAccount now pubkey tenant with ⟨e | r, db'⟩
  · exact Prog.transaction_error hresult
  · obtain ⟨-, -, rfl, -⟩ :=
      run_deleteAccountIn (run_deleteCustomerAccountIn (Prog.transaction_ok.mp hresult))
    refine ⟨?_, rfl⟩
    show (db.deletionNotices ++ [_]).map _ = _
    rw [List.map_append]
    rfl

end Db

namespace Http

/-! ## Delivery -/

/-- The loop of `deliver_due_notices`; `answered` says for which notices the other server answers
with success. What a failed delivery says is only logged. -/
def deliverNotices (answered : RowId → Bool) :
    Nat → List DeletionNotice → Prog Stmt State RepositoryError Nat
  | acknowledged, [] => return acknowledged
  | acknowledged, notice :: rest => do
    .write (.sendNotice notice.pubkey notice.deletedAt (answered notice.id)) id
    if answered notice.id then
      .write (.acknowledge notice.id) fun s => s.withDb (s.db.acknowledge notice.id)
      deliverNotices answered (acknowledged + 1) rest
    else
      .write (.scheduleRetry notice.id) fun s => s.withDb (s.db.scheduleRetry s.now notice)
      deliverNotices answered acknowledged rest

/-- `deliver_due_notices`. -/
def deliverDueNotices (answered : RowId → Bool) : Prog Stmt State RepositoryError Nat := do
  let due ← .read .findDue fun s => s.db.findDue s.now Db.deliveryBatchSize
  deliverNotices answered 0 due

/-! ## The system -/

inductive NoticeWork
  | deleteAccount (inst : InstanceId) (headers : Headers) (tenant : TenantId)
  | deliver (answered : RowId → Bool)
  | verifyMagicLink (inst : InstanceId) (tenant : TenantId) (drawn : GrantDrawn) (generated : Keys)
      (approved : Option PublicKey) (policyId : RowId) (req : VerifyMagicLinkRequest)

inductive NoticeError
  | auth (e : AuthError)
  | repository (e : RepositoryError)

def performNotice (w : Web) : NoticeWork → Prog Stmt State NoticeError Unit
  | .deleteAccount inst headers tenant => do
    let _ ← (deleteAccount w inst headers tenant).mapErr .auth
    return ()
  | .deliver answered => do
    let _ ← (deliverDueNotices answered).mapErr .repository
    return ()
  | .verifyMagicLink inst tenant drawn generated approved policyId req => do
    let _ ← (verifyMagicLink w inst tenant drawn generated approved policyId req).mapErr .auth
    return ()

/-- Beside the requests time passes, a transaction that is rolled back leaves a gap in the sequence,
and whatever else the servers do may change every other table. -/
inductive NoticeEnv
  | tick (d : Nat)
  | gap (n : Nat)
  | others (db : Db)

def noticeEnv : NoticeEnv → State → State
  | .tick d, s => { s with now := s.now + d }
  | .gap n, s => s.withDb { s.db with noticeSeq := s.db.noticeSeq + n }
  | .others db, s =>
    s.withDb { db with deletionNotices := s.db.deletionNotices, noticeSeq := s.db.noticeSeq }

def noticeSystem (w : Web) : System NoticeWork Stmt State NoticeError Unit NoticeEnv where
  prog := performNotice w
  env := noticeEnv

abbrev NoticePool := Conf NoticeWork Stmt State NoticeError Unit
abbrev NoticeEvent := Ev NoticeWork NoticeEnv

/-- The deletion of a customer account that a step commits, with its time. -/
def committed (w : Web) (c : NoticePool) : NoticeEvent → List (PublicKey × Timestamp)
  | .exec i =>
    match (c.threads[i]?).bind Thread.next? with
    | some (.deleteAccount user tenant) =>
      if w.customerTenant = some tenant ∧
        (deletion w c.state.now c.state.db user tenant).1.isOk then
        [(user, c.state.now)]
      else []
    | _ => []
  | _ => []

/-- The servers, with the customer accounts that were deleted so far. -/
structure NoticeWorld where
  pool : NoticePool
  deletions : List (PublicKey × Timestamp) := []

def noticeStep (w : Web) (x : NoticeWorld) (e : NoticeEvent) : NoticeWorld where
  pool := (noticeSystem w).step x.pool e
  deletions := x.deletions ++ committed w x.pool e

/-- A pass was answered with success when it sent this. -/
def NoticeWorld.Answered (x : NoticeWorld) (sent : PublicKey × Timestamp) : Prop :=
  ∃ t ∈ x.pool.threads, ∃ s, (Stmt.sendNotice sent.1 sent.2 true, s) ∈ t.seen

/-! ## What the statements do to the table -/

/-- The table and its sequence stay as they are, up to what `schedule_retry` sets. -/
def SameNotices (s s' : State) : Prop :=
  s'.db.noticeRows = s.db.noticeRows ∧ s'.db.noticeSeq = s.db.noticeSeq

/-- An acknowledgement comes after the answer, for a notice that the pass has read. -/
def NoticesMove (w : Web) : Stmt → List (Stmt × State) → State → State → Prop
  | .deleteAccount user tenant, _, s, s' => s'.db = (deletion w s.now s.db user tenant).2
  | .acknowledge id, seen, s, s' =>
    s'.db = s.db.acknowledge id ∧ ∃ n s₀ s₁, (Stmt.findDue, s₀) ∈ seen ∧ n ∈ s₀.db.deletionNotices ∧
      n.id = id ∧ (Stmt.sendNotice n.pubkey n.deletedAt true, s₁) ∈ seen
  | _, _, s, s' => SameNotices s s'

def Stmt.keepsNotices : Stmt → Bool
  | .deleteAccount .. | .acknowledge .. => false
  | _ => true

/-- A statement that has nothing to do with notices. -/
def NoticeQuiet (l : Stmt) (s s' : State) : Prop := l.keepsNotices = true ∧ SameNotices s s'

section Moves

variable {w : Web} {tenant : TenantId}

theorem SameNotices.refl (s : State) : SameNotices s s := ⟨rfl, rfl⟩

theorem NoticeQuiet.move {l : Stmt} {seen : List (Stmt × State)} {s s' : State}
    (h : NoticeQuiet l s s') :
    NoticesMove w l seen s s' := by
  cases l with
  | deleteAccount | acknowledge => cases h.1
  | _ => exact h.2

theorem GrantMove.noticeQuiet (l : Stmt) (s s' : State) (h : GrantMove l s s') :
    NoticeQuiet l s s' := by
  refine ⟨?_, ?_, ?_⟩
  · cases l with
    | deleteAccount | acknowledge => cases h.1
    | _ => rfl
  · rw [h.2.db]
    rfl
  · rw [h.2.db]

theorem read_quiet {ε α : Type} {l : Stmt} (hl : l.keepsNotices = true) (f : State → α) :
    (Prog.read l f : Prog Stmt State ε α).Does NoticeQuiet :=
  .read (fun s => ⟨hl, .refl s⟩) f

theorem VisitMove.noticeQuiet {req : VerifyMagicLinkRequest} (l : Stmt) (s s' : State)
    (h : VisitMove w tenant req l s s') : NoticeQuiet l s s' := by
  cases l with
  | consumeMagicLink =>
    obtain rfl : s' = _ := h
    exact ⟨rfl, rfl, rfl⟩
  | findOrCreatePasswordless =>
    rcases h with rfl | ⟨_, _, _, _, db, hcreate, rfl⟩
    · exact ⟨rfl, .refl _⟩
    · rcases Db.findOrCreatePasswordless_eq hcreate with ⟨-, rfl⟩ | ⟨-, -, -, rfl⟩
      · exact ⟨rfl, .refl s⟩
      · exact ⟨rfl, rfl, rfl⟩
  | findPubkeyByEmail => exact ⟨rfl, by rw [h.2.db]; rfl, by rw [h.2.db]⟩
  | _ => exact GrantMove.noticeQuiet _ s s' ⟨h.1.resolve_left (fun hl => nomatch hl), h.2⟩

theorem invalidateBunkers_quiet {ε : Type} (inst : InstanceId) (bs : List PublicKey) :
    (invalidateBunkers w inst bs : Prog Stmt State ε Unit).Does NoticeQuiet := by
  induction bs with
  | nil => trivial
  | cons b bs ih => exact .bind (.write fun s => ⟨rfl, rfl, rfl⟩) fun _ => ih

theorem sendRemoves_quiet {ε : Type} (bs : List PublicKey) :
    (sendRemoves bs : Prog Stmt State ε Unit).Does NoticeQuiet := by
  induction bs with
  | nil => trivial
  | cons b bs ih => exact .bind (.write fun s => ⟨rfl, .refl s⟩) fun _ => ih

/-- A deletion that any history allows. -/
theorem deleteAccount_moves (inst : InstanceId) (headers : Headers) :
    (deleteAccount w inst headers tenant).Does fun l s s' => ∀ seen, NoticesMove w l seen s s' := by
  have hquiet : ∀ (l : Stmt) (s s' : State), NoticeQuiet l s s' →
    ∀ seen, NoticesMove w l seen s s' :=
    fun l s s' h seen => h.move
  refine .bind (.ofExcept _) fun header => .bind ((read_quiet rfl _).mono hquiet) fun now =>
    .bind (.ofExcept _) fun ⟨user, _⟩ => .bind (.ofExcept _) fun _ =>
      .bind (inTransaction_does fun s seen => ?_)
    fun result => .bind ((invalidateBunkers_quiet inst _).mono hquiet) fun _ =>
    .bind ((sendRemoves_quiet _).mono hquiet) fun _ => trivial
  exact rfl

/-- A pass acknowledges what it has read and sent, and only when it was answered. -/
theorem deliverNotices_meets {answered : RowId → Bool} {notices : List DeletionNotice}
    {acknowledged : Nat}
    {seen : List (Stmt × State)}
    (hread : ∀ n ∈ notices, ∃ s₀, (Stmt.findDue, s₀) ∈ seen ∧ n ∈ s₀.db.deletionNotices) :
    (deliverNotices answered acknowledged notices).Meets (NoticesMove w)
      (fun _ _ => True) seen := by
  induction notices generalizing acknowledged seen with
  | nil => trivial
  | cons n rest ih =>
    have hrest : ∀ (x y : Stmt × State), ∀ n ∈ rest,
        ∃ s₀, (Stmt.findDue, s₀) ∈ y :: x :: seen ∧ n ∈ s₀.db.deletionNotices := by
      intro x y m hm
      obtain ⟨s₀, hs₀, hmem⟩ := hread m (List.mem_cons_of_mem _ hm)
      exact ⟨s₀, List.mem_cons_of_mem _ (List.mem_cons_of_mem _ hs₀), hmem⟩
    refine .write fun s₁ => ⟨.refl s₁, ?_⟩
    split
    · next hanswered =>
      refine .write fun s₂ => ⟨⟨rfl, ?_⟩, ih (hrest _ _)⟩
      obtain ⟨s₀, hs₀, hmem⟩ := hread n List.mem_cons_self
      refine ⟨n, s₀, s₁, List.mem_cons_of_mem _ hs₀, hmem, rfl, ?_⟩
      rw [hanswered]
      exact List.mem_cons_self
    · refine .write fun s₂ => ⟨⟨?_, rfl⟩, ih (hrest _ _)⟩
      exact Db.noticeRows_scheduleRetry s₂.db s₂.now n

theorem deliverDueNotices_meets (answered : RowId → Bool) :
    (deliverDueNotices answered).Meets (NoticesMove w) (fun _ _ => True) [] := by
  refine .read (fun s => .refl s) fun s => deliverNotices_meets fun n hn =>
    ⟨s, List.mem_cons_self, ?_⟩
  exact (List.mem_filter.mp (List.mem_mergeSort.mp (List.mem_of_mem_take hn))).1

end Moves

/-! ## Runs -/

theorem performNotice_meets {w : Web} (r : NoticeWork) :
    (performNotice w r).Meets (NoticesMove w) (fun _ _ => True) [] := by
  cases r with
  | deleteAccount inst headers tenant =>
    have hdoes : (performNotice w (.deleteAccount inst headers tenant)).Does
        fun l s s' => ∀ seen, NoticesMove w l seen s s' :=
      .bind (.mapErr (deleteAccount_moves inst headers)) fun _ => trivial
    exact hdoes.meets (fun h => h _) fun _ _ _ => trivial
  | deliver answered =>
    refine .bind (.mapErr ((deliverDueNotices_meets answered).mono fun seen r _ => ?_))
    cases r <;> trivial
  | verifyMagicLink inst tenant drawn generated approved policyId req =>
    have hdoes :
      (performNotice w (.verifyMagicLink inst tenant drawn generated approved policyId req)).Does
        NoticeQuiet :=
      .bind (.mapErr
        ((verifyMagicLink_does inst drawn generated approved policyId).mono VisitMove.noticeQuiet))
        fun _ => trivial
    exact hdoes.meets NoticeQuiet.move fun _ _ _ => trivial

/-- The invariant of a run that began with these rows. -/
structure NoticeWorld.Sound (w : Web) (start : List (RowId × PublicKey × Timestamp))
    (x : NoticeWorld)
    (written : List (RowId × PublicKey × Timestamp)) : Prop where
  meets : System.Meets (fun _ => NoticesMove w) (fun _ _ _ => True) x.pool
  outbox : Outbox.Sound x.Answered ⟨written, x.pool.state.db.noticeRows⟩
  deletions : written.map Prod.snd = start.map Prod.snd ++ x.deletions
  drawn : ∀ r ∈ written, r.1 ≤ x.pool.state.db.noticeSeq
  seen : ∀ t ∈ x.pool.threads, ∀ p ∈ t.seen, p.2.db.noticeRows ⊆ written

section Runs

variable {w : Web} {start written : List (RowId × PublicKey × Timestamp)} {x : NoticeWorld}

theorem NoticeWorld.Answered.step {sent : PublicKey × Timestamp} (h : x.Answered sent)
    (e : NoticeEvent) :
    (noticeStep w x e).Answered sent := by
  obtain ⟨t, ht, s, hs⟩ := h
  obtain ⟨t', ht', -, hseen⟩ := System.seen_kept (noticeSystem w) e ht
  exact ⟨t', ht', s, hseen hs⟩

theorem NoticeWorld.Sound.seen_step (h : x.Sound w start written) (e : NoticeEvent) :
    ∀ t ∈ (noticeStep w x e).pool.threads, ∀ p ∈ t.seen, p.2.db.noticeRows ⊆ written := by
  intro t ht p hp
  rcases System.seen_step (noticeSystem w) ht hp with ⟨t₀, ht₀, hp⟩ | hnow
  · exact h.seen t₀ ht₀ p hp
  · rw [hnow]
    exact h.outbox.table.subset

/-- A step that leaves the rows alone. -/
theorem NoticeWorld.Sound.same (h : x.Sound w start written) {e : NoticeEvent}
    (hrows : (noticeStep w x e).pool.state.db.noticeRows = x.pool.state.db.noticeRows)
    (hseq : x.pool.state.db.noticeSeq ≤ (noticeStep w x e).pool.state.db.noticeSeq)
    (hnone : committed w x.pool e = []) : (noticeStep w x e).Sound w start written where
  meets := System.meets_step performNotice_meets e h.meets
  outbox := by
    rw [hrows]
    exact h.outbox.mono fun _ hm => hm.step e
  deletions := by
    show written.map Prod.snd = start.map Prod.snd ++ (x.deletions ++ committed w x.pool e)
    rw [hnone, List.append_nil]
    exact h.deletions
  drawn r hr := Int.le_trans (h.drawn r hr) hseq
  seen := h.seen_step e

/-- A deletion that commits puts one notice in. -/
theorem NoticeWorld.Sound.put (h : x.Sound w start written) {e : NoticeEvent} {user : PublicKey}
    (hrows : (noticeStep w x e).pool.state.db.noticeRows =
      x.pool.state.db.noticeRows ++ [(x.pool.state.db.noticeSeq + 1, user, x.pool.state.now)])
    (hseq : (noticeStep w x e).pool.state.db.noticeSeq = x.pool.state.db.noticeSeq + 1)
    (hone : committed w x.pool e = [(user, x.pool.state.now)]) :
    (noticeStep w x e).Sound w start
      (written ++ [(x.pool.state.db.noticeSeq + 1, user, x.pool.state.now)]) where
  meets := System.meets_step performNotice_meets e h.meets
  outbox := by
    rw [hrows]
    refine (h.outbox.mono fun _ hm => hm.step e).put fun hold => ?_
    obtain ⟨r, hr, hid⟩ := List.mem_map.mp hold
    have hdrawn := h.drawn r hr
    rw [hid] at hdrawn
    exact absurd hdrawn (Int.not_le.mpr (Int.lt_add_one_of_le (Int.le_refl _)))
  deletions := by
    show _ = start.map Prod.snd ++ (x.deletions ++ committed w x.pool e)
    rw [hone, List.map_append, h.deletions, List.append_assoc]
    rfl
  drawn r hr := by
    rw [hseq]
    rcases List.mem_append.mp hr with hr | hr
    · exact Int.le_of_lt (Int.lt_add_one_of_le (h.drawn r hr))
    · exact Int.le_of_eq (by rw [List.mem_singleton.mp hr])
  seen t ht p hp := List.Subset.trans (h.seen_step e t ht p hp) (List.subset_append_left _ _)

/-- An acknowledgement takes out what was answered. -/
theorem NoticeWorld.Sound.remove (h : x.Sound w start written) {e : NoticeEvent} {id : RowId}
    {sent : PublicKey × Timestamp} (hwritten : (id, sent) ∈ written) (hanswered : x.Answered sent)
    (hdb : (noticeStep w x e).pool.state.db = x.pool.state.db.acknowledge id)
    (hnone : committed w x.pool e = []) : (noticeStep w x e).Sound w start written where
  meets := System.meets_step performNotice_meets e h.meets
  outbox := by
    rw [hdb, Db.noticeRows_acknowledge]
    exact (h.outbox.mono fun _ hm => hm.step e).remove hwritten (hanswered.step e)
  deletions := by
    show written.map Prod.snd = start.map Prod.snd ++ (x.deletions ++ committed w x.pool e)
    rw [hnone, List.append_nil]
    exact h.deletions
  drawn r hr := by
    rw [hdb]
    exact h.drawn r hr
  seen := h.seen_step e

/-- The transaction of a deletion, which commits or not. -/
theorem NoticeWorld.Sound.deletion (h : x.Sound w start written) {i : Nat} {user : PublicKey}
    {tenant : TenantId}
    (hl : (x.pool.threads[i]?).bind Thread.next? = some (.deleteAccount user tenant))
    (hdb : (noticeStep w x (.exec i)).pool.state.db =
      (Http.deletion w x.pool.state.now x.pool.state.db user tenant).2) :
    ∃ written', (noticeStep w x (.exec i)).Sound w start written' := by
  have hcommitted : committed w x.pool (.exec i) =
      if w.customerTenant = some tenant ∧
        (Http.deletion w x.pool.state.now x.pool.state.db user tenant).1.isOk then
        [(user, x.pool.state.now)] else [] := by
    simp only [committed, hl]
  by_cases hcustomer : w.customerTenant = some tenant
  · have hnotices := Db.deleteCustomerAccount_notices x.pool.state.db x.pool.state.now user tenant
    have hdeletion : Http.deletion w x.pool.state.now x.pool.state.db user tenant =
        x.pool.state.db.deleteCustomerAccount x.pool.state.now user tenant := if_pos hcustomer
    rw [hdeletion] at hdb hcommitted
    split at hnotices
    · next hok =>
      rw [if_pos ⟨hcustomer, hok⟩] at hcommitted
      exact ⟨_, h.put (by rw [hdb, hnotices.1]) (by rw [hdb, hnotices.2]) hcommitted⟩
    · next hfailed =>
      rw [if_neg fun hboth => hfailed hboth.2] at hcommitted
      rw [hnotices] at hdb
      exact ⟨written, h.same (by rw [hdb]) (Int.le_of_eq (by rw [hdb])) hcommitted⟩
  · have hnotices := Db.deleteAccount_notices x.pool.state.db user tenant
    have hdeletion : Http.deletion w x.pool.state.now x.pool.state.db user tenant =
        x.pool.state.db.deleteAccount user tenant := if_neg hcustomer
    rw [if_neg fun hboth => hcustomer hboth.1] at hcommitted
    rw [hdeletion] at hdb
    exact ⟨written,
      h.same (by rw [hdb, hnotices.1]) (Int.le_of_eq (by rw [hdb, hnotices.2])) hcommitted⟩

/-- **One step.** -/
theorem NoticeWorld.Sound.step (h : x.Sound w start written) (e : NoticeEvent) :
    ∃ written', (noticeStep w x e).Sound w start written' := by
  cases e with
  | spawn r => exact ⟨written, h.same rfl (Int.le_refl _) rfl⟩
  | env d =>
    refine ⟨written, h.same ?_ ?_ rfl⟩
    · cases d <;> rfl
    · cases d with
      | tick d => exact Int.le_refl _
      | others db => exact Int.le_refl _
      | gap n => exact Int.le_add_of_nonneg_right (Int.natCast_nonneg n)
  | exec i =>
    cases hl : (x.pool.threads[i]?).bind Thread.next? with
    | none =>
      have hidle : (noticeStep w x (.exec i)).pool.state = x.pool.state :=
        System.exec_idle (noticeSystem w) hl
      refine ⟨written, h.same (by rw [hidle]) (Int.le_of_eq (by rw [hidle])) ?_⟩
      simp only [committed, hl]
    | some l =>
      obtain ⟨t, ht, hnext⟩ := Option.bind_eq_some_iff.mp hl
      have hmove : NoticesMove w l t.seen x.pool.state (noticeStep w x (.exec i)).pool.state :=
        h.meets.exec (noticeSystem w) ht hnext
      cases l with
      | deleteAccount user tenant => exact h.deletion hl hmove
      | acknowledge id =>
        obtain ⟨hdb, n, s₀, s₁, hs₀, hn, rfl, hs₁⟩ := hmove
        have hmem := List.mem_of_getElem? ht
        have hwritten : (n.id, n.pubkey, n.deletedAt) ∈ written :=
          h.seen t hmem _ hs₀ (List.mem_map_of_mem hn)
        refine ⟨written, h.remove hwritten ⟨t, hmem, s₁, hs₁⟩ hdb ?_⟩
        simp only [committed, hl]
      | _ =>
        refine ⟨written, h.same hmove.1 (Int.le_of_eq hmove.2.symm) ?_⟩
        simp only [committed, hl]

end Runs

/-- **Notices are neither lost nor invented.** In every state of every run, the notices ever written
are those of the beginning and one for each customer account whose deletion was committed, in this
order. The table holds some of them, none twice; and one that it does not hold was sent, with its
key and its time, by a pass that was answered with success. -/
theorem notices_account_for_deletions {w : Web} {s : State} (events : List NoticeEvent)
    (hkeys : (s.db.noticeRows.map Prod.fst).Nodup)
    (hdrawn : ∀ r ∈ s.db.noticeRows, r.1 ≤ s.db.noticeSeq) :
    ∃ written : List (RowId × PublicKey × Timestamp),
      written.map Prod.snd =
        s.db.noticeRows.map Prod.snd ++ (run (noticeStep w) { pool := .init s } events).deletions ∧
      (written.map Prod.fst).Nodup ∧
      (run (noticeStep w) { pool := .init s } events).pool.state.db.noticeRows.Sublist written ∧
      ∀ r ∈ written, r ∈ (run (noticeStep w) { pool := .init s } events).pool.state.db.noticeRows ∨
        (run (noticeStep w) { pool := .init s } events).Answered r.2 := by
  have hstart : NoticeWorld.Sound w s.db.noticeRows { pool := .init s } s.db.noticeRows :=
    ⟨(fun _ ht => nomatch ht), Outbox.sound_start hkeys, (List.append_nil _).symm, hdrawn,
      (fun _ ht => nomatch ht)⟩
  have hstep : ∀ (x : NoticeWorld) (e : NoticeEvent),
    (∃ written, x.Sound w s.db.noticeRows written) → True →
      ∃ written, (noticeStep w x e).Sound w s.db.noticeRows written := by
    rintro x e ⟨written, h⟩ -
    exact h.step e
  have hevery : Along (noticeStep w) (fun _ _ => True) { pool := .init s } events :=
    Along.of_forall (fun _ _ => trivial) _
  obtain ⟨written, h⟩ := run_invariant hstep ⟨_, hstart⟩ hevery
  exact ⟨written, h.deletions, h.outbox.keys, h.outbox.table, h.outbox.kept⟩

/-! A customer deletes the account. One pass crashes after it has sent the notice, another is not
answered, a third is. -/

def customer : Db where
  users := [{ pubkey := "p", tenantId := 1, email := some "p@example.com", emailVerified := true }]

def customerUcan : Ucan :=
  ⟨some "p", some "p", none,
    [.obj [("tenant_id", .int 1), ("redirect_origin", .str "https://app.example")]]⟩

def customerWeb : Web := { Web.symbolic [("own", customerUcan)] [] with customerTenant := some 1 }

def deletedAndSent : List NoticeEvent :=
  [.spawn (.deleteAccount 0 { authorization := some (some "Bearer own") } 1), .exec 0, .exec 0,
    .spawn (.deliver fun _ => true), .exec 1, .exec 1,
    .spawn (.deliver fun _ => false), .exec 2, .exec 2, .exec 2, .env (.tick 60000000)]

theorem notices_account_for_deletions_customer :
    (run (noticeStep customerWeb) { pool := .init (.boot customer 0) } deletedAndSent).deletions =
      [("p", 0)] ∧
    (run (noticeStep customerWeb) { pool := .init (.boot customer 0) }
      deletedAndSent).pool.state.db.noticeRows =
      [(1, "p", 0)] ∧
    ∃ written : List (RowId × PublicKey × Timestamp),
      written.map Prod.snd = [("p", 0)] ∧
        [((1 : RowId), "p", (0 : Timestamp))].Sublist written := by
  have hdeletions :
      (run (noticeStep customerWeb) { pool := .init (.boot customer 0) } deletedAndSent).deletions =
        [("p", 0)] := by
    decide +kernel
  have hrows :
      (run (noticeStep customerWeb) { pool := .init (.boot customer 0) }
        deletedAndSent).pool.state.db.noticeRows =
        [(1, "p", 0)] := by
    decide +kernel
  refine ⟨hdeletions, hrows, ?_⟩
  obtain ⟨written, hwritten, -, htable, -⟩ :=
    notices_account_for_deletions (w := customerWeb) (s := .boot customer 0) deletedAndSent
      (by decide) (by decide)
  rw [hdeletions] at hwritten
  rw [hrows] at htable
  exact ⟨written, hwritten, htable⟩

end Http

end Keycast
