import Keycast.Http.Teams
import Keycast.Lib.Histories
import Keycast.Lib.Ledger

/-!
# `Http/Acceptance.lean` — accepting an invitation

`accept_invitation` looks whether the invitation is open, makes the caller a member, and only then
marks the invitation, with a statement that asks again whether it is open. When it is not any more
(revoked, expired, or accepted by somebody else) the caller is told that the acceptance failed, and
stays a member.

`accepted_atomically_iff`: an acceptance is all or nothing in exactly the runs in which every
marking finds its invitation open. What has become of the invitations is kept by books, in which a
marking spends an open invitation: nothing reopens one, and an invitation that was withdrawn before
it was accepted stays unspent. Who becomes a member is read off the statements (`InvitationStep`):
only the insert of an acceptance moves the members, it adds its caller to the team of the row that
the request read first, and that row keeps its token, its team and its role (`offers`) whatever
happens to it in between.
-/

set_option autoImplicit false

namespace Keycast.Http

open Lib

variable {w : Web}

/-! ## Runs -/

inductive InvitationWork
  | accept (tenant : TenantId) (auth : UcanAuth) (token : String)
  | revoke (tenant : TenantId) (auth : UcanAuth) (team id : RowId)
  deriving DecidableEq, Repr

/-- The token of an acceptance. -/
def InvitationWork.token? : InvitationWork → Option String
  | .accept _ _ token => some token
  | .revoke .. => none

def performInvitation (w : Web) : InvitationWork → Prog Stmt State ApiError Unit
  | .accept tenant auth token => do
    let _ ← acceptInvitation w tenant auth token
    return ()
  | .revoke tenant auth team id => revokeInvitation w tenant auth team id

/-- Requests of any number of callers for any invitations; beside them only the clock moves. -/
def invitationSystem (w : Web) : System InvitationWork Stmt State ApiError Unit Nat where
  prog := performInvitation w
  env d s := { s with now := s.now + d }

abbrev InvitationPool := Conf InvitationWork Stmt State ApiError Unit
abbrev InvitationThread := Thread InvitationWork Stmt State ApiError Unit

/-! ## The property -/

/-- An invitation with the token can be accepted. -/
def openAt (token : String) (s : State) : Bool :=
  s.db.teamInvitations.any fun i => i.token == token && i.pending s.now

/-- The statement makes somebody a member. -/
def addsMember : Stmt → State → Bool
  | .addMember team user, s => (s.db.addMember team user .member).isOk
  | _, _ => false

/-- How often the statement marks the invitation. -/
def marks (token : String) : Stmt → State → Nat
  | .acceptInvitation t, s => if t = token ∧ openAt token s = true then 1 else 0
  | _, _ => 0

/-- The request has made its caller a member. -/
def Joined (seen : List (Stmt × State)) : Prop := ∃ x ∈ seen, addsMember x.1 x.2 = true

/-- It has marked the invitation. -/
def Marked (token : String) (seen : List (Stmt × State)) : Prop :=
  ∃ x ∈ seen, marks token x.1 x.2 = 1

/-- An acceptance of the invitation that has been answered. -/
def AnsweredFor (token : String) (t : InvitationThread) : Prop :=
  t.req.token? = some token ∧ t.result?.isSome = true

/-- The invitation was not accepted, and has been revoked or has expired. -/
def Withdrawn (token : String) (s : State) : Prop :=
  ∃ i ∈ s.db.teamInvitations, i.token = token ∧ i.acceptedAt = none ∧
    (i.revokedAt.isSome = true ∨ i.expiresAt ≤ s.now)

/-- The user becomes a member of the team of an invitation with the token, in the role it offers. -/
def Seats (token : String) (user : PublicKey) (s s' : State) : Prop :=
  ∃ i ∈ s.db.teamInvitations, i.token = token ∧ s.db.isMember i.teamId user = false ∧
    s'.db.teamUsers = s.db.teamUsers ++ [⟨i.teamId, user, i.role⟩]

/-- **What is asked of acceptances**, of a run from `s`. The last two fields say what it is to join:
the insert makes the caller a member of the invitation's team, and nothing else moves the
members. -/
structure AcceptedAtomically (w : Web) (s : State) (es : List (Ev InvitationWork Nat)) : Prop where
  atomic : ∀ t ∈ (run (invitationSystem w).step (.init s) es).threads, ∀ token,
    AnsweredFor token t →
    (Joined t.seen ↔ Marked token t.seen)
  withdrawn : ∀ token pre post, es = pre ++ post →
    Withdrawn token (run (invitationSystem w).step (.init s) pre).state →
    ∀ t ∈ (run (invitationSystem w).step (.init s) es).threads, AnsweredFor token t →
      ¬ Joined t.seen
  once : ∀ token (i j : Nat) (t u),
    (run (invitationSystem w).step (.init s) es).threads[i]? = some t →
    (run (invitationSystem w).step (.init s) es).threads[j]? = some u → AnsweredFor token t →
    AnsweredFor token u →
    Joined t.seen → Joined u.seen → i = j
  seated : ∀ (i : Nat) t, (run (invitationSystem w).step (.init s) es).threads[i]? = some t →
    ∀ x ∈ t.seen, addsMember x.1 x.2 = true → ∃ tenant auth token pre post,
      t.req = .accept tenant auth token ∧ es = pre ++ .exec i :: post ∧
        (run (invitationSystem w).step (.init s) pre).state = x.2 ∧
        Seats token auth.pubkey x.2
          (run (invitationSystem w).step (.init s) (pre ++ [.exec i])).state
  others : ∀ pre e post, es = pre ++ e :: post →
    (run (invitationSystem w).step (.init s) (pre ++ [e])).state.db.teamUsers =
        (run (invitationSystem w).step (.init s) pre).state.db.teamUsers ∨
      ∃ i t l, e = .exec i ∧ (run (invitationSystem w).step (.init s) es).threads[i]? = some t ∧
        (l, (run (invitationSystem w).step (.init s) pre).state) ∈ t.seen ∧
        addsMember l (run (invitationSystem w).step (.init s) pre).state = true

/-- The condition on a statement: a marking finds its invitation open. -/
def MarksOpen : Stmt → State → Prop
  | .acceptInvitation token, s => openAt token s = true
  | _, _ => True

instance MarksOpen.decidable : ∀ (l : Stmt) (s : State), Decidable (MarksOpen l s) := by
  intro l s
  cases l with
  | acceptInvitation token => exact inferInstanceAs (Decidable (_ = _))
  | _ => exact .isTrue trivial

/-- The token is unique. -/
def TokensUnique (s : State) : Prop := (s.db.teamInvitations.map (·.token)).Nodup

/-! ## What the requests do -/

/-- The invitation that the statement means to mark. -/
def marked? : Stmt → Option String
  | .acceptInvitation token => some token
  | _ => none

/-- The request has not come to mark an invitation. -/
def Unmarked (seen : List (Stmt × State)) : Prop := ∀ token s, (.acceptInvitation token, s) ∉ seen

/-- What a statement does to the invitations. -/
def InvitationsMove : Stmt → State → State → Prop
  | .acceptInvitation token, s, s' => ∃ user : PublicKey, s'.db.teamInvitations =
      updateWhere (fun i => i.token == token && i.pending s.now)
        (fun i => { i with acceptedAt := some s.now, acceptedBy := some user }) s.db.teamInvitations
  | .revokeInvitation, s, s' => s'.db.teamInvitations = s.db.teamInvitations ∨
      ∃ p : TeamInvitation → Bool, s'.db.teamInvitations =
        updateWhere p (fun i => { i with revokedAt := some s.now }) s.db.teamInvitations
  | _, s, s' => s'.db.teamInvitations = s.db.teamInvitations

/-- The insert of an acceptance, which goes by the row that the request read. -/
def SeatsCaller (r : InvitationWork) (seen : List (Stmt × State)) (s s' : State) : Prop :=
  ∃ tenant auth token s₁, r = .accept tenant auth token ∧ (.findInvitation, s₁) ∈ seen ∧
    ∃ i ∈ s₁.db.teamInvitations, i.token = token ∧ s.db.isMember i.teamId auth.pubkey = false ∧
      s'.db.teamUsers = s.db.teamUsers ++ [⟨i.teamId, auth.pubkey, i.role⟩]

/-- What a statement does, and when its request executes it. -/
structure InvitationStep (r : InvitationWork) (l : Stmt) (seen : List (Stmt × State))
    (s s' : State) : Prop where
  now : s'.now = s.now
  move : InvitationsMove l s s'
  unmarked : Unmarked seen
  marking : ∀ token, l = .acceptInvitation token → r.token? = some token ∧ Joined seen
  kept : addsMember l s = false → s'.db.teamUsers = s.db.teamUsers
  inserts : addsMember l s = true → SeatsCaller r seen s s'

/-- An acceptance that is answered has made a member if and only if it came to mark the
invitation. -/
def InvitationPost (r : InvitationWork) (seen : List (Stmt × State))
    (_ : Except ApiError Unit) : Prop :=
  ∀ token, r.token? = some token → (Joined seen ↔ ∃ s, (.acceptInvitation token, s) ∈ seen)

section Programs

variable {r : InvitationWork} {seen : List (Stmt × State)} {s s' : State}

/-- The request has neither made a member nor come to mark an invitation. -/
structure Idle (seen : List (Stmt × State)) : Prop where
  unmarked : Unmarked seen
  unjoined : ¬ Joined seen

theorem Idle.nil : Idle [] := by
  refine ⟨fun token s h => ?_, fun ⟨x, hx, _⟩ => ?_⟩
  · cases h
  · cases hx

theorem Unmarked.cons {l : Stmt} (hl : marked? l = none) (h : Unmarked seen) :
    Unmarked ((l, s) :: seen) := by
  intro token s₁ hmem
  rcases List.mem_cons.mp hmem with heq | hmem
  · cases heq
    cases hl
  · exact h token s₁ hmem

theorem Idle.cons {l : Stmt} (h : Idle seen) (hl : marked? l = none)
    (hadds : addsMember l s = false) :
    Idle ((l, s) :: seen) := by
  refine ⟨h.unmarked.cons hl, fun ⟨x, hx, hj⟩ => ?_⟩
  rcases List.mem_cons.mp hx with rfl | hx
  · cases hj.symm.trans hadds
  · exact h.unjoined ⟨x, hx, hj⟩

theorem Idle.neither (h : Idle seen) (token : String) : Joined seen ↔
    ∃ s, (.acceptInvitation token, s) ∈ seen :=
  ⟨fun hj => absurd hj h.unjoined, fun ⟨s, hs⟩ => absurd hs (h.unmarked token s)⟩

/-- A statement that marks no invitation and makes nobody a member. -/
theorem InvitationStep.other {l : Stmt} (hl : marked? l = none) (hadds : addsMember l s = false)
    (hnow : s'.now = s.now) (hmove : InvitationsMove l s s')
    (husers : s'.db.teamUsers = s.db.teamUsers)
    (hseen : Unmarked seen) : InvitationStep r l seen s s' where
  now := hnow
  move := hmove
  unmarked := hseen
  marking token h := by
    rw [h] at hl
    cases hl
  kept _ := husers
  inserts h := by cases hadds.symm.trans h

theorem executing_meets {G : Stmt → List (Stmt × State) → State → State → Prop} {α : Type}
    {Q : List (Stmt × State) → Except ApiError α → Prop} {l : Stmt}
    {toError : RepositoryError → ApiError}
    {f : State → Except RepositoryError Db} {g : Unit → Prog Stmt State ApiError α}
    (herr : ∀ s e, f s = .error e → G l seen s s ∧ Q ((l, s) :: seen) (.error (toError e)))
    (hok : ∀ s db, f s = .ok db → G l seen s (s.withDb db) ∧ (g ()).Meets G Q ((l, s) :: seen)) :
    ((executing l toError f).bind g).Meets G Q seen := by
  unfold executing Prog.tryStmt
  intro s
  cases hf : f s with
  | error e =>
    simp only [hf, Except.map, Except.mapError]
    exact herr s e hf
  | ok db =>
    simp only [hf, Except.map, Except.mapError]
    exact hok s db hf

/-- The role has no say in whether a member can be added. -/
theorem addsMember_of_ok {team : RowId} {user : PublicKey} {role : TeamUserRole} {db : Db}
    (h : s.db.addMember team user role = .ok db) : addsMember (.addMember team user) s = true := by
  obtain ⟨hmember, hteam, huser, -⟩ := Db.addMember_ok.mp h
  have hplain : s.db.addMember team user .member = .ok _ :=
    Db.addMember_ok.mpr ⟨hmember, hteam, huser, rfl⟩
  show (s.db.addMember team user .member).isOk = true
  rw [hplain]
  rfl

theorem addsMember_of_error {team : RowId} {user : PublicKey} {role : TeamUserRole}
    {e : RepositoryError}
    (h : s.db.addMember team user role = .error e) :
      addsMember (.addMember team user) s = false := by
  show (s.db.addMember team user .member).isOk = false
  cases hplain : s.db.addMember team user .member with
  | error e => rfl
  | ok db =>
    obtain ⟨hmember, hteam, huser, -⟩ := Db.addMember_ok.mp hplain
    cases h.symm.trans (Db.addMember_ok.mpr ⟨hmember, hteam, huser, rfl⟩)

theorem acceptInvitation_move (token : String) (user : PublicKey) (s : State) :
    (∀ e, s.db.acceptInvitation s.now token user = .error e →
      InvitationsMove (.acceptInvitation token) s s) ∧
      ∀ db, s.db.acceptInvitation s.now token user = .ok db →
        InvitationsMove (.acceptInvitation token) s (s.withDb db) ∧
          db.teamUsers = s.db.teamUsers := by
  unfold Db.acceptInvitation
  dsimp only
  split
  · refine ⟨fun e h => ?_, fun db h => ?_⟩
    · cases h
    · cases h
      exact ⟨⟨user, rfl⟩, rfl⟩
  · next hnone =>
    refine ⟨fun e _ => ⟨user, (updateWhere_eq_self fun i hi => ?_).symm⟩, fun db h => ?_⟩
    · rw [Bool.not_eq_true, List.any_eq_false] at hnone
      exact Bool.eq_false_iff.mpr (hnone i hi)
    · cases h

theorem accept_meets (tenant : TenantId) (auth : UcanAuth) (token : String) :
    (performInvitation w (.accept tenant auth token)).Meets
      (InvitationStep (.accept tenant auth token))
      (InvitationPost (.accept tenant auth token)) [] := by
  have hread : ∀ {l : Stmt} {seen s}, Idle seen → marked? l = none → addsMember l s = false →
      InvitationsMove l s s → InvitationStep (.accept tenant auth token) l seen s s :=
    fun h hl hadds hmove => .other hl hadds rfl hmove rfl h.unmarked
  refine .bind (.read (fun s => hread .nil rfl rfl rfl) fun s₁ => ?_)
  have hidle₁ : Idle [(Stmt.findInvitation, s₁)] := Idle.nil.cons rfl rfl
  refine .orErr (fun token _ => hidle₁.neither token) fun i hfound => ?_
  have hi : i ∈ s₁.db.teamInvitations := List.mem_of_find?_eq_some hfound
  have htoken : i.token = token := by
    have hp := List.find?_some hfound
    rw [Bool.and_eq_true, beq_iff_eq] at hp
    exact hp.1
  split
  · exact fun token _ => hidle₁.neither token
  refine .read (fun s => hread hidle₁ rfl rfl rfl) fun s₂ => ?_
  have hidle₂ : Idle [(Stmt.getEmail, s₂), (.findInvitation, s₁)] := hidle₁.cons rfl rfl
  refine .orErr (fun token _ => hidle₂.neither token) fun email _ => ?_
  split
  · exact fun token _ => hidle₂.neither token
  refine .read (fun s => hread hidle₂ rfl rfl rfl) fun s₃ => ?_
  have hidle₃ : Idle [(Stmt.isMember, s₃), (.getEmail, s₂), (.findInvitation, s₁)] :=
    hidle₂.cons rfl rfl
  split
  · exact fun token _ => hidle₃.neither token
  refine executing_meets (fun s e hadd => ⟨hread hidle₃ rfl (addsMember_of_error hadd) rfl, ?_⟩)
    fun s db hadd => ?_
  · exact fun token _ => (hidle₃.cons rfl (addsMember_of_error hadd)).neither token
  have hadds := addsMember_of_ok hadd
  obtain ⟨hmember, -, -, rfl⟩ := Db.addMember_ok.mp hadd
  refine ⟨⟨rfl, rfl, hidle₃.unmarked, fun token h => ?_, fun h => ?_, fun _ => ?_⟩, ?_⟩
  · cases h
  · cases hadds.symm.trans h
  · have hread : (Stmt.findInvitation, s₁) ∈
      [(.isMember, s₃), (.getEmail, s₂), (.findInvitation, s₁)] := by simp
    exact ⟨tenant, auth, token, s₁, rfl, hread, i, hi, htoken, hmember, rfl⟩
  -- a member from here on, whatever becomes of the invitation
  let seen :=
    (Stmt.addMember i.teamId auth.pubkey, s) ::
      [(.isMember, s₃), (.getEmail, s₂), (.findInvitation, s₁)]
  have hjoined : ∀ seen', Joined (seen' ++ seen) :=
    fun seen' => ⟨_, List.mem_append_right _ List.mem_cons_self, hadds⟩
  have hmark : ∀ {s₅ s₆}, s₆.now = s₅.now → InvitationsMove (.acceptInvitation token) s₅ s₆ →
      s₆.db.teamUsers = s₅.db.teamUsers →
      InvitationStep (.accept tenant auth token) (.acceptInvitation token) seen s₅ s₆ := by
    refine fun hnow hmove husers =>
      ⟨hnow, hmove, hidle₃.unmarked.cons rfl, fun token' h => ?_, fun _ => husers,
      fun h => ?_⟩
    · cases h
      exact ⟨rfl, hjoined []⟩
    · cases h
  have hpost : ∀ s₅ token', some token = some token' →
      (Joined ((.acceptInvitation token, s₅) :: seen) ↔
        ∃ s, (.acceptInvitation token', s) ∈ (.acceptInvitation token, s₅) :: seen) := by
    intro s₅ token' htoken
    cases htoken
    exact ⟨fun _ => ⟨s₅, List.mem_cons_self⟩, fun _ => hjoined [_]⟩
  refine executing_meets (fun s₅ e haccept => ⟨?_, hpost s₅⟩) fun s₅ db haccept => ⟨?_, hpost s₅⟩
  · exact hmark rfl ((acceptInvitation_move token auth.pubkey s₅).1 e haccept) rfl
  · obtain ⟨hmove, husers⟩ := (acceptInvitation_move token auth.pubkey s₅).2 db haccept
    exact hmark rfl hmove husers

/-- A statement of a request that does not accept. -/
structure Apart (l : Stmt) (s s' : State) : Prop where
  marks : marked? l = none
  adds : addsMember l s = false
  now : s'.now = s.now
  move : InvitationsMove l s s'
  users : s'.db.teamUsers = s.db.teamUsers

theorem revoke_does (tenant : TenantId) (auth : UcanAuth) (team id : RowId) :
    (revokeInvitation w tenant auth team id).Does Apart := by
  refine .bind ?_ fun _ => ?_
  · unfold verifyAdmin
    split
    · trivial
    · refine .bind (.ofExcept _) fun key =>
        .bind (.read (fun s => ⟨rfl, rfl, rfl, rfl, rfl⟩) _) fun admin => ?_
      split
      · trivial
      · trivial
  · unfold executing
    refine .tryStmt (fun s e _ => ⟨rfl, rfl, rfl, .inl rfl, rfl⟩) fun s a s' h => ?_
    have hok := mapError_eq_ok.mp h
    dsimp only [Db.revokeInvitation] at hok
    split at hok
    · cases hok
      exact ⟨rfl, rfl, rfl, .inr ⟨_, rfl⟩, rfl⟩
    · cases hok

theorem Unmarked.meets {α : Type} {p : Prog Stmt State ApiError α} (h : p.Does Apart)
    (hseen : Unmarked seen) :
    p.Meets (InvitationStep r) (fun seen _ => Unmarked seen) seen := by
  induction p generalizing seen with
  | ret | err => exact hseen
  | atom l upd k ih =>
    intro s
    obtain ⟨hapart, hrest⟩ := h s
    exact ⟨.other hapart.marks hapart.adds hapart.now hapart.move hapart.users hseen,
      ih s hrest (hseen.cons hapart.marks)⟩

theorem revoke_meets (tenant : TenantId) (auth : UcanAuth) (team id : RowId) :
    (performInvitation w (.revoke tenant auth team id)).Meets
      (InvitationStep (.revoke tenant auth team id))
      (InvitationPost (.revoke tenant auth team id)) [] := by
  refine Prog.Meets.mono (fun seen x _ token htoken => ?_)
    (Idle.nil.unmarked.meets (revoke_does tenant auth team id))
  cases htoken

theorem invitation_meets (w : Web) (r : InvitationWork) :
    (performInvitation w r).Meets (InvitationStep r) (InvitationPost r) [] := by
  cases r with
  | accept tenant auth token => exact accept_meets tenant auth token
  | revoke tenant auth team id => exact revoke_meets tenant auth team id

end Programs

/-! ## The books

A unit is an open invitation; marking it spends it. A withdrawn one is a unit that nobody can
spend. -/

section Books

variable {token : String} {r : InvitationWork} {seen : List (Stmt × State)}
  {s s' : State} {l : Stmt}

def openInvitations (token : String) (s : State) : Nat :=
  s.db.teamInvitations.countP fun i => i.token == token && i.pending s.now

def unacceptedInvitations (token : String) (s : State) : Nat :=
  s.db.teamInvitations.countP fun i => i.token == token && i.acceptedAt.isNone

/-- What the invitations offer, and by which tokens. -/
def offers (s : State) : List (String × RowId × TeamUserRole) :=
  s.db.teamInvitations.map fun i => (i.token, i.teamId, i.role)

theorem offers_move (hmove : InvitationsMove l s s') : offers s' = offers s := by
  unfold offers
  cases l with
  | acceptInvitation token =>
    obtain ⟨user, heq⟩ := hmove
    rw [heq, map_updateWhere]
    exact fun _ => rfl
  | revokeInvitation =>
    rcases hmove with heq | ⟨p, heq⟩
    · rw [heq]
    · rw [heq, map_updateWhere]
      exact fun _ => rfl
  | _ => exact congrArg _ hmove

theorem TokensUnique.move (h : TokensUnique s) (hmove : InvitationsMove l s s') :
    TokensUnique s' := by
  have htokens : ∀ s : State, s.db.teamInvitations.map (·.token) = (offers s).map (·.1) :=
    fun s => by
      unfold offers
      rw [List.map_map]
      rfl
  unfold TokensUnique
  rw [htokens, offers_move hmove, ← htokens]
  exact h

theorem unacceptedInvitations_le_one (h : TokensUnique s) (token : String) :
    unacceptedInvitations token s ≤ 1 := by
  refine le_trans (List.countP_mono_left fun i _ hi => ?_) (countP_le_one h token)
  rw [Bool.and_eq_true] at hi
  exact hi.1

theorem openInvitations_le_one (h : TokensUnique s) (token : String) :
    openInvitations token s ≤ 1 := by
  refine le_trans (List.countP_mono_left fun i _ hi => ?_) (countP_le_one h token)
  rw [Bool.and_eq_true] at hi
  exact hi.1

/-- A count of invitations that no acceptance and no revocation raises, and that marking one of them
lowers. -/
theorem marks_add_countP_le (q : TeamInvitation → Bool) (hmove : InvitationsMove l s s')
    (hq : ∀ i, i.token == token && i.pending s.now → q i = true)
    (htoken : ∀ i, q i = true → i.token = token)
    (haccept : ∀ (i : TeamInvitation) (user : PublicKey),
      q { i with acceptedAt := some s.now, acceptedBy := some user } = false)
    (hrevoke : ∀ i : TeamInvitation, q { i with revokedAt := some s.now } = true → q i = true) :
    marks token l s + s'.db.teamInvitations.countP q ≤ s.db.teamInvitations.countP q := by
  cases l with
  | acceptInvitation t =>
    obtain ⟨user, heq⟩ := hmove
    rw [heq]
    by_cases hopen : t = token ∧ openAt token s = true
    · obtain ⟨rfl, hany⟩ := hopen
      obtain ⟨i, hi, hp⟩ := List.any_eq_true.mp hany
      have hlt := countP_updateWhere_lt (p := fun i => i.token == t && i.pending s.now) (q := q)
        (f := fun i : TeamInvitation =>
          { i with acceptedAt := some s.now, acceptedBy := some user })
        (fun i _ => haccept i user) hi hp (hq i hp)
      simp only [marks, hany, and_self, if_true]
      omega
    · simp only [marks, hopen, if_false, Nat.zero_add]
      refine countP_updateWhere_le (fun i _ hi => ?_) _
      cases hi.symm.trans (haccept i user)
  | revokeInvitation =>
    rcases hmove with heq | ⟨p, heq⟩
    · rw [heq]
      exact (Nat.zero_add _).le
    · rw [heq]
      exact (Nat.zero_add _).trans_le (countP_updateWhere_le (fun i _ hi => hrevoke i hi) _)
  | _ =>
    have hsame : s'.db.teamInvitations = s.db.teamInvitations := hmove
    rw [hsame]
    exact (Nat.zero_add _).le

theorem invitation_traced (w : Web) :
    (invitationSystem w).Traces MarksOpen (fun _ _ => True) InvitationStep
      InvitationPost TokensUnique
      fun s s' => offers s' = offers s where
  prog := invitation_meets w
  refl _ := rfl
  trans _ _ _ hab hbc := hbc.trans hab
  exec hs _ _ hstep := ⟨hs.move hstep.move, offers_move hstep.move⟩
  env hs _ := ⟨hs, rfl⟩

theorem openInvitations_ledger (w : Web) (token : String) :
    (invitationSystem w).Ledger MarksOpen (fun _ _ => True) InvitationStep TokensUnique
      (fun s s' => offers s' = offers s)
      (openInvitations token) (marks token) fun _ _ => 0 where
  exec {r l seen s s'} _ _ _ hstep := by
    rw [Nat.add_zero]
    unfold openInvitations
    rw [hstep.now]
    refine marks_add_countP_le (fun i => i.token == token && i.pending s.now) hstep.move
      (fun i hi => hi)
      (fun i hi => ?_) (fun i user => ?_) fun i hi => ?_
    · rw [Bool.and_eq_true, beq_iff_eq] at hi
      exact hi.1
    · simp [TeamInvitation.pending, TeamInvitation.unanswered]
    · simp [TeamInvitation.pending, TeamInvitation.unanswered] at hi
  env {e s} _ _ := by
    refine List.countP_mono_left fun i _ hi => ?_
    simp only [invitationSystem, TeamInvitation.pending, Bool.and_eq_true,
      decide_eq_true_eq] at hi ⊢
    refine ⟨hi.1, hi.2.1, ?_⟩
    exact lt_of_le_of_lt (Int.le_add_of_nonneg_right (Int.natCast_nonneg e))
      (of_decide_eq_true hi.2.2)

theorem unacceptedInvitations_ledger (w : Web) (token : String) :
    (invitationSystem w).Ledger MarksOpen (fun _ _ => True) InvitationStep TokensUnique
      (fun s s' => offers s' = offers s)
      (unacceptedInvitations token) (marks token) fun _ _ => 0 where
  exec {r l seen s s'} _ _ _ hstep := by
    rw [Nat.add_zero]
    refine marks_add_countP_le (fun i => i.token == token && i.acceptedAt.isNone) hstep.move
      (fun i hi => ?_) (fun i hi => ?_) (fun i user => ?_) fun i hi => hi
    · simp only [TeamInvitation.pending, TeamInvitation.unanswered, Bool.and_eq_true] at hi
      rw [Bool.and_eq_true]
      exact ⟨hi.1, hi.2.1.1⟩
    · rw [Bool.and_eq_true, beq_iff_eq] at hi
      exact hi.1
    · simp
  env _ _ := le_rfl

/-- Nothing with the token is open when the only invitation with it is withdrawn. -/
theorem Withdrawn.not_open (hs : TokensUnique s) (h : Withdrawn token s) :
    openInvitations token s = 0 ∧ 1 ≤ unacceptedInvitations token s := by
  obtain ⟨i, hi, htoken, haccepted, hgone⟩ := h
  refine ⟨List.countP_eq_zero.mpr fun j hj hp => ?_, ?_⟩
  · rw [Bool.and_eq_true, beq_iff_eq] at hp
    obtain rfl : j = i := List.inj_on_of_nodup_map hs hj hi (hp.1.trans htoken.symm)
    have hpending := hp.2
    simp only [TeamInvitation.pending, TeamInvitation.unanswered, Bool.and_eq_true,
      decide_eq_true_eq] at hpending
    rcases hgone with hrevoked | hexpired
    · rw [Option.isNone_iff_eq_none.mp hpending.1.2] at hrevoked
      cases hrevoked
    · exact absurd hpending.2 (Int.not_lt.mpr hexpired)
  · refine List.countP_pos_iff.mpr ⟨i, hi, ?_⟩
    simp [htoken, haccepted]

/-- What marks an invitation. -/
theorem marks_eq_one : marks token l s = 1 ↔ l = .acceptInvitation token ∧
    openAt token s = true := by
  cases l with
  | acceptInvitation t =>
    by_cases h : t = token ∧ openAt token s = true
    · simp [marks, h]
    · simp only [marks, h, if_false, Nat.zero_ne_one, Stmt.acceptInvitation.injEq]
  | _ => simp [marks]

end Books

/-! ## The result -/

section Result

variable {s : State} {es : List (Ev InvitationWork Nat)}

theorem invitation_run_meets (s : State) (es : List (Ev InvitationWork Nat)) :
    System.Meets InvitationStep InvitationPost (run (invitationSystem w).step (.init s) es) :=
  System.meets_run (invitation_meets w) fun _ ht => absurd ht List.not_mem_nil

/-- In an allowed run every marking that was executed found its invitation open. -/
theorem marked_open (hs : TokensUnique s)
    (hok : Along (invitationSystem w).step (System.Allowed MarksOpen fun _ _ => True) (.init s) es)
    {t : InvitationThread} (ht : t ∈ (run (invitationSystem w).step (.init s) es).threads)
    {token : String} :
    Marked token t.seen ↔ ∃ s', (.acceptInvitation token, s') ∈ t.seen := by
  have hopen : ∀ x ∈ t.seen, MarksOpen x.1 x.2 := by
    refine (invitation_traced w).history (K := fun _ seen => ∀ x ∈ seen, MarksOpen x.1 x.2)
      (fun _ x hx => absurd hx List.not_mem_nil) (fun hK _ hC _ x hx => ?_) hs hok ht
    rcases List.mem_cons.mp hx with rfl | hx
    · exact hC
    · exact hK x hx
  constructor
  · intro ⟨x, hx, hmarks⟩
    obtain ⟨hl, -⟩ := marks_eq_one.mp hmarks
    exact ⟨x.2, hl ▸ hx⟩
  · intro ⟨s', hmem⟩
    exact ⟨_, hmem, marks_eq_one.mpr ⟨rfl, hopen _ hmem⟩⟩

/-- An acceptance that is answered has made a member if and only if it came to mark the invitation,
in every run. -/
theorem joined_iff_reached {t : InvitationThread}
    (ht : t ∈ (run (invitationSystem w).step (.init s) es).threads) {token : String}
    (hsettled : AnsweredFor token t) :
    Joined t.seen ↔ ∃ s', (.acceptInvitation token, s') ∈ t.seen := by
  obtain ⟨x, hx⟩ := Option.isSome_iff_exists.mp hsettled.2
  exact (invitation_run_meets s es).result ht hx token hsettled.1

/-- Whoever joins is the caller of the acceptance, in the team that its invitation still offers. -/
theorem seated_of_allowed (hs : TokensUnique s)
    (hok : Along (invitationSystem w).step (System.Allowed MarksOpen fun _ _ => True) (.init s) es)
    {i : Nat}
    {t : InvitationThread} (ht : (run (invitationSystem w).step (.init s) es).threads[i]? = some t)
    {x : Stmt × State} (hx : x ∈ t.seen) (hadds : addsMember x.1 x.2 = true) :
    ∃ tenant auth token pre post, t.req = .accept tenant auth token ∧ es = pre ++ .exec i :: post ∧
      (run (invitationSystem w).step (.init s) pre).state = x.2 ∧
      Seats token auth.pubkey x.2
        (run (invitationSystem w).step (.init s) (pre ++ [.exec i])).state := by
  obtain ⟨pre, post, t₀, heq, hat, -, hstate, hstep⟩ :=
    System.Meets.executed (invitation_meets w) ht hx
  obtain ⟨tenant, auth, token, s₁, hreq, hread, i₁, hi₁, htoken, hmember, husers⟩ :=
    hstep.inserts hadds
  refine ⟨tenant, auth, token, pre, post, hreq, heq, hstate, ?_⟩
  -- the row that was read is still there, with what it offers
  obtain ⟨hpre, -⟩ := along_append.mp (heq ▸ hok)
  have htraced := (invitation_traced w).run (System.traced_init hs) hpre
  have hoffers := (htraced.seen t₀ (List.mem_of_getElem? hat) _ hread).2
  rw [hstate] at hoffers
  have hoffer : (i₁.token, i₁.teamId, i₁.role) ∈ offers x.2 := hoffers ▸ List.mem_map_of_mem hi₁
  obtain ⟨i₂, hi₂, hsame⟩ := List.mem_map.mp hoffer
  simp only [Prod.mk.injEq] at hsame
  obtain ⟨htoken₂, hteam, hrole⟩ := hsame
  refine ⟨i₂, hi₂, htoken₂.trans htoken, ?_, ?_⟩
  · rwa [hteam]
  · rwa [hteam, hrole]

/-- Only the inserts of acceptances move the members. -/
theorem members_step (s : State) {pre post : List (Ev InvitationWork Nat)}
    {e : Ev InvitationWork Nat}
    (heq : es = pre ++ e :: post) :
    (run (invitationSystem w).step (.init s) (pre ++ [e])).state.db.teamUsers =
        (run (invitationSystem w).step (.init s) pre).state.db.teamUsers ∨
      ∃ i t l, e = .exec i ∧ (run (invitationSystem w).step (.init s) es).threads[i]? = some t ∧
        (l, (run (invitationSystem w).step (.init s) pre).state) ∈ t.seen ∧
        addsMember l (run (invitationSystem w).step (.init s) pre).state = true := by
  subst heq
  rw [run_append, run_append, run_cons, run_cons, run_nil]
  cases e with
  | spawn r => exact .inl rfl
  | env d => exact .inl rfl
  | exec i =>
    rcases (invitation_run_meets s pre).exec_cases (invitationSystem w) i with
      ⟨hidle, -⟩ | ⟨t, l, ht, hl, hstep⟩
    · exact .inl (congrArg (·.db.teamUsers) hidle)
    cases hadds : addsMember l (run (invitationSystem w).step (.init s) pre).state with
    | false => exact .inl (hstep.kept hadds)
    | true =>
      obtain ⟨t₁, ht₁, -, hseen₁⟩ := System.getElem?_exec (invitationSystem w) ht hl
      obtain ⟨t₂, ht₂, -, hseen₂⟩ := System.getElem?_run (invitationSystem w) ht₁ post
      exact .inr ⟨i, t₂, l, rfl, ht₂, hseen₂.subset (hseen₁ ▸ List.mem_cons_self), hadds⟩

theorem atomically_of_allowed (hs : TokensUnique s)
    (hok : Along (invitationSystem w).step (System.Allowed MarksOpen fun _ _ => True)
      (.init s) es) :
    AcceptedAtomically w s es := by
  have hatomic : ∀ t ∈ (run (invitationSystem w).step (.init s) es).threads, ∀ token,
    AnsweredFor token t →
      (Joined t.seen ↔ Marked token t.seen) := fun t ht token hsettled =>
    (joined_iff_reached ht hsettled).trans (marked_open hs hok ht).symm
  have hcounted : ∀ t ∈ (run (invitationSystem w).step (.init s) es).threads, ∀ token,
    AnsweredFor token t →
      Joined t.seen → 1 ≤ tally (marks token) t.seen := by
    intro t ht token hsettled hjoined
    obtain ⟨x, hx, hmarks⟩ := (hatomic t ht token hsettled).mp hjoined
    exact hmarks.ge.trans (le_tally hx)
  refine ⟨hatomic, fun token pre post heq hwithdrawn t ht hsettled hjoined => ?_,
    fun token i j t u ht hu => ?_,
    fun i t ht x hx hadds => seated_of_allowed hs hok ht hx hadds, fun pre e post heq =>
      members_step s heq⟩
  · -- the one unit is still there, and nobody can spend it
    subst heq
    obtain ⟨hpre, hpost⟩ := along_append.mp hok
    have htraced := (invitation_traced w).run (System.traced_init hs) hpre
    obtain ⟨hclosed, hthere⟩ := hwithdrawn.not_open htraced.state
    have hbefore :=
      (unacceptedInvitations_ledger w token).balance (invitation_traced w)
        (System.traced_init hs) hpre
    have hafter := (openInvitations_ledger w token).balance (invitation_traced w) htraced hpost
    have hone := unacceptedInvitations_le_one hs token
    rw [← run_append] at hafter
    have hspent := hcounted t ht token hsettled hjoined
    have hall : tally (marks token) t.seen ≤
        (run (invitationSystem w).step (.init s) (pre ++ post)).tally (marks token) :=
      List.le_sum_of_mem (List.mem_map_of_mem ht)
    simp only [Conf.tally_zero] at hbefore hafter
    have hstart : (Conf.init s : InvitationPool).tally (marks token) = 0 := rfl
    have hstate : (Conf.init s : InvitationPool).state = s := rfl
    rw [hstart, hstate] at hbefore
    omega
  · intro hsettled hsettled' hjoined hjoined'
    have hspent := (openInvitations_ledger w token).spent_le (invitation_traced w) (fun _ => 0)
      (fun _ h => by simpa using h) hs hok
    have hone : (run (invitationSystem w).step (.init s) es).tally (marks token) ≤ 1 := by
      have hnone : ((System.spawned es).map fun _ => 0).sum = 0 := by simp
      have hopened := openInvitations_le_one hs token
      omega
    exact Conf.eq_of_tally_le_one hone ht hu
      (hcounted t (List.mem_of_getElem? ht) token hsettled hjoined)
      (hcounted u (List.mem_of_getElem? hu) token hsettled' hjoined')

/-- **An acceptance is all or nothing** in exactly the runs in which every marking finds its
invitation open. -/
theorem accepted_atomically_iff (hs : TokensUnique s) :
    AcceptedAtomically w s es ↔
      Along (invitationSystem w).step (System.Allowed MarksOpen fun _ _ => True) (.init s) es := by
  refine ⟨fun h => along_iff_split.mpr fun pre e post heq => ?_, atomically_of_allowed hs⟩
  cases e with
  | spawn r => trivial
  | env d => trivial
  | exec i =>
    intro t ht l hl
    cases l with
    | acceptInvitation token =>
      by_contra hclosed
      have hmeets := invitation_run_meets (w := w) s pre
      have hstep := hmeets.exec (invitationSystem w) ht hl
      obtain ⟨htoken, x, hx, hadds⟩ := hstep.marking token rfl
      obtain ⟨t', ht', hsame, hseen⟩ := System.getElem?_exec (invitationSystem w) ht hl
      have hmeets' : System.Meets InvitationStep InvitationPost
          ((invitationSystem w).step (run (invitationSystem w).step (.init s) pre) (.exec i)) :=
        System.meets_step (invitation_meets w) (.exec i) hmeets
      -- it was the last statement, so the request has been answered
      have hdone : t'.next? = none := by
        cases hnext : t'.next? with
        | none => rfl
        | some l' =>
          have hno := (hmeets'.exec (invitationSystem w) ht' hnext).unmarked
          exact absurd (hseen ▸ List.mem_cons_self) (hno token _)
      have hlast := System.getElem?_run_of_done (invitationSystem w) ht' hdone post
      rw [← run_cons, ← run_append, ← heq] at hlast
      have hmem := List.mem_of_getElem? hlast
      have hjoined : Joined t'.seen := ⟨x, hseen ▸ List.mem_cons_of_mem _ hx, hadds⟩
      have hsettled : AnsweredFor token t' := ⟨hsame ▸ htoken, Thread.result?_of_done hdone⟩
      obtain ⟨y, hy, hmarks⟩ := (h.atomic t' hmem token hsettled).mp hjoined
      obtain ⟨hly, hopen⟩ := marks_eq_one.mp hmarks
      rw [hseen] at hy
      rcases List.mem_cons.mp hy with rfl | hy
      · exact hclosed hopen
      · exact hstep.unmarked token y.2 (hly ▸ hy)
    | _ => trivial

end Result

/-! A guest who is invited, and an admin who takes the invitation back. -/

def guesthouse : Db where
  users := [{ pubkey := "chef", tenantId := 1 },
    { pubkey := "guest", tenantId := 1, email := some "guest@example.com" }]
  teams := [⟨7, 1⟩]
  teamUsers := [⟨7, "chef", .admin⟩]
  teamInvitations :=
    [{ id := 3, teamId := 7, tenantId := 1, email := "guest@example.com", role := .member,
                        token := "invite", invitedBy := "chef", expiresAt := 100 }]

def guestWeb : Web := .symbolic [] []

def guestAccepts : Ev InvitationWork Nat := .spawn (.accept 1 ⟨"guest", none⟩ "invite")

def chefRevokes : Ev InvitationWork Nat := .spawn (.revoke 1 ⟨"chef", none⟩ 7 3)

def execs (i n : Nat) : List (Ev InvitationWork Nat) := List.replicate n (.exec i)

/-- The acceptance is through before the revocation, and a second one finds nothing. -/
def acceptedInTurn : List (Ev InvitationWork Nat) :=
  guestAccepts :: chefRevokes :: (execs 0 5 ++ execs 1 2 ++ guestAccepts :: execs 2 1)

/-- The revocation falls between the two writes of the acceptance. -/
def revokedInBetween : List (Ev InvitationWork Nat) :=
  guestAccepts :: chefRevokes :: (execs 0 4 ++ execs 1 2 ++ execs 0 1)

theorem accepted_in_turn :
    (run (invitationSystem guestWeb).step (.init (.boot guesthouse 0))
      acceptedInTurn).state.db.isMember 7 "guest" =
        true ∧
      AcceptedAtomically guestWeb (.boot guesthouse 0) acceptedInTurn := by
  have hunique : TokensUnique (.boot guesthouse 0) := List.nodup_singleton _
  refine ⟨by decide, (accepted_atomically_iff hunique).mpr ?_⟩
  decide

/-- **Revoked, and a member all the same.** -/
theorem member_of_revoked :
    (run (invitationSystem guestWeb).step (.init (.boot guesthouse 0))
      revokedInBetween).state.db.isMember 7 "guest" =
        true ∧
      ¬ AcceptedAtomically guestWeb (.boot guesthouse 0) revokedInBetween := by
  refine ⟨by decide, fun h => ?_⟩
  obtain ⟨t, ht, hanswered⟩ := Conf.exists_thread (c := run (invitationSystem guestWeb).step
    (.init (.boot guesthouse 0)) revokedInBetween) (i := 0) (p :=
      fun t => t.req.token? == some "invite" &&
      t.result?.isSome && t.seen.any (fun x => addsMember x.1 x.2) &&
        t.seen.all (fun x => marks "invite" x.1 x.2 != 1))
    (by decide)
  simp only [Bool.and_eq_true, beq_iff_eq, List.any_eq_true, List.all_eq_true,
    bne_iff_ne] at hanswered
  obtain ⟨⟨⟨htoken, hresult⟩, hjoined⟩, hunmarked⟩ := hanswered
  obtain ⟨x, hx, hmarks⟩ :=
    (h.atomic t (List.mem_of_getElem? ht) "invite" ⟨htoken, hresult⟩).mp hjoined
  exact hunmarked x hx hmarks

end Keycast.Http
