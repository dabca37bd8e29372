import Keycast.Http.Account

/-!
# `Http/KeyChange.lean` — what a failed key change leaves behind

`change_key` checks everything it can, replaces the key in one transaction, and goes on: it looks
for the origin of the request and signs a session with the new key. Either can fail, and the user
has a new key by then and is not told. `changeKey_clean_iff` says that nothing else goes wrong,
whichever of the database's three statements fails.

The whole database is compared, before and after the handler. The `tenants` row that the extractor
of the tenant may create for a new host is written before the handler runs and lies outside it.
-/

set_option autoImplicit false

namespace Keycast.Http

open Lib

/-! ## Faults of the database -/

inductive ChangeKeyFault
  | credentials
  | existing
  | transaction
  deriving DecidableEq, Repr

def ChangeKeyFault.fails (text : String) : ChangeKeyFault → Stmt → Option AuthError
  | credentials, .getCredentials => some (.database text)
  | existing, .userExists => some (.database text)
  | transaction, .changeKeyTransaction .. => some (.database text)
  | _, _ => none

/-- A request, with the fault that meets it. -/
structure ChangeKeyCall where
  inst : InstanceId
  headers : Headers
  tenant : TenantId
  fresh : Keys
  req : ChangeKeyRequest
  fault : Option ChangeKeyFault
  text : String
  deriving DecidableEq, Repr

def ChangeKeyCall.fails (r : ChangeKeyCall) (l : Stmt) : Option AuthError :=
  r.fault.bind fun f => f.fails r.text l

def ChangeKeyCall.prog (w : Web) (r : ChangeKeyCall) :
    Prog Stmt State AuthError ChangeKeyResponse :=
  (changeKey w r.inst r.headers r.tenant r.fresh r.req).failing r.fails

/-! ## The property -/

/-- Email and password have gone over to the new key, and no app holds on to the old one. -/
structure Rekeyed (db : Db) (tenant : TenantId) (email hash : String)
    (oldPubkey newPubkey : PublicKey) : Prop where
  moved : ∃ u ∈ db.users, u.pubkey = newPubkey ∧ u.tenantId = tenant ∧ u.email = some email ∧
    u.passwordHash = some hash
  only : ∀ u ∈ db.users, u.tenantId = tenant → u.email = some email → u.pubkey = newPubkey
  orphaned : ∀ u ∈ db.users, u.tenantId = tenant → u.pubkey = oldPubkey →
    u.email = none ∧ u.passwordHash = none
  disconnected : ∀ a ∈ db.oauthAuthorizations, a.userPubkey ≠ oldPubkey

/-- **A key change that is refused changes nothing, and one that succeeds is complete.** -/
structure CleanChange (w : Web) (r : ChangeKeyCall) (s : State) : Prop where
  refused : ∀ e s', (r.prog w).run s = (.error e, s') → s'.db = s.db
  changed : ∀ response s', (r.prog w).run s = (.ok response, s') → ∃ oldPubkey email hash,
    extractUserFromToken w s.now r.headers r.tenant = .ok oldPubkey ∧
      s.db.getCredentials oldPubkey r.tenant = .ok (some (email, hash)) ∧
      Rekeyed s'.db r.tenant email hash oldPubkey response.newPubkey

/-! ## The commit -/

/-- What the handler has in its hands when it commits, and the database then. -/
structure KeyChange where
  oldPubkey : PublicKey
  email : String
  hash : String
  keys : Keys
  encrypted : Bytes
  count : Nat
  db : Db

/-- No check before the commit fails, nor does the transaction. -/
structure ChangeKeyCall.Commits (w : Web) (r : ChangeKeyCall) (s : State)
    (c : KeyChange) : Prop where
  noFault : r.fault = none
  signedIn : extractUserFromToken w s.now r.headers r.tenant = .ok c.oldPubkey
  credentials : s.db.getCredentials c.oldPubkey r.tenant = .ok (some (c.email, c.hash))
  password : w.bcryptVerify r.req.password c.hash = .ok true
  keys : newKeysFor w r.req r.fresh = .ok c.keys
  free : s.db.userExists (w.publicKey c.keys) r.tenant = false
  encrypted : w.kmsEncrypt (w.toSecretBytes c.keys) = .ok c.encrypted
  changed : s.db.changeKeyTransaction c.oldPubkey (w.publicKey c.keys) r.tenant c.email
    c.hash c.encrypted =
    some (c.count, c.db)

/-- The state after it, with the handlers of the old key gone. -/
def ChangeKeyCall.after (r : ChangeKeyCall) (s : State) (c : KeyChange) : State :=
  (s.withDb c.db).invalidateHandlersForUser r.inst c.oldPubkey

/-- What the request is answered then. -/
def ChangeKeyCall.answer (w : Web) (r : ChangeKeyCall) (s : State) (c : KeyChange) :
    Except AuthError ChangeKeyResponse :=
  match r.headers.origin.bind id with
  | none => .error (.badRequest "Origin header required")
  | some origin =>
    ((generateUcanToken w s.now c.keys r.tenant c.email origin).mapError .internal).map fun token =>
      ⟨w.publicKey c.keys, c.count, token⟩

section KeyChange

variable {w : Web} {s s' : State} {r : ChangeKeyCall} {c c' : KeyChange}

/-- There is one such change at most. -/
theorem ChangeKeyCall.Commits.unique (h : r.Commits w s c) (h' : r.Commits w s c') : c = c' := by
  obtain ⟨oldPubkey, email, hash, keys, encrypted, count, db⟩ := c
  obtain ⟨oldPubkey', email', hash', keys', encrypted', count', db'⟩ := c'
  obtain ⟨-, hsigned, hcred, -, hkeys, -, henc, hchange⟩ := h
  obtain ⟨-, hsigned', hcred', -, hkeys', -, henc', hchange'⟩ := h'
  dsimp only at *
  cases hsigned.symm.trans hsigned'
  cases hcred.symm.trans hcred'
  cases hkeys.symm.trans hkeys'
  cases henc.symm.trans henc'
  cases hchange.symm.trans hchange'
  rfl

/-- A fault is met before the commit or at it. -/
theorem ChangeKeyCall.not_commits {l : Stmt} {e : AuthError} (h : r.fails l = some e)
    (c : KeyChange) :
    ¬ r.Commits w s c := by
  intro hc
  rw [ChangeKeyCall.fails, hc.noFault] at h
  cases h

theorem noFault_of (h₁ : r.fails .getCredentials = none) (h₂ : r.fails .userExists = none)
    {oldPubkey newPubkey : PublicKey}
    (h₃ : r.fails (.changeKeyTransaction oldPubkey newPubkey) = none) :
    r.fault = none := by
  unfold ChangeKeyCall.fails at h₁ h₂ h₃
  cases hfault : r.fault with
  | none => rfl
  | some f =>
    rw [hfault] at h₁ h₂ h₃
    cases f with
    | credentials => cases h₁
    | existing => cases h₂
    | transaction => cases h₃

/-- **How a key change goes**: nothing has happened, or it is committed and the rest decides on the
answer. -/
theorem changeKey_ends (w : Web) (r : ChangeKeyCall) (s : State) :
    (r.prog w).Ends (fun x s' =>
      (∃ e, x = .error e ∧ s' = s ∧ ∀ c, ¬ r.Commits w s c) ∨
        ∃ c, r.Commits w s c ∧ x = r.answer w s c ∧ s' = r.after s c) s := by
  unfold ChangeKeyCall.prog changeKey
  simp only [Prog.bind_def, Prog.failing_bind, Prog.failing_ofExcept, Prog.failing_orErr]
  refine .failing_read (fun e he => .inl ⟨e, rfl, rfl, r.not_commits he⟩) fun _ => ?_
  refine .ofExcept_cases (fun e he => .inl ⟨e, rfl, rfl, fun c hc => ?_⟩)
    fun oldPubkey hsigned => ?_
  · cases he.symm.trans hc.signedIn
  refine .failing_read (fun e he => .inl ⟨e, rfl, rfl, r.not_commits he⟩) fun hfault₁ => ?_
  refine .ofExcept_mapError (fun e he => .inl ⟨_, rfl, rfl, fun c hc => ?_⟩)
    fun credentials hcred => ?_
  · cases hsigned.symm.trans hc.signedIn
    cases he.symm.trans hc.credentials
  refine .orErr_cases (fun he => .inl ⟨_, rfl, rfl, fun c hc => ?_⟩) fun found hfound => ?_
  · cases hsigned.symm.trans hc.signedIn
    cases (hcred.symm.trans hc.credentials).symm.trans (congrArg _ he)
  obtain ⟨email, hash⟩ := found
  subst hfound
  refine .ofExcept_mapError (fun e he => .inl ⟨_, rfl, rfl, fun c hc => ?_⟩) fun valid hvalid => ?_
  · cases hsigned.symm.trans hc.signedIn
    cases hcred.symm.trans hc.credentials
    cases he.symm.trans hc.password
  cases valid with
  | false =>
    refine .inl ⟨_, rfl, rfl, fun c hc => ?_⟩
    cases hsigned.symm.trans hc.signedIn
    cases hcred.symm.trans hc.credentials
    cases hvalid.symm.trans hc.password
  | true =>
  simp only [Bool.not_true, Bool.false_eq_true, if_false, Prog.failing_bind, Prog.failing_ofExcept]
  refine .ofExcept_cases (fun e he => .inl ⟨_, rfl, rfl, fun c hc => ?_⟩) fun keys hkeys => ?_
  · cases he.symm.trans hc.keys
  refine .failing_read (fun e he => .inl ⟨e, rfl, rfl, r.not_commits he⟩) fun hfault₂ => ?_
  split
  · next htaken =>
    refine .inl ⟨_, rfl, rfl, fun c hc => ?_⟩
    cases hkeys.symm.trans hc.keys
    cases htaken.symm.trans hc.free
  next hfree =>
  simp only [Prog.failing_bind, Prog.failing_ofExcept, Prog.failing_orErr]
  refine .ofExcept_mapError (fun e he => .inl ⟨_, rfl, rfl, fun c hc => ?_⟩)
    fun encrypted hencrypted => ?_
  · cases hkeys.symm.trans hc.keys
    cases he.symm.trans hc.encrypted
  refine ends_failing_transact (fun e he => .inl ⟨e, rfl, rfl, r.not_commits he⟩)
    (fun he => .inl ⟨_, rfl, rfl, fun c hc => ?_⟩) fun hfault₃ count db hchange => ?_
  · cases hsigned.symm.trans hc.signedIn
    cases hcred.symm.trans hc.credentials
    cases hkeys.symm.trans hc.keys
    cases hencrypted.symm.trans hc.encrypted
    cases he.symm.trans hc.changed
  -- committed
  have hfault : r.fault = none := noFault_of hfault₁ hfault₂ hfault₃
  have hc : r.Commits w s ⟨oldPubkey, email, hash, keys, encrypted, count, db⟩ :=
    ⟨hfault, hsigned, hcred, hvalid, hkeys, Bool.eq_false_iff.mpr hfree, hencrypted, hchange⟩
  have hnone : ∀ {l e}, r.fails l = some e → False := fun he => r.not_commits he _ hc
  refine .failing_write (fun e he => (hnone he).elim) fun _ => ?_
  refine .failing_write (fun e he => (hnone he).elim) fun _ => ?_
  refine .orErr_cases (fun he => .inr ⟨_, hc, ?_, rfl⟩) fun origin horigin => ?_
  · rw [ChangeKeyCall.answer, he]
  refine .failing_read (fun e he => (hnone he).elim) fun _ => ?_
  refine .ofExcept_mapError (fun e he => .inr ⟨_, hc, ?_, rfl⟩) fun token htoken =>
    .inr ⟨_, hc, ?_, rfl⟩
  · have he' : generateUcanToken w s.now keys r.tenant email origin = .error e := he
    simp only [ChangeKeyCall.answer, horigin, he']
    rfl
  · have htoken' : generateUcanToken w s.now keys r.tenant email origin = .ok token := htoken
    simp only [ChangeKeyCall.answer, horigin, htoken']
    rfl

theorem prog_cases (w : Web) (r : ChangeKeyCall) (s : State) :
    (∃ e, (r.prog w).run s = (.error e, s) ∧ ∀ c, ¬ r.Commits w s c) ∨
      ∃ c, r.Commits w s c ∧ (r.prog w).run s = (r.answer w s c, r.after s c) := by
  rcases changeKey_ends w r s with ⟨e, hx, hs, hno⟩ | ⟨c, hc, hx, hs⟩
  · exact .inl ⟨e, Prod.ext hx hs, hno⟩
  · exact .inr ⟨c, hc, Prod.ext hx hs⟩

theorem answer_ok {response : ChangeKeyResponse} (h : r.answer w s c = .ok response) :
    response.newPubkey = w.publicKey c.keys ∧
      ∃ origin token, r.headers.origin = some (some origin) ∧
        generateUcanToken w s.now c.keys r.tenant c.email origin = .ok token := by
  unfold ChangeKeyCall.answer at h
  cases horigin : r.headers.origin.bind id with
  | none =>
    rw [horigin] at h
    cases h
  | some origin =>
    rw [horigin] at h
    cases htoken : generateUcanToken w s.now c.keys r.tenant c.email origin with
    | error e =>
      simp only [htoken] at h
      cases h
    | ok token =>
      simp only [htoken] at h
      cases h
      obtain ⟨value, hvalue, hvalue'⟩ := Option.bind_eq_some_iff.mp horigin
      obtain rfl : value = some origin := hvalue'
      exact ⟨rfl, origin, token, hvalue, htoken⟩

theorem answer_of_session {origin token : String} (horigin : r.headers.origin = some (some origin))
    (htoken : generateUcanToken w s.now c.keys r.tenant c.email origin = .ok token) :
    r.answer w s c = .ok ⟨w.publicKey c.keys, c.count, token⟩ := by
  have horigin' : r.headers.origin.bind id = some origin := by rw [horigin]; rfl
  simp only [ChangeKeyCall.answer, horigin', htoken]
  rfl

/-! ## The transaction -/

/-- One user more: that is a change. -/
theorem changeKeyTransaction_ne {db db' : Db} {oldPubkey newPubkey : PublicKey} {tenant : TenantId}
    {email hash : String} {enc : Bytes} {n : Nat}
    (h : db.changeKeyTransaction oldPubkey newPubkey tenant email hash enc = some (n, db')) :
      db' ≠ db := by
  intro heq
  have hlen := congrArg List.length (Db.changeKeyTransaction_users h).2.1
  rw [heq, updateWhere] at hlen
  simp at hlen

theorem changeKeyTransaction_rekeyed {db db' : Db} {oldPubkey newPubkey : PublicKey}
    {tenant : TenantId}
    {email hash : String} {enc : Bytes} {n : Nat}
    (h : db.changeKeyTransaction oldPubkey newPubkey tenant email hash enc = some (n, db'))
    (hne : newPubkey ≠ oldPubkey) : Rekeyed db' tenant email hash oldPubkey newPubkey := by
  obtain ⟨hfree, husers, -⟩ := Db.changeKeyTransaction_users h
  have hnone := List.any_eq_false.mp hfree
  have hother : ∀ u ∈ updateWhere (fun u : User => u.pubkey == oldPubkey && u.tenantId == tenant)
      (fun u => { u with email := none, passwordHash := none }) db.users,
      ¬ (u.tenantId = tenant ∧ u.email = some email) := by
    rintro u hu ⟨htenant, hemail⟩
    refine hnone u hu ?_
    simp [Db.conflicts, Db.rekeyed, htenant, hemail]
  have hauth : db'.oauthAuthorizations =
    db.oauthAuthorizations.filter (·.userPubkey != oldPubkey) := by
    obtain ⟨db₁, h₁, heq⟩ := Option.map_eq_some_iff.mp h
    obtain ⟨-, rfl⟩ := Db.insertUser_eq_some h₁
    cases heq
    rfl
  refine ⟨⟨Db.rekeyed newPubkey tenant email hash, ?_, rfl, rfl, rfl, rfl⟩,
    fun u hu htenant hemail => ?_,
    fun u hu htenant hkey => ?_, fun a ha hkey => ?_⟩
  · rw [husers]
    exact List.mem_append_right _ (List.mem_singleton.mpr rfl)
  · rw [husers] at hu
    rcases List.mem_append.mp hu with hu | hu
    · exact absurd ⟨htenant, hemail⟩ (hother u hu)
    · rw [List.mem_singleton.mp hu]
      rfl
  · rw [husers] at hu
    rcases List.mem_append.mp hu with hu | hu
    · rcases mem_updateWhere.mp hu with ⟨u₀, -, -, rfl⟩ | ⟨-, hnot⟩
      · exact ⟨rfl, rfl⟩
      · simp [hkey, htenant] at hnot
    · rw [List.mem_singleton.mp hu] at hkey
      exact absurd hkey hne
  · rw [hauth] at ha
    exact absurd hkey (by simpa using (List.mem_filter.mp ha).2)

/-- The new key is not the old one: that one is taken. -/
theorem ChangeKeyCall.Commits.ne (h : r.Commits w s c) : w.publicKey c.keys ≠ c.oldPubkey := by
  intro heq
  have hfree := h.free
  have hcred := h.credentials
  rw [heq] at hfree
  unfold Db.getCredentials at hcred
  split at hcred
  · cases hcred
  · next u hu =>
    have hu' := List.find?_some hu
    rw [Db.userExists, Db.userIn, List.any_eq_false] at hfree
    exact hfree u (List.mem_of_find?_eq_some hu) hu'

/-- **A key change fails cleanly unless it fails after the commit**: for want of an origin, or of a
session signed with the new key. -/
theorem changeKey_clean_iff (w : Web) (r : ChangeKeyCall) (s : State) :
    CleanChange w r s ↔ ∀ c, r.Commits w s c →
      ∃ origin token, r.headers.origin = some (some origin) ∧
      generateUcanToken w s.now c.keys r.tenant c.email origin = .ok token := by
  constructor
  · intro hclean c hc
    rcases prog_cases w r s with ⟨e, -, hno⟩ | ⟨c', hc', hrun⟩
    · exact absurd hc (hno c)
    · cases hc.unique hc'
      cases hanswer : r.answer w s c with
      | ok response => exact (answer_ok hanswer).2
      | error e =>
        rw [hanswer] at hrun
        exact absurd (hclean.refused e _ hrun) (changeKeyTransaction_ne hc.changed)
  · intro hsession
    rcases prog_cases w r s with ⟨e, hrun, -⟩ | ⟨c, hc, hrun⟩
    · refine ⟨fun e' s' h => ?_, fun response s' h => ?_⟩
      · cases hrun.symm.trans h
        rfl
      · cases hrun.symm.trans h
    · obtain ⟨origin, token, horigin, htoken⟩ := hsession c hc
      rw [answer_of_session horigin htoken] at hrun
      refine ⟨fun e s' h => ?_, fun response s' h => ?_⟩
      · cases hrun.symm.trans h
      · cases hrun.symm.trans h
        exact ⟨c.oldPubkey, c.email, c.hash, hc.signedIn, hc.credentials,
          changeKeyTransaction_rekeyed hc.changed hc.ne⟩

/-! An account whose owner asks for a new key, once from a page and once without the header that
names it. -/

def keyWeb : Web := .symbolic [("session", ⟨some "owner", some "owner", some 1000,
  [.obj [("tenant_id", .int 1), ("redirect_origin", .str "https://app.example")]]⟩)] []

def keyState : State := .boot
  { users := [{ pubkey := "owner", tenantId := 1, email := some "owner@example.com",
                passwordHash := some "bcrypt:password" }]
    personalKeys := [⟨"owner", 1, "sk"⟩] } 0

def keyCall (origin : Option HeaderValue) : ChangeKeyCall where
  inst := 0
  headers := { authorization := some (some "Bearer session"), origin }
  tenant := 1
  fresh := "sk2"
  req := ⟨"password", none⟩
  fault := none
  text := ""

/-- **The key is changed and the request is refused**: there is no `Origin` header. -/
theorem changeKey_unclean : ¬ CleanChange keyWeb (keyCall none) keyState := by
  intro hclean
  have hsame :=
    hclean.refused (.badRequest "Origin header required")
      (((keyCall none).prog keyWeb).run keyState).2
    (Prod.ext (by decide) rfl)
  exact absurd (congrArg Db.users hsame) (by decide)

end KeyChange

end Keycast.Http
