import Keycast.Core.Credentials
import Keycast.Http.Account
import Keycast.Lib.Histories

/-!
# `Http/Claims.lean` — a preloaded account is claimed once

A preloaded account has no email, and several claim tokens can be live for it. `claim_post` looks
its token up, hashes the password, sets the email and the password and marks the token. Of these
only the `UPDATE` on `users` is guarded, by `email IS NULL`. That is enough: whichever request gets
there first, the row has an email from then on.
-/

set_option autoImplicit false

namespace Keycast.Http

open Lib

structure ClaimRequest where
  tenant : TenantId
  form : ClaimForm
  deriving DecidableEq, Repr

/-- Any number of `claim_post` requests; the environment lets time pass. -/
def claimSystem (w : Web) : System ClaimRequest Stmt State ClaimError (PublicKey × String) Nat where
  prog r := claimPost w r.tenant r.form
  env d s := { s with now := s.now + d }

abbrev ClaimConf := Conf ClaimRequest Stmt State ClaimError (PublicKey × String)

/-- The row of an account. -/
def accountRows (pubkey : PublicKey) (tenant : TenantId) (s : State) : List User :=
  s.db.users.filter (Db.isUser pubkey tenant)

/-- A row with the email and the password of a request. -/
def claimed (email passwordHash : String) (u : User) : User :=
  { u with email := some email, passwordHash := some passwordHash, emailVerified := true }

/-- `users` stays as it is, or an account without an email gets those of the request. -/
def ClaimMove (w : Web) (r : ClaimRequest) (l : Stmt) (_ : List (Stmt × State))
    (s s' : State) : Prop :=
  s'.db.users = s.db.users ∨ ∃ user hash, l = .claimAccount user ∧
    w.bcryptHash r.form.password = .ok hash ∧
    s'.db.users =
      updateWhere (fun u => u.pubkey == user && u.tenantId == r.tenant && u.email.isNone)
      (claimed (w.toLowercase r.form.email) hash) s.db.users

section Claim

variable {w : Web} {pubkey : PublicKey} {tenant : TenantId}

theorem claimAccount_eq {db db' : Db} {user : PublicKey} {email hash : String}
    (h : db.claimAccount user tenant email hash = .ok db') :
    db'.users =
      updateWhere (fun u => u.pubkey == user && u.tenantId == tenant && u.email.isNone)
        (claimed email hash)
      db.users := by
  obtain ⟨-, rfl⟩ := Db.claimAccount_rows h
  rfl

theorem claimPost_meets (w : Web) (r : ClaimRequest) :
    ((claimSystem w).prog r).Meets (ClaimMove w r) (fun _ _ => True) [] := by
  show (claimPost w r.tenant r.form).Meets _ _ _
  unfold claimPost
  refine .read (fun _ => .inl rfl) fun s => .orErr trivial fun claimToken _ =>
    .ofExcept (fun _ => trivial) fun _ _ =>
    .read (fun _ => .inl rfl) fun s => ?_
  split
  · trivial
  refine .ofExcept (fun _ => trivial) fun hash hhash =>
    meets_transact (fun s _ => ⟨.inl rfl, trivial⟩) fun s b db hclaim => ?_
  obtain ⟨db', hdb, heq⟩ := Option.map_eq_some_iff.mp hclaim
  cases heq
  have husers := claimAccount_eq (toOption_eq_some.mp hdb)
  refine ⟨.inr ⟨_, hash, rfl, mapError_eq_ok.mp hhash, husers⟩, ?_⟩
  exact .write fun s =>
    ⟨.inl rfl, .ofExcept (fun _ => trivial) fun _ _ => .ofExcept (fun _ => trivial) fun _ _ =>
    .read (fun _ => .inl rfl) fun s => .ofExcept (fun _ => trivial) fun _ _ => trivial⟩

/-- What a statement of a request does to one account. -/
theorem ClaimMove.rows {r : ClaimRequest} {l : Stmt} {seen : List (Stmt × State)} {s s' : State}
    (h : ClaimMove w r l seen s s') (pubkey : PublicKey) (tenant : TenantId) :
    accountRows pubkey tenant s' = accountRows pubkey tenant s ∨
      r.tenant = tenant ∧ l = .claimAccount pubkey ∧
      ∃ hash, w.bcryptHash r.form.password = .ok hash ∧
        accountRows pubkey tenant s' =
          updateWhere (·.email.isNone) (claimed (w.toLowercase r.form.email) hash)
            (accountRows pubkey tenant s) := by
  unfold accountRows
  rcases h with hsame | ⟨user, hash, rfl, hhash, husers⟩
  · rw [hsame]
    exact .inl rfl
  -- the columns that identify the row stay as they are
  have hfilter : s'.db.users.filter (Db.isUser pubkey tenant) =
      updateWhere (fun u => u.pubkey == user && u.tenantId == r.tenant && u.email.isNone)
        (claimed (w.toLowercase r.form.email) hash)
          (s.db.users.filter (Db.isUser pubkey tenant)) := by
    rw [husers, updateWhere, List.filter_map]
    congr 1
    refine List.filter_congr fun u _ => ?_
    simp only [Function.comp]
    split
    · rfl
    · rfl
  have hrow : ∀ u ∈ s.db.users.filter (Db.isUser pubkey tenant), u.pubkey = pubkey ∧
    u.tenantId = tenant := by
    intro u hu
    simpa [Db.isUser] using (List.mem_filter.mp hu).2
  rw [hfilter]
  by_cases hmine : user = pubkey ∧ r.tenant = tenant
  · obtain ⟨rfl, rfl⟩ := hmine
    refine .inr ⟨rfl, rfl, hash, hhash, List.map_congr_left fun u hu => ?_⟩
    simp [hrow u hu]
  · refine .inl ?_
    have hnone : ∀ u ∈ s.db.users.filter (Db.isUser pubkey tenant),
        (u.pubkey == user && u.tenantId == r.tenant && u.email.isNone) = false := by
      intro u hu
      obtain ⟨hkey, htenant⟩ := hrow u hu
      rw [hkey, htenant]
      by_contra hmatch
      simp only [Bool.not_eq_false, Bool.and_eq_true, beq_iff_eq] at hmatch
      exact hmine ⟨hmatch.1.1.symm, hmatch.1.2.symm⟩
    exact updateWhere_eq_self hnone

end Claim

section Runs

variable {w : Web} {pubkey : PublicKey} {tenant : TenantId} {c : ClaimConf}

/-- What a step does to one account. -/
theorem claimStep_rows (hc : System.Meets (ClaimMove w) (fun _ _ _ => True) c)
    (e : Ev ClaimRequest Nat)
    (pubkey : PublicKey) (tenant : TenantId) :
    accountRows pubkey tenant ((claimSystem w).step c e).state = accountRows pubkey tenant c.state ∨
      ∃ i t hash, e = .exec i ∧ c.threads[i]? = some t ∧ t.next? = some (.claimAccount pubkey) ∧
        t.req.tenant = tenant ∧
        w.bcryptHash t.req.form.password = .ok hash ∧
        accountRows pubkey tenant ((claimSystem w).step c e).state =
          updateWhere (·.email.isNone) (claimed (w.toLowercase t.req.form.email) hash)
            (accountRows pubkey tenant c.state) := by
  cases e with
  | spawn r => exact .inl rfl
  | env d => exact .inl rfl
  | exec i =>
    rcases hc.exec_cases (claimSystem w) i with ⟨hidle, -⟩ | ⟨t, l, ht, hl, hmove⟩
    · rw [hidle]
      exact .inl rfl
    · rcases hmove.rows pubkey tenant with hsame | ⟨htenant, rfl, hash, hhash, hrows⟩
      · exact .inl hsame
      · exact .inr ⟨i, t, hash, rfl, ht, hl, htenant, hhash, hrows⟩

/-- From when it has an email an account stays as it is. -/
theorem claimed_stays (hc : System.Meets (ClaimMove w) (fun _ _ _ => True) c)
    (hclaimed : ∀ u ∈ accountRows pubkey tenant c.state, u.email.isNone = false)
    (es : List (Ev ClaimRequest Nat)) :
    accountRows pubkey tenant (run (claimSystem w).step c es).state =
      accountRows pubkey tenant c.state := by
  induction es generalizing c with
  | nil => rfl
  | cons e es ih =>
    have hsame : accountRows pubkey tenant ((claimSystem w).step c e).state =
      accountRows pubkey tenant c.state := by
      rcases claimStep_rows hc e pubkey tenant with hsame | ⟨i, t, hash, -, -, -, -, -, hrows⟩
      · exact hsame
      · rw [hrows, updateWhere_eq_self hclaimed]
    rw [run_cons, ih (System.meets_step (claimPost_meets w) e hc) (by rwa [hsame]), hsame]

end Runs

/-- **A preloaded account is claimed once.** In every run of any number of claims, a step that
changes the row of an account is the `UPDATE` of one of them: it sets that request's email and
password where there was no email, and whatever happens later, also to that request, the row stays
as it is then. -/
theorem preloaded_account_claimed_once (w : Web) (s : State) (pubkey : PublicKey)
    (tenant : TenantId)
    (pre : List (Ev ClaimRequest Nat)) (e : Ev ClaimRequest Nat)
    (hchanged : accountRows pubkey tenant
      (run (claimSystem w).step (Conf.init s) (pre ++ [e])).state ≠
      accountRows pubkey tenant (run (claimSystem w).step (Conf.init s) pre).state) :
    (∃ i t hash, e = .exec i ∧ (run (claimSystem w).step (Conf.init s) pre).threads[i]? = some t ∧
      t.next? = some (.claimAccount pubkey) ∧ t.req.tenant = tenant ∧
      w.bcryptHash t.req.form.password = .ok hash ∧
      accountRows pubkey tenant (run (claimSystem w).step (Conf.init s) (pre ++ [e])).state =
        updateWhere (·.email.isNone) (claimed (w.toLowercase t.req.form.email) hash)
          (accountRows pubkey tenant (run (claimSystem w).step (Conf.init s) pre).state)) ∧
    ∀ post, accountRows pubkey tenant
      (run (claimSystem w).step (Conf.init s) (pre ++ [e] ++ post)).state =
      accountRows pubkey tenant (run (claimSystem w).step (Conf.init s) (pre ++ [e])).state := by
  have hmeets : ∀ es,
    System.Meets (ClaimMove w) (fun _ _ _ => True) (run (claimSystem w).step (Conf.init s) es) :=
    fun es => System.meets_run (claimPost_meets w) fun _ ht => nomatch ht
  have hlast : run (claimSystem w).step (Conf.init s) (pre ++ [e]) =
      (claimSystem w).step (run (claimSystem w).step (Conf.init s) pre) e := run_append _ _ _ _
  rcases claimStep_rows (hmeets pre) e pubkey tenant with
    hsame | ⟨i, t, hash, he, ht, hl, htenant, hhash, hrows⟩
  · rw [hlast] at hchanged
    exact absurd hsame hchanged
  rw [← hlast] at hrows
  refine ⟨⟨i, t, hash, he, ht, hl, htenant, hhash, hrows⟩, fun post => ?_⟩
  rw [run_append]
  refine claimed_stays (hmeets _) (fun u hu => ?_) post
  rw [hrows] at hu
  rcases mem_updateWhere.mp hu with ⟨u₀, -, -, rfl⟩ | ⟨-, hemail⟩
  · rfl
  · exact hemail

/-! Two tokens are live for one account. The request that claims it fails after its `UPDATE`, since
there is no server key; the other one finds nothing to claim. -/

def claimWeb : Web := { Web.symbolic [] [] with serverNsec := none }

def preloadedRows : Db where
  users := [{ pubkey := "p", tenantId := 1, vineId := some "v" }]
  claimTokens := [⟨"one", "p", 1, 1000, none⟩, ⟨"two", "p", 1, 1000, none⟩]

def claimWith (token email : String) : ClaimRequest :=
  ⟨1, ⟨token, email, "long enough", "long enough"⟩⟩

def claimsBefore : List (Ev ClaimRequest Nat) :=
  [.spawn (claimWith "one" "a@example.com"), .spawn (claimWith "two" "b@example.com"), .exec 0,
    .exec 1, .exec 0, .exec 1]

def claimsAfter : List (Ev ClaimRequest Nat) := [.exec 1, .exec 0]

theorem preloaded_account_claimed_once_of_two :
    ((run (claimSystem claimWeb).step (Conf.init (.boot preloadedRows 0))
      (claimsBefore ++ [.exec 0] ++ claimsAfter)).threads.map fun t => t.result?.map (·.isOk)) =
        [some false, some false] ∧
    accountRows "p" 1 (run (claimSystem claimWeb).step (Conf.init (.boot preloadedRows 0))
      (claimsBefore ++ [.exec 0] ++ claimsAfter)).state =
        accountRows "p" 1 (run (claimSystem claimWeb).step (Conf.init (.boot preloadedRows 0))
          (claimsBefore ++ [.exec 0])).state :=
  ⟨by decide, (preloaded_account_claimed_once claimWeb (.boot preloadedRows 0) "p" 1
    claimsBefore (.exec 0)
    (by decide)).2 claimsAfter⟩

end Keycast.Http
