import Mathlib.Data.List.Nodup
import Keycast.Http.TokenServer
import Keycast.Lib.Histories

/-!
# `Http/SingleUse.lean` — how often a code and a refresh token can be used

A refresh token is used once, in every interleaving: the statement that accepts it also marks it,
and nothing unmarks it. A code is used once if every `DELETE` of it finds it: two requests that have
both looked the code up before either of them deletes it both go on, since the second `DELETE`
succeeds with nothing to delete. Completing a registration is different. There the code's deletion
is in one transaction with the insertion of the user, and the user can be inserted once.

Both halves keep books (`System.Ledger`). For codes a unit is a stored row: under the condition
whatever uses a code up takes one away (`codes_ledger`), the primary key says that there is at most
one, and a request that gets as far as an authorization has used its code up. For refresh tokens a
unit is a row that could be accepted; an accepting statement takes one away, and a request can put
in one, of the token it drew (`tokens_ledger`, `FreshTokens.le_one`). A token that is dead and in
the table leaves none (`DeadToken.live`).

That a grant has stored what it returns is read off the run. Its history says that it created one
token (`issued_step` for a statement), and `issuedOne` finds the place of the run where that
statement was executed, with the table before and after it.
-/

set_option autoImplicit false

namespace Keycast.Http

open Lib

/-! ## Codes -/

/-- The request presented the code, and answered with tokens or got as far as creating an
authorization. -/
def Issued (code : String) (t : Thread TokenCall Stmt State OAuthError TokenResponse) : Prop :=
  t.req.Presents code ∧
    ((∃ response, t.result? = some (.ok response)) ∨ ∃ s, (.createOAuth, s) ∈ t.seen)

/-- At most one of the requests so far has. -/
def CodeUsedOnce (code : String) (c : TokenServer) : Prop :=
  ∀ (i j : Nat) (t u), c.threads[i]? = some t → c.threads[j]? = some u → Issued code t →
    Issued code u → i = j

/-- The statement is a `DELETE` of the code that does not find it. -/
def deletesInVain (code : String) : Stmt → State → Bool
  | .deleteCode tenant c, s =>
    c == code && !s.db.oauthCodes.any fun row => row.tenantId == tenant && row.code == code
  | _, _ => false

/-- The condition on a statement: a `DELETE` of the code finds it. -/
def StillStored (code : String) (l : Stmt) (s : State) : Prop := deletesInVain code l s = false

instance StillStored.decidable (code : String) (l : Stmt) (s : State) :
    Decidable (StillStored code l s) :=
  inferInstanceAs (Decidable (_ = _))

/-- The code is the primary key. -/
def CodesUnique (s : State) : Prop := (s.db.oauthCodes.map (·.code)).Nodup

/-- What the system does to codes and users: codes go, users stay, and a registration goes only when
its user is there. -/
structure CodesGo (s s' : State) : Prop where
  codes : s'.db.oauthCodes.Sublist s.db.oauthCodes
  users : ∀ u ∈ s.db.users, u ∈ s'.db.users
  registrations : ∀ c ∈ s.db.oauthCodes, c.pendingEmail.isSome = true →
    c ∈ s'.db.oauthCodes ∨ ∃ u ∈ s'.db.users, u.pubkey = c.userPubkey

theorem CodesGo.of_eq {s s' : State} (hcodes : s'.db.oauthCodes = s.db.oauthCodes)
    (husers : s'.db.users = s.db.users) : CodesGo s s' := by
  refine ⟨?_, fun u hu => ?_, fun c hc _ => .inl ?_⟩
  · rw [hcodes]
  · rw [husers]
    exact hu
  · rw [hcodes]
    exact hc

theorem CodesGo.trans {a b c : State} (h : CodesGo a b) (h' : CodesGo b c) : CodesGo a c := by
  refine ⟨h'.codes.trans h.codes, fun u hu => h'.users u (h.users u hu), fun row hrow hp => ?_⟩
  rcases h.registrations row hrow hp with hb | ⟨u, hu, hpubkey⟩
  · exact h'.registrations row hb hp
  · exact .inr ⟨u, h'.users u hu, hpubkey⟩

theorem CodesUnique.go {s s' : State} (hs : CodesUnique s) (h : CodesGo s s') : CodesUnique s' :=
  (h.codes.map _).nodup hs

section Codes

variable {w : Web} {r : TokenCall} {seen : List (Stmt × State)} {s s' : State} {code : String}

/-- A row with a code that was looked up is the row that was found. -/
theorem Found.unique {row : OAuthCode} (h : Found r code row seen)
    (hseen : ∀ x ∈ seen, CodesUnique x.2 ∧ CodesGo x.2 s) :
    (row.code = code ∧ row.tenantId = r.tenant) ∧
      (∀ c ∈ s.db.oauthCodes, c.code = code → c = row) ∧
      (row.pendingEmail.isSome = true →
        row ∈ s.db.oauthCodes ∨ ∃ u ∈ s.db.users, u.pubkey = row.userPubkey) := by
  obtain ⟨s₀, hmem, hrow⟩ := h
  obtain ⟨hunique, hgo⟩ := hseen _ hmem
  have hp := List.find?_some hrow
  simp only [Bool.and_eq_true, beq_iff_eq] at hp
  have hrow₀ := List.mem_of_find?_eq_some hrow
  refine ⟨⟨hp.1.2, hp.1.1⟩, fun c hc hcode => ?_, hgo.registrations row hrow₀⟩
  exact List.inj_on_of_nodup_map hunique (hgo.codes.subset hc) hrow₀ (hcode.trans hp.1.2.symm)

/-- A row that is not one of the deleted stays. -/
theorem mem_deleteCode {db : Db} {tenant : TenantId} {c : OAuthCode} (hc : c ∈ db.oauthCodes)
    (hne : c.code ≠ code) : c ∈ (db.deleteCode tenant code).oauthCodes := by
  refine List.mem_filter.mpr ⟨hc, ?_⟩
  simp [hne]

theorem step_codesGo {l : Stmt} (hseen : ∀ x ∈ seen, CodesUnique x.2 ∧ CodesGo x.2 s)
    (h : TokenStep w r l seen s s') : CodesGo s s' := by
  obtain ⟨heffect, hbefore⟩ := h
  cases l with
  | deleteCode tenant code =>
    obtain ⟨-, -, row, hfound, hnone⟩ := hbefore
    obtain ⟨-, hunique, -⟩ := hfound.unique hseen
    obtain rfl := heffect
    refine ⟨List.filter_sublist, fun u hu => hu,
      fun c hc hp => .inl (mem_deleteCode hc fun hcode => ?_)⟩
    rw [hunique c hc hcode, hnone] at hp
    cases hp
  | finalizeRegistration tenant code user email =>
    obtain ⟨-, -, row, hfound, huser, -⟩ := hbefore
    obtain ⟨-, hunique, -⟩ := hfound.unique hseen
    rcases heffect with ⟨rfl, -⟩ | ⟨-, new, key, hnew, rfl⟩
    · exact .of_eq rfl rfl
    · refine ⟨List.filter_sublist, fun u hu => List.mem_append_left _ hu, fun c hc _ => ?_⟩
      by_cases hcode : c.code = code
      · refine .inr ⟨new, List.mem_append_right _ (List.mem_singleton.mpr rfl), ?_⟩
        rw [hunique c hc hcode, huser, hnew]
      · exact .inl (mem_deleteCode hc hcode)
  | createRefreshToken hash authorization =>
    obtain ⟨tenant, ⟨-, h⟩ | ⟨db, hinsert, rfl⟩⟩ := heffect
    · exact .of_eq h.codes h.users
    · obtain ⟨rfl, -⟩ := Db.insertRefreshToken_eq hinsert
      exact .of_eq rfl rfl
  | consumeRefreshToken hash | revokeRefreshTokens authorization =>
    obtain rfl := heffect
    exact .of_eq rfl rfl
  | _ => exact .of_eq heffect.codes heffect.users

theorem tokenEnv_codesGo (e : TokenEnv) (s : State) : CodesGo s (tokenEnv e s) := by
  cases e <;> exact .of_eq rfl rfl

theorem codes_traced (w : Web) (code : String) :
    (tokenSystem w).Traces (StillStored code) (fun _ _ => True) (TokenStep w)
      (TokenPost w) CodesUnique
      CodesGo where
  prog := token_meets w
  refl _ := .of_eq rfl rfl
  trans _ _ _ := .trans
  exec hs hseen _ hstep := ⟨hs.go (step_codesGo hseen hstep), step_codesGo hseen hstep⟩
  env hs _ := ⟨hs.go (tokenEnv_codesGo _ _), tokenEnv_codesGo _ _⟩

/-- How often the code is stored. -/
def stored (code : String) (s : State) : Nat := s.db.oauthCodes.countP (·.code == code)

theorem stored_deleteCode_le (db : Db) (tenant : TenantId) (c code : String) :
    (db.deleteCode tenant c).oauthCodes.countP (·.code == code) ≤
      db.oauthCodes.countP (·.code == code) :=
  List.filter_sublist.countP_le

theorem stored_deleteCode_lt {db : Db} {tenant : TenantId} {row : OAuthCode}
    (hrow : row ∈ db.oauthCodes)
    (htenant : row.tenantId = tenant) (hcode : row.code = code) :
    (db.deleteCode tenant code).oauthCodes.countP (·.code == code) <
      db.oauthCodes.countP (·.code == code) := by
  show (List.filter _ _).countP _ < _
  rw [List.countP_filter]
  refine countP_lt (fun c hc => ?_) hrow (by simp [hcode]) (by simp [hcode, htenant])
  rw [Bool.and_eq_true] at hc
  exact hc.1

/-- Under the condition a code is used up only while it is stored, and is not stored any more
then. -/
theorem codes_ledger (w : Web) (code : String) :
    (tokenSystem w).Ledger (StillStored code) (fun _ _ => True) (TokenStep w) CodesUnique CodesGo
      (stored code) (usesUp code) fun _ _ => 0 := by
  refine ⟨fun {r l seen s s'} _ hseen hstored hstep => ?_, fun {e s} _ _ => ?_⟩
  · obtain ⟨heffect, hbefore⟩ := hstep
    rw [Nat.add_zero]
    have hquiet : s'.db.oauthCodes = s.db.oauthCodes → usesUp code l s = 0 →
        usesUp code l s + stored code s' ≤ stored code s := by
      intro hcodes hzero
      unfold stored
      rw [hcodes, hzero, Nat.zero_add]
    cases l with
    | deleteCode tenant c =>
      obtain rfl := heffect
      by_cases hc : c = code
      · subst hc
        have hfinds :
          s.db.oauthCodes.any (fun row => row.tenantId == tenant && row.code == c) = true := by
          simpa [StillStored, deletesInVain] using hstored
        obtain ⟨row, hrow, hp⟩ := List.any_eq_true.mp hfinds
        simp only [Bool.and_eq_true, beq_iff_eq] at hp
        have hlt := stored_deleteCode_lt hrow hp.1 hp.2
        simp only [usesUp, if_true]
        exact Nat.add_comm 1 _ ▸ hlt
      · simp only [usesUp, hc, if_false, Nat.zero_add]
        exact stored_deleteCode_le _ _ _ _
    | finalizeRegistration tenant c user email =>
      obtain ⟨htenant, -, row, hfound, huser, hemail⟩ := hbefore
      obtain ⟨⟨hrowCode, hrowTenant⟩, -, hthere⟩ := hfound.unique hseen
      rcases heffect with ⟨rfl, hclash⟩ | ⟨hfree, new, key, -, rfl⟩
      · refine hquiet rfl ?_
        simp [usesUp, hclash]
      · by_cases hc : c = code
        · subst hc
          -- were the code gone, its user would be there and the insertion refused
          have hrow : row ∈ s.db.oauthCodes := by
            rcases hthere (by rw [hemail]; rfl) with hrow | ⟨u, hu, hpubkey⟩
            · exact hrow
            · have hclash : s.db.users.any (Db.conflicts (registered tenant user email)) = true :=
                List.any_eq_true.mpr ⟨u, hu, by simp [Db.conflicts, registered, hpubkey, huser]⟩
              rw [hfree] at hclash
              cases hclash
          have hlt := stored_deleteCode_lt hrow (hrowTenant.trans htenant.symm) hrowCode
          simp only [usesUp, hfree, and_self, if_true]
          exact Nat.add_comm 1 _ ▸ hlt
        · simp only [usesUp, hc, false_and, if_false, Nat.zero_add]
          exact stored_deleteCode_le _ _ _ _
    | createRefreshToken hash authorization =>
      obtain ⟨tenant, ⟨-, h⟩ | ⟨db, hinsert, rfl⟩⟩ := heffect
      · exact hquiet h.codes rfl
      · obtain ⟨rfl, -⟩ := Db.insertRefreshToken_eq hinsert
        exact hquiet rfl rfl
    | consumeRefreshToken hash | revokeRefreshTokens authorization =>
      obtain rfl := heffect
      exact hquiet rfl rfl
    | _ => exact hquiet heffect.codes rfl
  · cases e <;> exact le_rfl

/-- A request that gets as far as an authorization has used its code up. -/
theorem one_le_tally_of_issued {hash : String} {es : List (Ev TokenCall TokenEnv)}
    (hs : CodesUnique s)
    (hok : Along (tokenSystem w).step
      (System.Allowed (StillStored hash) fun _ _ => True) (.init s) es)
    {t : Thread TokenCall Stmt State OAuthError TokenResponse}
    (ht : t ∈ (run (tokenSystem w).step (.init s) es).threads) (h : Issued code t) :
    1 ≤ tally (usesUp code) t.seen := by
  obtain ⟨hpresents, ⟨response, hresult⟩ | ⟨s₁, hmem⟩⟩ := h
  · have hmeets := ((codes_traced w hash).run (System.traced_init hs) hok).meets
    exact (hmeets.result ht hresult).1 code hpresents
  · refine (codes_traced w hash).history
      (K := fun r seen => ∀ s₁, (.createOAuth, s₁) ∈ seen → r.Presents code →
        1 ≤ tally (usesUp code) seen)
      (fun _ _ hx => nomatch hx) (fun {r l seen s₂ s'} hK _ _ hstep s₁ hx hcode => ?_) hs
        hok ht s₁ hmem
      hpresents
    rw [tally_cons]
    rcases List.mem_cons.mp hx with heq | hx
    · obtain rfl : Stmt.createOAuth = l := congrArg Prod.fst heq
      exact Nat.le_add_left_of_le (hstep.2 code hcode)
    · exact Nat.le_add_left_of_le (hK s₁ hx hcode)

end Codes

/-- **A code is used once**, in every interleaving in which each `DELETE` of it finds it. -/
theorem code_used_once {w : Web} {s : State} (hs : CodesUnique s) {code : String}
    {es : List (Ev TokenCall TokenEnv)}
    (hok : Along (tokenSystem w).step (System.Allowed (StillStored code) fun _ _ => True)
      (.init s) es) :
    CodeUsedOnce code (run (tokenSystem w).step (.init s) es) := by
  have hspent := (codes_ledger w code).spent_le (codes_traced w code) (fun _ => 0)
    (fun _ h => by simpa using h) hs hok
  have hstored : stored code s ≤ 1 := countP_le_one hs code
  have hone : (run (tokenSystem w).step (.init s) es).tally (usesUp code) ≤ 1 := by
    have hnone : ((System.spawned es).map fun _ => 0).sum = 0 := by simp
    omega
  intro i j t u ht hu hissued hissued'
  exact Conf.eq_of_tally_le_one hone ht hu
    (one_le_tally_of_issued hs hok (List.mem_of_getElem? ht) hissued)
    (one_le_tally_of_issued hs hok (List.mem_of_getElem? hu) hissued')

/-! One code, and two requests that carry it. -/

def codeWeb : Web := .symbolic [] []

def codeState : State := .boot
  { users := [{ pubkey := "user", tenantId := 1, email := some "user@example.com" }]
    personalKeys := [⟨"user", 1, "sk"⟩]
    oauthCodes := [{ tenantId := 1, code := "code", userPubkey := "user", clientId := "app",
                     redirectUri := "app.example", scope := "policy:social", expiresAt := 600 }]
    policies := [{ id := 1, slug := some "social" }] } 0

theorem codeState_unique : CodesUnique codeState := List.nodup_singleton _

/-- Requests that differ in what they draw. -/
def codeRequest (id : RowId) (refreshToken : String) : TokenCall :=
  { inst := 0, tenant := 1, drawn := ⟨some ⟨"secret", "hash"⟩, id, refreshToken, refreshToken⟩,
    req := { code := some "code", clientId := "app", redirectUri := some "app.example" } }

/-- The second request comes when the first is done. -/
def oneAfterTheOther : List (Ev TokenCall TokenEnv) :=
  .spawn (codeRequest 1 "refresh-1") :: List.replicate 9 (.exec 0) ++
    .spawn (codeRequest 2 "refresh-2") :: List.replicate 9 (.exec 1)

/-- Both look the code up before either deletes it. -/
def bothAtOnce : List (Ev TokenCall TokenEnv) :=
  [.spawn (codeRequest 1 "refresh-1"), .spawn (codeRequest 2 "refresh-2"), .exec 0, .exec 1] ++
    List.replicate 8 (.exec 0) ++ List.replicate 8 (.exec 1)

def answered (t : Thread TokenCall Stmt State OAuthError TokenResponse) : Bool :=
  match t.result? with
  | some (.ok _) => decide (t.req.Presents "code")
  | _ => false

theorem issued_of_answered {t : Thread TokenCall Stmt State OAuthError TokenResponse}
    (h : answered t = true) : Issued "code" t := by
  unfold answered at h
  split at h
  · next response hresult => exact ⟨of_decide_eq_true h, .inl ⟨response, hresult⟩⟩
  · cases h

theorem code_used_once_in_turn :
    ((run (tokenSystem codeWeb).step (.init codeState) oneAfterTheOther).threads.map answered) =
        [true, false] ∧
      CodeUsedOnce "code" (run (tokenSystem codeWeb).step (.init codeState) oneAfterTheOther) :=
  ⟨by decide, code_used_once codeState_unique (by decide)⟩

/-- **Two requests at once both get tokens for one code.** -/
theorem code_used_twice :
    CodesUnique codeState ∧
      ¬ CodeUsedOnce "code" (run (tokenSystem codeWeb).step (.init codeState) bothAtOnce) := by
  refine ⟨codeState_unique, fun honce => ?_⟩
  obtain ⟨t, ht, hpt⟩ := Conf.exists_thread (p := answered) (i := 0)
    (c := run (tokenSystem codeWeb).step (.init codeState) bothAtOnce) (by decide)
  obtain ⟨u, hu, hpu⟩ := Conf.exists_thread (p := answered) (i := 1)
    (c := run (tokenSystem codeWeb).step (.init codeState) bothAtOnce) (by decide)
  exact absurd (honce 0 1 t u ht hu (issued_of_answered hpt) (issued_of_answered hpu)) (by decide)

/-! ## Refresh tokens -/

/-- The row a consumption would accept. -/
def valid (now : Timestamp) (hash : String) (t : RefreshToken) : Bool :=
  t.tokenHash == hash && t.consumedAt.isNone && decide (now < t.expiresAt)

/-- How often a statement accepts the token. -/
def accepts (hash : String) : Stmt → State → Nat
  | .consumeRefreshToken h, s =>
    if h = hash ∧ (s.db.consumeRefreshToken s.now h).1.isSome = true then 1 else 0
  | _, _ => 0

/-- The token is in the table and was consumed, which is also what a revocation does to it, or has
expired. -/
def DeadToken (hash : String) (s : State) : Prop :=
  ∃ t ∈ s.db.refreshTokens, t.tokenHash = hash ∧ (t.consumedAt.isSome = true ∨ t.expiresAt ≤ s.now)

/-- Refresh tokens are drawn once: their hashes differ from each other, and from those in the
table. -/
structure FreshTokens (w : Web) (s : State) (es : List (Ev TokenCall TokenEnv)) : Prop where
  table : (s.db.refreshTokens.map (·.tokenHash)).Nodup
  drawn : ((System.spawned es).map fun r => w.sha256 r.drawn.refreshToken).Nodup
  new : ∀ r ∈ System.spawned es, ∀ t ∈ s.db.refreshTokens,
    t.tokenHash ≠ w.sha256 r.drawn.refreshToken

/-- What identifies a row of the table, and what it is for. -/
def tokenLink (t : RefreshToken) : String × RowId := (t.tokenHash, t.authorizationId)

/-- The `i`-th request has stored the token it returns: one of its statements put the row in the
table, unconsumed and for the authorization in the answer, and none of its other statements put a
row there. -/
def IssuedOne (w : Web) (s : State) (es : List (Ev TokenCall TokenEnv)) (i : Nat)
    (response : TokenResponse) : Prop :=
  ∃ pre post row, es = pre ++ .exec i :: post ∧
    (run (tokenSystem w).step (.init s) (pre ++ [.exec i])).state.db.refreshTokens =
      (run (tokenSystem w).step (.init s) pre).state.db.refreshTokens ++ [row] ∧
    row.tokenHash = w.sha256 response.refreshToken ∧
    row.authorizationId = response.authorizationId ∧
    row.consumedAt = none ∧
    row.expiresAt = (run (tokenSystem w).step (.init s) pre).state.now +
      hours (refreshTokenExpiryDays * 24) ∧
    ∀ pre' post', es = pre' ++ .exec i :: post' → pre' ≠ pre →
      (run (tokenSystem w).step (.init s) (pre' ++ [.exec i])).state.db.refreshTokens.map
        tokenLink =
        (run (tokenSystem w).step (.init s) pre').state.db.refreshTokens.map tokenLink

/-- **What is asked of refresh tokens**, over a whole run: each is accepted at most once; once it is
consumed, revoked or expired it is not accepted any more; and a grant that succeeds has put one new
token in the table, which it returns, for the authorization of the one it consumed. -/
structure TokensSingleUse (w : Web) (s : State) (es : List (Ev TokenCall TokenEnv)) : Prop where
  once : ∀ hash, (run (tokenSystem w).step (.init s) es).tally (accepts hash) ≤ 1
  dead : ∀ hash pre post, es = pre ++ post →
    DeadToken hash (run (tokenSystem w).step (.init s) pre).state →
    (run (tokenSystem w).step (.init s) es).tally (accepts hash) =
      (run (tokenSystem w).step (.init s) pre).tally (accepts hash)
  rotated : ∀ (i : Nat) t, (run (tokenSystem w).step (.init s) es).threads[i]? = some t →
    t.req.grantType = "refresh_token" →
    ∀ response, t.result? = some (.ok response) → IssuedOne w s es i response ∧
      ∃ record, Consumed w t.req record t.seen ∧ record.authorizationId = response.authorizationId

section Tokens

variable {w : Web} {r : TokenCall} {seen : List (Stmt × State)} {s s' : State} {hash : String}

/-- How many rows could be accepted, and how many there are. -/
def liveTokens (hash : String) (s : State) : Nat := s.db.refreshTokens.countP (valid s.now hash)

def presentTokens (hash : String) (s : State) : Nat :=
  s.db.refreshTokens.countP (·.tokenHash == hash)

/-- What a statement, or the environment, may do to the table: nothing, insert a token if it mints
one (`n`), consume some or delete some. -/
inductive TokensMove (hash : String) (n : Nat) (s s' : State) : Prop
  | same (hnow : s.now ≤ s'.now) (h : s'.db.refreshTokens = s.db.refreshTokens)
  | insert (t : RefreshToken) (hn : t.tokenHash = hash → 1 ≤ n) (hnow : s'.now = s.now)
      (h : s'.db.refreshTokens = s.db.refreshTokens ++ [t])
  | consume (p : RefreshToken → Bool) (hnow : s'.now = s.now)
    (h : s'.db = s.db.updateRefreshTokens p s.now)
  | delete (p : RefreshToken → Bool) (hnow : s'.now = s.now)
      (h : s'.db.refreshTokens = s.db.refreshTokens.filter p)

theorem valid_mono {now now' : Timestamp} (h : now ≤ now') {t : RefreshToken}
    (hv : valid now' hash t = true) : valid now hash t = true := by
  simp only [valid, Bool.and_eq_true, decide_eq_true_eq] at hv ⊢
  exact ⟨hv.1, Int.lt_of_le_of_lt h hv.2⟩

theorem valid_hash {now : Timestamp} {t : RefreshToken} (hv : valid now hash t = true) :
    t.tokenHash = hash := by
  simp only [valid, Bool.and_eq_true, beq_iff_eq] at hv
  exact hv.1.1

theorem TokensMove.live {n : Nat} (h : TokensMove hash n s s') :
    liveTokens hash s' ≤ liveTokens hash s + n := by
  unfold liveTokens
  cases h with
  | same hnow h =>
    rw [h]
    exact Nat.le_add_right_of_le (List.countP_mono_left fun t _ hv => valid_mono hnow hv)
  | insert t hn hnow h =>
    rw [h, hnow, List.countP_append, List.countP_singleton]
    refine Nat.add_le_add_left ?_ _
    split
    · next hv => exact hn (valid_hash hv)
    · exact Nat.zero_le n
  | consume p hnow h =>
    rw [h, hnow]
    exact Nat.le_add_right_of_le (countP_updateWhere_le (fun t _ hv => by simp [valid] at hv) _)
  | delete p hnow h =>
    rw [h, hnow]
    exact Nat.le_add_right_of_le List.filter_sublist.countP_le

theorem TokensMove.present {n : Nat} (h : TokensMove hash n s s') :
    presentTokens hash s' ≤ presentTokens hash s + n := by
  unfold presentTokens
  cases h with
  | same hnow h =>
    rw [h]
    exact Nat.le_add_right _ n
  | insert t hn hnow h =>
    rw [h, List.countP_append, List.countP_singleton]
    refine Nat.add_le_add_left ?_ _
    split
    · next ht => exact hn (by simpa using ht)
    · exact Nat.zero_le n
  | consume p hnow h =>
    rw [h]
    refine Nat.le_add_right_of_le (countP_updateWhere_le ?_ _)
    intro t _ ht
    exact ht
  | delete p hnow h =>
    rw [h]
    exact Nat.le_add_right_of_le List.filter_sublist.countP_le

theorem step_tokensMove {l : Stmt} (h : TokenStep w r l seen s s') :
    TokensMove hash (inserts hash l s) s s' := by
  obtain ⟨heffect, -⟩ := h
  cases l with
  | deleteCode tenant code =>
    obtain rfl := heffect
    exact .same (Int.le_refl _) rfl
  | finalizeRegistration tenant code user email =>
    rcases heffect with ⟨rfl, -⟩ | ⟨-, new, key, -, rfl⟩
    · exact .same (Int.le_refl _) rfl
    · exact .same (Int.le_refl _) rfl
  | createRefreshToken h authorization =>
    obtain ⟨tenant, ⟨-, h⟩ | ⟨db, hinsert, rfl⟩⟩ := heffect
    · exact .same (Int.le_of_eq h.now.symm) h.tokens
    · obtain ⟨rfl, -⟩ := Db.insertRefreshToken_eq hinsert
      refine .insert _ (fun heq => ?_) rfl rfl
      exact (if_pos (show h = hash from heq)).ge
  | consumeRefreshToken h | revokeRefreshTokens authorization =>
    obtain rfl := heffect
    exact .consume _ rfl rfl
  | _ => exact .same (Int.le_of_eq heffect.now.symm) heffect.tokens

theorem tokenEnv_tokensMove (e : TokenEnv) (s : State) : TokensMove hash 0 s (tokenEnv e s) := by
  cases e with
  | tick d => exact .same (Int.le_add_of_nonneg_right (Int.natCast_nonneg d)) rfl
  | revokeForAuthorization id => exact .consume _ rfl rfl
  | cleanupOldTokens daysOld => exact .delete _ rfl rfl
  | deleteAuthorizationsOf user => exact .delete _ rfl rfl
  | others db => exact .same (Int.le_refl _) rfl

theorem tokens_traced (w : Web) :
    (tokenSystem w).Traces (fun _ _ => True) (fun _ _ => True) (TokenStep w) (TokenPost w)
      (fun _ => True)
      fun _ _ => True where
  prog := token_meets w
  refl _ := trivial
  trans _ _ _ _ _ := trivial
  exec _ _ _ _ := ⟨trivial, trivial⟩
  env _ _ := ⟨trivial, trivial⟩

/-- A token is accepted only while its row is valid, and then it is not any more. -/
theorem tokens_ledger (w : Web) (hash : String) :
    (tokenSystem w).Ledger (fun _ _ => True) (fun _ _ => True) (TokenStep w) (fun _ => True)
      (fun _ _ => True) (liveTokens hash) (accepts hash) (inserts hash) := by
  refine ⟨fun {r l seen s s'} _ _ _ hstep => ?_, fun {e s} _ _ => (tokenEnv_tokensMove e s).live⟩
  by_cases haccepts : accepts hash l s = 0
  · rw [haccepts, Nat.zero_add]
    exact (step_tokensMove hstep).live
  · cases l with
    | consumeRefreshToken h =>
      have hfound : h = hash ∧ (s.db.consumeRefreshToken s.now h).1.isSome = true := by
        by_contra hnot
        exact haccepts (if_neg hnot)
      obtain ⟨rfl, hsome⟩ := hfound
      obtain ⟨t, ht⟩ := Option.isSome_iff_exists.mp hsome
      obtain rfl : s' = s.withDb (s.db.consumeRefreshToken s.now h).2 := hstep.1
      have hone : accepts h (.consumeRefreshToken h) s = 1 := if_pos ⟨rfl, hsome⟩
      have hlt : liveTokens h (s.withDb (s.db.consumeRefreshToken s.now h).2) < liveTokens h s := by
        show (updateWhere _ _ _).countP _ < _
        rw [updateWhere, List.countP_map]
        refine countP_lt (fun t hv => ?_) (List.mem_of_find?_eq_some ht) (List.find?_some ht) ?_
        · simp only [Function.comp] at hv
          split at hv
          · simp [valid] at hv
          · exact hv
        · simp only [Function.comp]
          rw [if_pos (List.find?_some ht)]
          simp [valid]
      rw [hone]
      omega
    | _ => exact absurd rfl haccepts


theorem present_ledger (w : Web) (hash : String) :
    (tokenSystem w).Ledger (fun _ _ => True) (fun _ _ => True) (TokenStep w) (fun _ => True)
      (fun _ _ => True) (presentTokens hash) (fun _ _ => 0) (inserts hash) := by
  refine ⟨fun {r l seen s s'} _ _ _ hstep => ?_, fun {e s} _ _ => (tokenEnv_tokensMove e s).present⟩
  rw [Nat.zero_add]
  exact (step_tokensMove hstep).present

/-- A request inserts the token it drew, and no other. -/
def draws (w : Web) (hash : String) (r : TokenCall) : Nat :=
  if w.sha256 r.drawn.refreshToken = hash then 1 else 0

theorem step_draws {l : Stmt} (h : TokenStep w r l seen s s')
    (hle : tally (inserts hash) seen ≤ draws w hash r) :
    inserts hash l s + tally (inserts hash) seen ≤ draws w hash r := by
  cases l with
  | createRefreshToken h' authorization =>
    obtain ⟨-, rfl, hcreated, -⟩ := h
    have hnone : tally (inserts hash) seen = 0 := by
      refine tally_eq_zero fun x hx => ?_
      have hnot := List.filter_eq_nil_iff.mp hcreated x hx
      obtain ⟨l, s⟩ := x
      cases l <;> first | rfl | exact absurd rfl hnot
    rw [hnone]
    exact Nat.le_refl _
  | _ =>
    rw [inserts, Nat.zero_add]
    · exact hle
    · simp

/-- The table and the requests together have at most one token of a hash to offer. -/
theorem FreshTokens.le_one {es : List (Ev TokenCall TokenEnv)} (h : FreshTokens w s es)
    (hash : String) :
    presentTokens hash s + ((System.spawned es).map (draws w hash)).sum ≤ 1 := by
  have hsum : ((System.spawned es).map (draws w hash)).sum =
      (System.spawned es).countP (fun r => w.sha256 r.drawn.refreshToken == hash) := sum_map_ite _
  have hdrawn := countP_le_one h.drawn hash
  have htable : presentTokens hash s ≤ 1 := countP_le_one h.table hash
  rw [hsum]
  by_cases hpresent : presentTokens hash s = 0
  · omega
  · obtain ⟨t, ht, heq⟩ := List.countP_pos_iff.mp (Nat.pos_of_ne_zero hpresent)
    have hnone :
      (System.spawned es).countP (fun r => w.sha256 r.drawn.refreshToken == hash) = 0 := by
      refine List.countP_eq_zero.mpr fun r hr hdraws => h.new r hr t ht ?_
      rw [beq_iff_eq] at heq hdraws
      exact heq.trans hdraws.symm
    omega

/-- A dead token that is in the table leaves none that could be accepted. -/
theorem DeadToken.live {n : Nat} (h : DeadToken hash s) (hn : presentTokens hash s ≤ n + 1) :
    liveTokens hash s ≤ n := by
  obtain ⟨t, ht, hhash, hdead⟩ := h
  have hlt : liveTokens hash s < presentTokens hash s := by
    refine countP_lt (fun t hv => ?_) ht (by simp [hhash]) ?_
    · rw [beq_iff_eq]
      exact valid_hash hv
    · rcases hdead with hconsumed | hexpired
      · rw [valid, Option.isNone_eq_false_iff.mpr hconsumed, Bool.and_false, Bool.false_and]
      · rw [valid, decide_eq_false (Int.not_lt.mpr hexpired), Bool.and_false]
  omega

end Tokens

theorem along_allowed (w : Web) (c : TokenServer) (es : List (Ev TokenCall TokenEnv)) :
    Along (tokenSystem w).step (System.Allowed (fun _ _ => True) fun _ _ => True) c es := by
  refine (Along.of_forall (P := fun _ => True) (fun _ _ => trivial) c).mono fun c e _ => ?_
  cases e with
  | spawn r => trivial
  | env e => trivial
  | exec i => exact fun _ _ _ _ => trivial

/-- A dead token was in the table, so no request still has it to insert. -/
theorem dead_not_accepted {w : Web} {s : State} {pre post : List (Ev TokenCall TokenEnv)}
    {hash : String}
    (hfresh : FreshTokens w s (pre ++ post))
    (hdead : DeadToken hash (run (tokenSystem w).step (.init s) pre).state) :
    (run (tokenSystem w).step (.init s) (pre ++ post)).tally (accepts hash) =
      (run (tokenSystem w).step (.init s) pre).tally (accepts hash) := by
  have htrue : (fun _ : State => True) s := trivial
  have hone := hfresh.le_one hash
  have hpresent : presentTokens hash (run (tokenSystem w).step (.init s) pre).state ≤ 1 := by
    have hle := (present_ledger w hash).spent_le (tokens_traced w) _ step_draws htrue
      (along_allowed w (.init s) pre)
    have hfewer : ((System.spawned pre).map (draws w hash)).sum ≤
        ((System.spawned (pre ++ post)).map (draws w hash)).sum := by
      simp [System.spawned]
    omega
  have hlive := Nat.le_zero.mp (hdead.live hpresent)
  have hthere : 1 ≤ presentTokens hash (run (tokenSystem w).step (.init s) pre).state := by
    obtain ⟨t, ht, hhash, -⟩ := hdead
    exact List.countP_pos_iff.mpr ⟨t, ht, by simp [hhash]⟩
  exact (tokens_ledger w hash).spent_no_more (present_ledger w hash) (tokens_traced w)
    step_draws htrue
    (along_allowed w (.init s) (pre ++ post)) hone hthere hlive

/-- A statement that creates no refresh token leaves the rows what they are for. -/
theorem link_step {w : Web} {r : TokenCall} {l : Stmt} {seen : List (Stmt × State)} {s s' : State}
    (h : TokenStep w r l seen s s') (hl : l.isCreateRefreshToken = false) :
    s'.db.refreshTokens.map tokenLink = s.db.refreshTokens.map tokenLink := by
  obtain ⟨heffect, -⟩ := h
  cases l with
  | createRefreshToken => cases hl
  | deleteCode tenant code =>
    obtain rfl := heffect
    rfl
  | finalizeRegistration tenant code user email =>
    rcases heffect with ⟨rfl, -⟩ | ⟨-, new, key, -, rfl⟩ <;> rfl
  | consumeRefreshToken hash | revokeRefreshTokens authorization =>
    obtain rfl := heffect
    refine map_updateWhere (fun t => ?_) _
    rfl
  | _ => rw [heffect.tokens]

/-- A statement that creates a refresh token is the first of its request to do so, and puts the row
in the table if it can. -/
theorem issued_step {w : Web} {r : TokenCall} {hash : String} {id : RowId}
    {seen : List (Stmt × State)}
    {s s' : State} (h : TokenStep w r (.createRefreshToken hash id) seen s s') {tenant : TenantId}
    (hcan : (s.db.insertRefreshToken (newToken hash id tenant s.now)).isSome = true) :
    creations seen = [] ∧ ∃ tenant, s'.db.refreshTokens =
      s.db.refreshTokens ++ [newToken hash id tenant s.now] := by
  obtain ⟨⟨tenant', heffect⟩, -, hfirst, -⟩ := h
  refine ⟨hfirst, tenant', ?_⟩
  rcases heffect with ⟨hnone, -⟩ | ⟨db, hinsert, rfl⟩
  · -- whether a row can be inserted does not depend on its tenant
    have hsame : (s.db.insertRefreshToken (newToken hash id tenant s.now)).isSome =
        (s.db.insertRefreshToken (newToken hash id tenant' s.now)).isSome := by
      unfold Db.insertRefreshToken newToken
      split <;> rfl
    rw [hsame, hnone] at hcan
    cases hcan
  · obtain ⟨rfl, -⟩ := Db.insertRefreshToken_eq hinsert
    rfl

/-- The request that succeeds has stored the token it returns, where the run executes the
statement. -/
theorem issuedOne {w : Web} {s : State} {es : List (Ev TokenCall TokenEnv)} {i : Nat}
    {t : Thread TokenCall Stmt State OAuthError TokenResponse}
    (ht : (run (tokenSystem w).step (.init s) es).threads[i]? = some t) {response : TokenResponse}
    (h : CreatedOne w t.req t.seen response) : IssuedOne w s es i response := by
  obtain ⟨s₀, hcreations, hcan⟩ := h
  have hmem :
    (Stmt.createRefreshToken (w.sha256 response.refreshToken) response.authorizationId, s₀) ∈
      t.seen := by
    have hin : _ ∈ creations t.seen := hcreations ▸ List.mem_singleton.mpr rfl
    exact (List.mem_filter.mp hin).1
  obtain ⟨pre, post, t₀, hes, hat, hnext, hpre, hstep⟩ :=
    System.Meets.executed (token_meets w) ht hmem
  obtain ⟨hfirst, tenant, hrow⟩ := issued_step hstep hcan
  refine ⟨pre, post,
    newToken (w.sha256 response.refreshToken) response.authorizationId tenant s₀.now,
    hes, hpre ▸ hrow, rfl, rfl, rfl, by rw [hpre]; rfl, fun pre' post' hes' hne => ?_⟩
  have hmeets :
    System.Meets (TokenStep w) (TokenPost w) (run (tokenSystem w).step (.init s) pre') :=
    System.meets_run (token_meets w) fun t ht => absurd ht (by simp [Conf.init])
  rw [run_append, run_cons, run_nil]
  rcases hmeets.exec_cases (tokenSystem w) i with ⟨hidle, -⟩ | ⟨t', l, hat', hnext', hstep'⟩
  · rw [hidle]
  · refine link_step hstep' (Bool.eq_false_iff.mpr fun hcreates => ?_)
    -- of two statements that create a token the later one finds the other among those executed
    have hnone : ∀ {seen x}, creations seen = [] → x ∈ seen →
      x.1.isCreateRefreshToken = true → False := by
      intro seen x hempty hx hcreate
      exact List.filter_eq_nil_iff.mp hempty x hx hcreate
    rcases System.executed_apart (tokenSystem w) (hes.symm.trans hes') hne hat hnext hat'
      hnext' with hx | hx
    · refine hnone ?_ hx rfl
      cases l with
      | createRefreshToken => exact hstep'.2.2.1
      | _ => cases hcreates
    · exact hnone hfirst hx hcreates

/-- **Refresh tokens are single-use**, in every interleaving of grants, revocations and
clean-ups. -/
theorem refresh_tokens_single_use {w : Web} {s : State} {es : List (Ev TokenCall TokenEnv)}
    (hfresh : FreshTokens w s es) : TokensSingleUse w s es := by
  have htrue : (fun _ : State => True) s := trivial
  have hok := along_allowed w (.init s) es
  refine ⟨fun hash => ?_, fun hash pre post hes hdead => ?_,
    fun i t ht hgrant response hresult => ?_⟩
  · have hspent := (tokens_ledger w hash).spent_le (tokens_traced w) _ step_draws htrue hok
    have hone := hfresh.le_one hash
    have hle : liveTokens hash s ≤ presentTokens hash s :=
      List.countP_mono_left fun t _ hv => by rw [beq_iff_eq]; exact valid_hash hv
    omega
  · subst hes
    exact dead_not_accepted hfresh hdead
  · have hpost := ((tokens_traced w).run (System.traced_init htrue) hok).meets.result
      (List.mem_of_getElem? ht) hresult
    exact ⟨issuedOne ht hpost.2.1, hpost.2.2 hgrant⟩

/-! One refresh token, presented twice at once, and its successor, which is revoked before it is
used. -/

def refreshState : State := .boot
  { users := [{ pubkey := "user", tenantId := 1, email := some "user@example.com" }]
    personalKeys := [⟨"user", 1, "sk"⟩]
    oauthAuthorizations :=
      [{ id := 1, tenantId := 1, userPubkey := "user", bunkerPublicKey := "pub:bunker",
                              redirectOrigin := "https://app.example", secretHash := "h" }]
    refreshTokens := [⟨"sha256:refresh-0", 1, 1, 600, none⟩] } 0

def refreshRequest (token drawn : String) : TokenCall :=
  { inst := 0, tenant := 1, drawn := ⟨none, 0, "handle", drawn⟩,
    req := { grantType := some "refresh_token", clientId := "app", refreshToken := some token } }

def refreshRace : List (Ev TokenCall TokenEnv) :=
  [.spawn (refreshRequest "refresh-0" "refresh-1"), .spawn (refreshRequest "refresh-0" "refresh-2"),
    .exec 0, .exec 1] ++ List.replicate 6 (.exec 0) ++
  [.env (.revokeForAuthorization 1), .spawn (refreshRequest "refresh-1" "refresh-3"), .exec 2]

theorem refreshRace_fresh : FreshTokens codeWeb refreshState refreshRace :=
  ⟨by decide, by decide, by decide⟩

theorem refresh_tokens_single_use_race :
    ((run (tokenSystem codeWeb).step (.init refreshState) refreshRace).threads.map
        fun t => t.result?.map (·.isOk)) = [some true, some false, some false] ∧
      (run (tokenSystem codeWeb).step (.init refreshState) refreshRace).state.db.refreshTokens.map
        tokenLink = [("sha256:refresh-0", 1), ("sha256:refresh-1", 1)] ∧
      TokensSingleUse codeWeb refreshState refreshRace :=
  ⟨by decide, by decide, refresh_tokens_single_use refreshRace_fresh⟩

end Keycast.Http
