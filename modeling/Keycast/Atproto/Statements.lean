import Keycast.Atproto.OAuth
import Keycast.Lib.Ledger

/-!
# `Atproto/Statements.lean` — what the endpoints do to a session

The walk over `par`, `authorize` and `token` that the results on single use and on stored sessions
share: what each statement does to the table, what its request has done before, and what a request
that answers with tokens has done in the end. The last statement of both grants is the one that
writes the new refresh token; the refresh grant looks at what it returns, the code grant does not.
-/

set_option autoImplicit false

namespace Keycast.Atproto

open Lib Http

/-- The provider serving any requests. -/
def provider (o : Provider) : System Request Stmt State AuthError Response EnvEvent where
  prog := handle o
  env := envStep

abbrev Pool := Conf Request Stmt State AuthError Response

/-! ## One statement -/

/-- A statement that a constraint may refuse. -/
def Tries (r : Option (Option Session × State)) (s s' : State) : Prop :=
  (r = none ∧ s' = s) ∨ ∃ row, r = some (row, s')

def Effect : Stmt → State → State → Prop
  | .createPar, s, s' => s' = s ∨ ∃ row : Session, row.authorizationCode = none ∧
      row.refreshTokenHash = none ∧ s' = s.withSessions (s.sessions ++ [row])
  | .approveRequest uri did, s, s' => ∃ user, s' = (s.approveRequest uri user did).2
  | .storeAuthorizationCode uri code expiresAt, s, s' =>
    Tries (s.storeAuthorizationCode uri code expiresAt) s s'
  | .consumeAuthorizationCode code, s, s' => s' = (s.consumeAuthorizationCode code).2
  | .storeTokenArtifacts uri tokens, s, s' => Tries (s.storeTokenArtifacts uri tokens) s s'
  | .rotateRefreshToken uri previous tokens, s, s' =>
    Tries (s.rotateRefreshToken uri previous tokens) s s'
  | .revokeSession uri, s, s' => s' = s.revokeSession uri
  | .revokeRefreshSession hash, s, s' => s' = s.revokeRefreshSession hash
  | _, s, s' => s' = s

/-- The statements that put a code or a refresh token into the table. -/
def Stmt.issues : Stmt → Bool
  | .storeAuthorizationCode .. | .storeTokenArtifacts .. | .rotateRefreshToken .. => true
  | _ => false

/-- What holds when a statement of the request is executed: it is the first that issues anything,
and issues what the request drew; the code that is written back has an expiry that was the time of
day. -/
def Before (o : Provider) (r : Request) (seen : List (Stmt × State)) : Stmt → Prop
  | .storeAuthorizationCode uri code _ =>
    (∃ headers, r = .authorize headers uri code) ∧ ∀ x ∈ seen, x.1.issues = false
  | .storeTokenArtifacts _ tokens =>
    (∃ req, r = .token req ∧ tokens.refreshTokenHash = o.hashRefreshToken req.newRefreshToken) ∧
      (∀ x ∈ seen, x.1.issues = false) ∧
      ∃ s, (.clock, s) ∈ seen ∧ tokens.authorizationCodeExpiresAt = s.now
  | .rotateRefreshToken _ _ tokens =>
    (∃ req, r = .token req ∧ tokens.refreshTokenHash = o.hashRefreshToken req.newRefreshToken) ∧
      ∀ x ∈ seen, x.1.issues = false
  | _ => True

/-- **What a statement of a request may do.** -/
def Step (o : Provider) (r : Request) (l : Stmt) (seen : List (Stmt × State))
    (s s' : State) : Prop :=
  Effect l s s' ∧ Before o r seen l

/-- How often a statement uses the code up. -/
def consumes (code : String) : Stmt → State → Nat
  | .consumeAuthorizationCode c, s =>
    if c = code ∧ (s.consumeAuthorizationCode c).1.isSome = true then 1 else 0
  | _, _ => 0

/-- The row that a statement has written a refresh token into, as the statement returns it. -/
def written : Stmt → State → Option Session
  | .storeTokenArtifacts uri tokens, s => (s.storeTokenArtifacts uri tokens).bind (·.1)
  | .rotateRefreshToken uri previous tokens, s =>
    (s.rotateRefreshToken uri previous tokens).bind (·.1)
  | _, _ => none

/-- How often it uses the refresh token up, given by its hash. -/
def rotates (hash : String) : Stmt → State → Nat
  | .rotateRefreshToken uri previous tokens, s =>
    if previous = hash ∧
      (written (.rotateRefreshToken uri previous tokens) s).isSome = true then 1 else 0
  | _, _ => 0

/-- The end of a grant that answers with tokens: its last statement, and what it has used up. -/
def Granted (o : Provider) (req : TokenRequest) (seen : List (Stmt × State)) : Prop :=
  ∃ l s rest, seen = (l, s) :: rest ∧
    ((req.grantType = "authorization_code" ∧
      (∃ code, req.code = some code ∧ 1 ≤ tally (consumes code) rest) ∧
        ∃ uri tokens, l = .storeTokenArtifacts uri tokens ∧
          tokens.refreshTokenHash = o.hashRefreshToken req.newRefreshToken ∧
          (s.storeTokenArtifacts uri tokens).isSome = true) ∨
      (req.grantType = "refresh_token" ∧
        ∃ token uri tokens, req.refreshToken = some token ∧
          l = .rotateRefreshToken uri (o.hashRefreshToken token) tokens ∧
          tokens.refreshTokenHash = o.hashRefreshToken req.newRefreshToken ∧
            (written l s).isSome = true))

def GrantPost (o : Provider) (r : Request) (seen : List (Stmt × State)) :
    Except AuthError Response → Prop
  | .ok (.token response) => ∃ req, r = .token req ∧ response.refreshToken = req.newRefreshToken ∧
      Granted o req seen
  | _ => True

/-! ## The walk -/

section Walk

variable {o : Provider} {r : Request} {seen : List (Stmt × State)}

abbrev Keep (o : Provider) (r : Request) (p : AtprotoM Response)
    (seen : List (Stmt × State)) : Prop :=
  p.Meets (Step o r) (GrantPost o r) seen

theorem keep_read {β : Type} {l : Stmt} {f : State → β} {g : β → AtprotoM Response}
    (hl : ∀ s, Step o r l seen s s)
    (h : ∀ s, Keep o r (g (f s)) ((l, s) :: seen)) : Keep o r ((Prog.read l f).bind g) seen :=
  Prog.Meets.read hl h

theorem keep_unique {β : Type} {l : Stmt} {f : State → Option (β × State)}
    {g : β → AtprotoM Response}
    (hnone : ∀ s, f s = none → Step o r l seen s s)
    (hsome : ∀ s b s', f s = some (b, s') → Step o r l seen s s' ∧
      Keep o r (g b) ((l, s) :: seen)) :
    Keep o r ((unique l f).bind g) seen := by
  rw [unique, Prog.bind_def, Prog.bind_assoc]
  refine Prog.Meets.stmt fun s => ?_
  cases hf : f s with
  | none => exact ⟨hnone s hf, trivial⟩
  | some x => exact hsome s x.1 x.2 hf

theorem par_keep (req : ParRequest) : Keep o r (par req) [] := by
  unfold par
  split
  · trivial
  · refine Prog.Meets.ofExcept (fun _ => trivial) fun jkt _ => ?_
    refine Prog.Meets.ofExcept (fun _ => trivial) fun binding _ => ?_
    refine Prog.Meets.ofExcept (fun _ => trivial) fun tenant _ => ?_
    refine keep_unique (fun s _ => ⟨.inl rfl, trivial⟩) fun s _ s' hcreate =>
      ⟨⟨.inr ?_, trivial⟩, trivial⟩
    obtain ⟨s₁, hs₁, heq⟩ := Option.map_eq_some_iff.mp hcreate
    cases heq
    unfold State.createPar at hs₁
    split at hs₁
    · cases hs₁
      exact ⟨_, rfl, rfl, rfl⟩
    · cases hs₁

theorem authorize_keep (headers : Headers) (uri code : String) :
    Keep o (.authorize headers uri code) (authorize o headers uri code) [] := by
  refine keep_read (fun s => ⟨rfl, trivial⟩) fun s₁ => ?_
  refine Prog.Meets.orErr trivial fun session _ => ?_
  refine keep_read (fun s => ⟨rfl, trivial⟩) fun s₂ => ?_
  split
  · trivial
  · refine Prog.Meets.ofExcept (fun _ => trivial) fun user _ => ?_
    cases user with
    | none => trivial
    | some user =>
      refine keep_read (fun s => ⟨rfl, trivial⟩) fun s₃ => ?_
      refine Prog.Meets.orErr trivial fun did _ => ?_
      refine Prog.Meets.stmt fun s₄ => ⟨⟨⟨user, rfl⟩, trivial⟩, ?_⟩
      refine Prog.Meets.orErr trivial fun _ _ => ?_
      refine keep_read (fun s => ⟨rfl, trivial⟩) fun s₅ => ?_
      have hbefore : Before o (.authorize headers uri code)
          [(.clock, s₅), (.approveRequest uri did, s₄), (.readyIdentity, s₃), (.clock, s₂),
            (.findByRequestUri, s₁)]
          (.storeAuthorizationCode uri code (s₅.now + minutes authCodeExpiryMinutes)) :=
        ⟨⟨headers, rfl⟩, by simp [Stmt.issues]⟩
      refine keep_unique (fun s hnone => ⟨.inl ⟨hnone, rfl⟩, hbefore⟩) fun s b s' hstore => ?_
      refine ⟨⟨.inr ⟨b, hstore⟩, hbefore⟩, ?_⟩
      refine Prog.Meets.orErr trivial fun _ _ => ?_
      exact Prog.Meets.ofExcept (fun _ => trivial) fun _ _ => trivial

theorem exchangeCode_keep {req : TokenRequest} (hgrant : req.grantType = "authorization_code") :
    Keep o (.token req) (exchangeCode o req) [] := by
  refine Prog.Meets.orErr trivial fun code hcode => ?_
  refine Prog.Meets.orErr trivial fun clientId _ => ?_
  refine Prog.Meets.orErr trivial fun redirectUri _ => ?_
  refine Prog.Meets.orErr trivial fun verifier _ => ?_
  refine keep_read (fun s => ⟨rfl, trivial⟩) fun s₁ => ?_
  refine Prog.Meets.orErr trivial fun session _ => ?_
  split
  · trivial
  · split
    · exact Prog.Meets.write fun s => ⟨⟨rfl, trivial⟩, trivial⟩
    · refine Prog.Meets.ofExcept (fun _ => trivial) fun _ _ => ?_
      refine Prog.Meets.ofExcept (fun _ => trivial) fun jkt _ => ?_
      refine Prog.Meets.stmt fun s₂ => ⟨⟨rfl, trivial⟩, ?_⟩
      refine Prog.Meets.orErr trivial fun row hrow => ?_
      refine Prog.Meets.orErr trivial fun sub _ => ?_
      refine Prog.Meets.ofExcept (fun _ => trivial) fun accessToken _ => ?_
      refine keep_read (fun s => ⟨rfl, trivial⟩) fun s₃ => ?_
      have hbefore : Before o (.token req)
          [(.clock, s₃), (.consumeAuthorizationCode code, s₂), (.findByCode, s₁)]
          (.storeTokenArtifacts session.requestUri (req.issue o code s₃.now jkt s₃.now)) :=
        ⟨⟨req, rfl, rfl⟩, by simp [Stmt.issues], s₃, List.mem_cons_self, rfl⟩
      have hused : 1 ≤ tally (consumes code)
          [(.clock, s₃), (.consumeAuthorizationCode code, s₂), (.findByCode, s₁)] := by
        simp [consumes, hrow]
      refine keep_unique (fun s hnone => ⟨.inl ⟨hnone, rfl⟩, hbefore⟩) fun s b s' hstore => ?_
      refine ⟨⟨.inr ⟨b, hstore⟩, hbefore⟩, req, rfl, rfl, _, _, _, rfl,
        .inl ⟨hgrant, ⟨code, hcode, hused⟩, ?_⟩⟩
      exact ⟨_, _, rfl, rfl, by rw [hstore]; rfl⟩

theorem refreshTokens_keep {req : TokenRequest} (hgrant : req.grantType = "refresh_token") :
    Keep o (.token req) (refreshTokens o req) [] := by
  refine Prog.Meets.orErr trivial fun token htoken => ?_
  refine Prog.Meets.orErr trivial fun clientId _ => ?_
  refine keep_read (fun s => ⟨rfl, trivial⟩) fun s₁ => ?_
  refine Prog.Meets.orErr trivial fun session _ => ?_
  split
  · trivial
  · split
    · exact Prog.Meets.write fun s => ⟨⟨rfl, trivial⟩, trivial⟩
    · refine Prog.Meets.ofExcept (fun _ => trivial) fun jkt _ => ?_
      refine Prog.Meets.orErr trivial fun sub _ => ?_
      refine Prog.Meets.ofExcept (fun _ => trivial) fun accessToken _ => ?_
      refine keep_read (fun s => ⟨rfl, trivial⟩) fun s₂ => ?_
      have hbefore : Before o (.token req) [(.clock, s₂), (.findByRefreshHash, s₁)]
          (.rotateRefreshToken session.requestUri (o.hashRefreshToken token)
            (req.issue o (session.authorizationCode.getD "")
              (session.authorizationCodeExpiresAt.getD s₂.now) jkt s₂.now)) :=
        ⟨⟨req, rfl, rfl⟩, by simp [Stmt.issues]⟩
      refine keep_unique (fun s hnone => ⟨.inl ⟨hnone, rfl⟩, hbefore⟩) fun s b s' hrotate => ?_
      refine ⟨⟨.inr ⟨b, hrotate⟩, hbefore⟩, ?_⟩
      refine Prog.Meets.orErr trivial fun row hrow => ?_
      refine ⟨req, rfl, rfl, _, _, _, rfl, .inr ⟨hgrant, token, _, _, htoken, rfl, rfl, ?_⟩⟩
      rw [written, hrotate, hrow]
      rfl

/-- **The walk.** -/
theorem handle_keep (o : Provider) (r : Request) : Keep o r ((provider o).prog r) [] := by
  cases r with
  | par req => exact par_keep req
  | authorize headers uri code => exact authorize_keep headers uri code
  | token req =>
    show Keep o (.token req) (token o req) []
    unfold token
    split
    · next hgrant => exact exchangeCode_keep hgrant
    · split
      · next hgrant => exact refreshTokens_keep hgrant
      · trivial

end Walk

end Keycast.Atproto
