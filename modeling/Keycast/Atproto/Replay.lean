import Keycast.Atproto.Proofs
import Keycast.Lib.Replay

/-!
# `Atproto/Replay.lean` — which proofs and assertions are accepted twice

Both maps are a `Guard`. A proof is remembered for as many seconds as its `iat` may differ from the
clock, counted from its last use; an assertion is remembered until it has expired. The second is
long enough. The first is not for a proof whose `iat` is not before its first use: its window ends
300 seconds after `iat`, and it is forgotten 300 seconds after the use.
-/

set_option autoImplicit false

namespace Keycast.Atproto

open Lib Http

/-! ## DPoP proofs -/

section Dpop

variable {o : Jwt} {cache : Cache String Int} {c : DpopCall} {jkt : String}
  {claims : DpopProofClaims}

def dpopStep (o : Jwt) (cache : Cache String Int) (c : DpopCall) : Cache String Int :=
  (validateDpopProof o cache c).2

def DpopAccepts (o : Jwt) (cache : Cache String Int) (c : DpopCall) : Prop :=
  (validateDpopProof o cache c).1.isOk = true

/-- The later call presents a proof with the thumbprint and `jti` of the earlier one, at a time when
the `iat` of that one lies in the allowed window. -/
def SameProof (o : Jwt) (a b : DpopCall) : Prop :=
  ∃ jkt claims claims', readDpopProof o a.header = .ok (jkt, claims) ∧
    readDpopProof o b.header = .ok (jkt, claims') ∧ claims'.jti = claims.jti ∧
    inWindow b.now claims.iat = true

/-- The condition: the proof was issued in an earlier second than that of the call. -/
def IssuedBefore (o : Jwt) (c : DpopCall) : Prop :=
  ∀ jkt claims, readDpopProof o c.header = .ok (jkt, claims) → claims.iat < c.now

theorem checkDpopProof_ok : checkDpopProof o c = .ok (jkt, claims) ↔
    readDpopProof o c.header = .ok (jkt, claims) ∧ c.checkEndpoint o claims = .ok () ∧
      inWindow c.now claims.iat = true ∧ c.checkBinding claims = .ok () := by
  unfold checkDpopProof
  simp only [bind_eq_ok, ensure_ok, Prod.exists]
  constructor
  · rintro ⟨jkt', claims', hread, u, hendpoint, v, hwindow, w, hbinding, heq⟩
    cases heq
    exact ⟨hread, hendpoint, hwindow, hbinding⟩
  · rintro ⟨hread, hendpoint, hwindow, hbinding⟩
    exact ⟨jkt, claims, hread, (), hendpoint, (), hwindow, (), hbinding, rfl⟩

/-- The proof is in the map, and is still heeded. -/
def dpopUsed (cache : Cache String Int) (now : Int) (key : String) : Bool :=
  (cache.get key).any fun previous => decide (now - previous < dpopMaxIatSkewSeconds)

theorem dpopUsed_eq_false {now : Int} {key : String} : dpopUsed cache now key = false ↔
    ∀ v, cache.get key = some v → v + dpopMaxIatSkewSeconds ≤ now := by
  simp only [dpopUsed, Option.any_eq_false, decide_eq_false_iff_not]
  refine forall_congr' fun v => forall_congr' fun _ => ?_
  omega

theorem validateDpopProof_eq (hcheck : checkDpopProof o c = .ok (jkt, claims)) :
    validateDpopProof o cache c =
      if dpopUsed cache c.now (dpopReplayKey jkt claims.jti) then
        (bad "DPoP proof jti has already been used", cache)
      else (.ok jkt, cache.insert (dpopReplayKey jkt claims.jti) c.now) := by
  rw [validateDpopProof, hcheck]
  rfl

/-- **What an accepted proof did**: it was not remembered any more, and is now. -/
theorem DpopAccepts.inv (h : DpopAccepts o cache c) :
    ∃ jkt claims, checkDpopProof o c = .ok (jkt, claims) ∧
      dpopUsed cache c.now (dpopReplayKey jkt claims.jti) = false ∧
      dpopStep o cache c = cache.insert (dpopReplayKey jkt claims.jti) c.now := by
  cases hcheck : checkDpopProof o c with
  | error e =>
    rw [DpopAccepts, validateDpopProof, hcheck] at h
    cases h
  | ok p =>
    obtain ⟨jkt, claims⟩ := p
    rw [DpopAccepts, validateDpopProof_eq hcheck] at h
    cases hused : dpopUsed cache c.now (dpopReplayKey jkt claims.jti) with
    | true =>
      rw [hused] at h
      cases h
    | false =>
      refine ⟨jkt, claims, rfl, hused, ?_⟩
      rw [dpopStep, validateDpopProof_eq hcheck, hused]
      rfl

theorem DpopAccepts.intro (hcheck : checkDpopProof o c = .ok (jkt, claims))
    (hused : dpopUsed cache c.now (dpopReplayKey jkt claims.jti) = false) :
      DpopAccepts o cache c := by
  rw [DpopAccepts, validateDpopProof_eq hcheck, hused]
  rfl

theorem dpopStep_refused (h : ¬ DpopAccepts o cache c) : dpopStep o cache c = cache := by
  cases hcheck : checkDpopProof o c with
  | error e => rw [dpopStep, validateDpopProof, hcheck]
  | ok p =>
    obtain ⟨jkt, claims⟩ := p
    cases hused : dpopUsed cache c.now (dpopReplayKey jkt claims.jti) with
    | true =>
      rw [dpopStep, validateDpopProof_eq hcheck, hused]
      rfl
    | false => exact absurd (.intro hcheck hused) h

/-- The entry that accepting the call makes. -/
def DpopEntry (o : Jwt) (c : DpopCall) (key : String) (t : Int) : Prop :=
  ∃ jkt claims, readDpopProof o c.header = .ok (jkt, claims) ∧ key = dpopReplayKey jkt claims.jti ∧
    t = c.now + dpopMaxIatSkewSeconds

theorem dpop_guard (o : Jwt) :
    Guard (dpopStep o) (DpopAccepts o) DpopCall.now (DpopEntry o)
      fun m k t => ∃ v, m.get k = some v ∧ t ≤ v + dpopMaxIatSkewSeconds := by
  refine Guard.ofCache ?_ ?_
  · rintro cache c key t hacc ⟨jkt, claims, hread, rfl, rfl⟩
    obtain ⟨jkt', claims', hcheck, hused, hstep⟩ := hacc.inv
    cases hread.symm.trans (checkDpopProof_ok.mp hcheck).1
    exact ⟨dpopUsed_eq_false.mp hused, c.now, rfl, hstep⟩
  · intro cache c hnone
    refine dpopStep_refused fun hacc => ?_
    obtain ⟨jkt, claims, hcheck, -⟩ := hacc.inv
    exact hnone hacc _ _ ⟨jkt, claims, (checkDpopProof_ok.mp hcheck).1, rfl, rfl⟩

theorem inWindow_iff {now iat : Int} : inWindow now iat = true ↔
    now - dpopMaxIatSkewSeconds ≤ iat ∧ iat ≤ now + dpopMaxIatSkewSeconds := by
  simp only [inWindow, Bool.not_eq_true', Bool.or_eq_false_iff, decide_eq_false_iff_not]
  omega

/-- **A proof that was issued before it is used is accepted once**, whatever the map holds and
whatever comes in between; any other, once accepted, is accepted again. -/
theorem dpop_proofs_once (o : Jwt) :
    (∀ cache calls, Chronological DpopCall.now calls → (∀ c ∈ calls, IssuedBefore o c) →
      AtMostOnce (dpopStep o) (DpopAccepts o) (SameProof o) cache calls) ∧
    ∀ cache c, DpopAccepts o cache c → ¬ IssuedBefore o c →
      ∃ later, c.now ≤ later ∧ DpopAccepts o (dpopStep o cache c) { c with now := later } := by
  constructor
  · intro cache calls htime hissued
    refine (dpop_guard o).atMostOnce htime ?_ cache
    rintro s s' a b ha - - - ⟨jkt, claims, claims', hread, hread', hjti, hwindow⟩
    refine ⟨_, _, _, ⟨jkt, claims, hread, rfl, rfl⟩, ⟨jkt, claims', hread', by rw [hjti], rfl⟩, ?_⟩
    have hiat := hissued a ha jkt claims hread
    have hlate := (inWindow_iff.mp hwindow).1
    omega
  · intro cache c hacc hlater
    obtain ⟨jkt, claims, hcheck, -, hstep⟩ := hacc.inv
    obtain ⟨hread, hendpoint, hwindow, hbinding⟩ := checkDpopProof_ok.mp hcheck
    have hiat : c.now ≤ claims.iat := by
      by_contra hlt
      refine hlater fun jkt' claims' hread' => ?_
      cases hread.symm.trans hread'
      omega
    have hwindow' : inWindow (c.now + dpopMaxIatSkewSeconds) claims.iat = true := by
      have hbounds := inWindow_iff.mp hwindow
      refine inWindow_iff.mpr ⟨by omega, ?_⟩
      have hpos : 0 ≤ dpopMaxIatSkewSeconds := by decide
      omega
    -- the second use comes when the first has just been forgotten
    refine ⟨c.now + dpopMaxIatSkewSeconds, Int.le_add_of_nonneg_right (by decide), ?_⟩
    refine .intro (checkDpopProof_ok.mpr ⟨hread, hendpoint, hwindow', hbinding⟩) ?_
    rw [dpopUsed_eq_false, hstep]
    intro v hv
    rw [Cache.get_insert_self] at hv
    cases hv
    exact Int.le_refl _

/-! A proof issued ten seconds before its use, and one issued in the second of its use. -/

def proofClaims (iat : Int) (jti : String) : DpopProofClaims :=
  ⟨"POST", "https://login.example/api/atproto/oauth/token", iat, jti, some "nonce", none⟩

def proofJwt : Jwt :=
  .symbolic [("early", proofClaims 990 "jti-1"), ("now", proofClaims 1000 "jti-2")] []

def dpopCall (now : Int) (claims : String) : DpopCall :=
  ⟨now, some ("header." ++ claims ++ ".signature"), "POST", "/atproto/oauth/token",
    some "nonce", none⟩

instance DpopAccepts.decidable (o : Jwt) (cache : Cache String Int) (c : DpopCall) :
    Decidable (DpopAccepts o cache c) :=
  inferInstanceAs (Decidable (_ = _))

theorem read_early (now : Int) : readDpopProof proofJwt (dpopCall now "early").header =
    .ok (dpopJwkThumbprint proofJwt symbolicJwk, proofClaims 990 "jti-1") := by
  show readDpopProof proofJwt (some "header.early.signature") = _
  decide

theorem read_now (now : Int) : readDpopProof proofJwt (dpopCall now "now").header =
    .ok (dpopJwkThumbprint proofJwt symbolicJwk, proofClaims 1000 "jti-2") := by
  show readDpopProof proofJwt (some "header.now.signature") = _
  decide

theorem dpop_proofs_once_early :
    DpopAccepts proofJwt .empty (dpopCall 1000 "early") ∧
      AtMostOnce (dpopStep proofJwt) (DpopAccepts proofJwt) (SameProof proofJwt) .empty
        [dpopCall 1000 "early", dpopCall 1290 "early"] ∧
      ∃ later, 1000 ≤ later ∧
        DpopAccepts proofJwt (dpopStep proofJwt .empty (dpopCall 1000 "now"))
          { dpopCall 1000 "now" with now := later } := by
  have hissued : ∀ c ∈ [dpopCall 1000 "early", dpopCall 1290 "early"], IssuedBefore proofJwt c := by
    simp only [List.mem_cons, List.not_mem_nil, or_false]
    rintro c (rfl | rfl) jkt claims hread
    all_goals
      rw [read_early] at hread
      obtain ⟨-, rfl⟩ := Prod.mk.inj (Except.ok.inj hread)
      decide
  have hlate : ¬ IssuedBefore proofJwt (dpopCall 1000 "now") := fun h =>
    absurd (h _ _ (read_now 1000)) (by decide)
  exact ⟨by decide, (dpop_proofs_once proofJwt).1 .empty _ (by decide) hissued,
    (dpop_proofs_once proofJwt).2 .empty _ (by decide) hlate⟩

/-- **A proof is accepted twice**, 300 seconds apart. -/
theorem dpop_proof_accepted_twice :
    Chronological DpopCall.now [dpopCall 1000 "now", dpopCall 1300 "now"] ∧
      ¬ AtMostOnce (dpopStep proofJwt) (DpopAccepts proofJwt) (SameProof proofJwt) .empty
        [dpopCall 1000 "now", dpopCall 1300 "now"] := by
  refine ⟨by decide, fun honce => ?_⟩
  refine honce [] _ [] _ [] rfl (by decide) (by decide) ?_
  exact ⟨_, _, _, read_now 1000, read_now 1300, rfl, by decide⟩

end Dpop

/-! ## Client assertions -/

section Assertions

variable {o : Jwt} {cache : Cache String Int} {c : AssertionCall} {claims : ClientAssertionClaims}
  {binding : ClientAuthBinding}

def assertionStep (o : Jwt) (cache : Cache String Int) (c : AssertionCall) : Cache String Int :=
  (verifyClientAssertion o cache c).2

def AssertionAccepts (o : Jwt) (cache : Cache String Int) (c : AssertionCall) : Prop :=
  (verifyClientAssertion o cache c).1.isOk = true

/-- What the checks make sure of: the claims are those of the assertion, made by the client, and
have not expired. -/
theorem checkClientAssertion_ok (h : checkClientAssertion o c = .ok (claims, binding)) :
    (∃ assertion header signature input, c.clientAssertion = some assertion ∧
      readAssertion o assertion = .ok (header, claims, signature, input)) ∧
    claims.iss = c.clientId ∧ c.now < claims.exp := by
  unfold checkClientAssertion at h
  simp only [bind_eq_ok, assertionField, orBad_ok, Prod.exists] at h
  obtain ⟨_, -, _, -, assertion, hassertion, header, claims', signature, input, hread, _,
    hclaims, h⟩ := h
  obtain ⟨_, -, _, -, _, -, _, -, heq⟩ := h
  cases heq
  unfold AssertionCall.checkClaims at hclaims
  simp only [bind_eq_ok, ensure_ok, Bool.and_eq_true, beq_iff_eq, decide_eq_true_eq] at hclaims
  obtain ⟨_, ⟨hiss, -⟩, _, -, _, hexp, -⟩ := hclaims
  exact ⟨⟨assertion, header, signature, input, hassertion, hread⟩, hiss, hexp⟩

def assertionUsed (cache : Cache String Int) (now : Int) (key : String) : Bool :=
  (cache.get key).any fun previousExp => decide (now ≤ previousExp)

theorem assertionUsed_eq_false {now : Int} {key : String} : assertionUsed cache now key = false ↔
    ∀ v, cache.get key = some v → v + 1 ≤ now := by
  simp only [assertionUsed, Option.any_eq_false, decide_eq_false_iff_not]
  refine forall_congr' fun v => forall_congr' fun _ => ?_
  omega

theorem verifyClientAssertion_eq (hcheck : checkClientAssertion o c = .ok (claims, binding)) :
    verifyClientAssertion o cache c =
      if assertionUsed cache c.now (assertionReplayKey c.clientId claims.jti) then
        (bad "client_assertion jti has already been used", cache)
      else (.ok binding, cache.insert (assertionReplayKey c.clientId claims.jti) claims.exp) := by
  rw [verifyClientAssertion, hcheck]
  rfl

theorem AssertionAccepts.inv (h : AssertionAccepts o cache c) :
    ∃ claims binding, checkClientAssertion o c = .ok (claims, binding) ∧
      assertionUsed cache c.now (assertionReplayKey c.clientId claims.jti) = false ∧
      assertionStep o cache c =
        cache.insert (assertionReplayKey c.clientId claims.jti) claims.exp := by
  cases hcheck : checkClientAssertion o c with
  | error e =>
    rw [AssertionAccepts, verifyClientAssertion, hcheck] at h
    cases h
  | ok p =>
    obtain ⟨claims, binding⟩ := p
    rw [AssertionAccepts, verifyClientAssertion_eq hcheck] at h
    cases hused : assertionUsed cache c.now (assertionReplayKey c.clientId claims.jti) with
    | true =>
      rw [hused] at h
      cases h
    | false =>
      refine ⟨claims, binding, rfl, hused, ?_⟩
      rw [assertionStep, verifyClientAssertion_eq hcheck, hused]
      rfl

theorem assertionStep_refused (h : ¬ AssertionAccepts o cache c) :
    assertionStep o cache c = cache := by
  cases hcheck : checkClientAssertion o c with
  | error e => rw [assertionStep, verifyClientAssertion, hcheck]
  | ok p =>
    obtain ⟨claims, binding⟩ := p
    rw [AssertionAccepts, verifyClientAssertion_eq hcheck] at h
    cases hused : assertionUsed cache c.now (assertionReplayKey c.clientId claims.jti) with
    | true =>
      rw [assertionStep, verifyClientAssertion_eq hcheck, hused]
      rfl
    | false =>
      rw [hused] at h
      exact absurd rfl h

/-- The entry that accepting the call makes. Assertions that share a key overwrite each other's. -/
def AssertionEntry (o : Jwt) (c : AssertionCall) (key : String) (t : Int) : Prop :=
  ∃ claims binding, checkClientAssertion o c = .ok (claims, binding) ∧
    key = assertionReplayKey c.clientId claims.jti ∧ t = claims.exp + 1

theorem assertion_guard (o : Jwt) :
    Guard (assertionStep o) (AssertionAccepts o) AssertionCall.now (AssertionEntry o)
      fun m k t => ∃ v, m.get k = some v ∧ t ≤ v + 1 := by
  refine Guard.ofCache ?_ ?_
  · rintro cache c key t hacc ⟨claims, binding, hcheck, rfl, rfl⟩
    obtain ⟨claims', binding', hcheck', hused, hstep⟩ := hacc.inv
    cases hcheck.symm.trans hcheck'
    exact ⟨assertionUsed_eq_false.mp hused, claims.exp, rfl, hstep⟩
  · intro cache c hnone
    refine assertionStep_refused fun hacc => ?_
    obtain ⟨claims, binding, hcheck, -⟩ := hacc.inv
    exact hnone hacc _ _ ⟨claims, binding, hcheck, rfl, rfl⟩

/-- **An assertion is accepted at most once**, whatever the map holds and whatever comes in
between. -/
theorem client_assertions_once {o : Jwt} {calls : List AssertionCall}
    (htime : Chronological AssertionCall.now calls) (cache : Cache String Int) :
    AtMostOnce (assertionStep o) (AssertionAccepts o)
      (fun a b => a.clientAssertion = b.clientAssertion)
      cache calls := by
  refine (assertion_guard o).atMostOnce htime ?_ cache
  intro s s' a b _ _ ha hb hsame
  obtain ⟨claims, binding, hcheck, -⟩ := ha.inv
  obtain ⟨claims', binding', hcheck', -⟩ := hb.inv
  obtain ⟨⟨assertion, _, _, _, hassertion, hread⟩, hiss, -⟩ := checkClientAssertion_ok hcheck
  obtain ⟨⟨assertion', _, _, _, hassertion', hread'⟩, hiss', hexp'⟩ :=
    checkClientAssertion_ok hcheck'
  -- one assertion has one set of claims, and they name the client
  cases Option.some_inj.mp (hassertion.symm.trans (hsame.trans hassertion'))
  cases hread.symm.trans hread'
  have hclient : a.clientId = b.clientId := hiss.symm.trans hiss'
  refine ⟨_, _, _, ⟨claims, binding, hcheck, rfl, rfl⟩, ⟨claims, binding', hcheck', ?_, rfl⟩, ?_⟩
  · rw [hclient]
  · omega

/-! Two assertions that share a `jti`; the second is accepted when the first has expired. -/

def assertionClaims (exp : Int) : ClientAssertionClaims :=
  ⟨"https://app.example/client.json", "https://app.example/client.json",
    .str "https://login.example", exp, 1000,
    "jti:1"⟩

def assertionJwt : Jwt :=
  .symbolic [] [("first", assertionClaims 1100), ("second", assertionClaims 1250)]

def assertionCall (now : Int) (claims : String) : AssertionCall :=
  { now, clientId := "https://app.example/client.json",
    clientAssertionType := some clientAssertionTypeJwtBearer,
    clientAssertion := some ("header." ++ claims ++ ".signature"),
    expectedAudiences := ["https://login.example"],
    signingKeys := [⟨"EC", some "P-256", some symbolicJwk.x, some symbolicJwk.y, none, none, none⟩],
    expectedJkt := none }

def assertionCalls : List AssertionCall :=
  [assertionCall 1000 "first", assertionCall 1100 "second", assertionCall 1101 "second",
    assertionCall 1101 "first", assertionCall 1200 "second"]

/-- The answers to a list of calls. -/
def assertionAnswers (o : Jwt) : Cache String Int → List AssertionCall → List Bool
  | _, [] => []
  | cache, c :: calls =>
    (verifyClientAssertion o cache c).1.isOk :: assertionAnswers o (assertionStep o cache c) calls

theorem client_assertions_once_shared :
    assertionAnswers assertionJwt .empty assertionCalls = [true, false, true, false, false] ∧
      AtMostOnce (assertionStep assertionJwt) (AssertionAccepts assertionJwt)
        (fun a b => a.clientAssertion = b.clientAssertion) .empty assertionCalls :=
  ⟨by decide, client_assertions_once (by decide) .empty⟩

end Assertions

end Keycast.Atproto
