import Keycast.Http.Handler
import Keycast.Signer.System

/-!
# `Http/Validity.lean` — one question, asked four times

Whether an authorization counts is decided by the handler of the HTTP path (`is_valid`), by the
status the daemon gives a handler it loads (`compute_status_from_oauth`), and by the conditions of
the queries with which the daemon validates a client, one for each of the two tables. Each has its
own comparison with the clock, and the query on the team table does not ask about `revoked_at`.
`tests_agree_iff` says at which instants they give one answer.
-/

set_option autoImplicit false

namespace Keycast

/-- The four tests. -/
inductive ValidityTest
  | httpHandler
  | signerStatus
  | oauthQuery
  | teamQuery
  deriving DecidableEq, Repr

/-- The columns an authorization of either kind is judged by. -/
structure Lifetime where
  revokedAt : Option Timestamp
  expiresAt : Option Timestamp
  deriving DecidableEq, Repr

namespace Lifetime

variable (l : Lifetime)

/-- A handler of the HTTP path, an OAuth authorization and a team authorization with these columns,
the latter two with a client. What else they hold plays no part (`holds_iff`). -/
def handler (h : Http.HttpRpcHandler) : Http.HttpRpcHandler :=
  { h with revokedAt := l.revokedAt, expiresAt := l.expiresAt }

def oauthRow (a : OAuthAuthorization) : OAuthAuthorization :=
  { a with revokedAt := l.revokedAt, expiresAt := l.expiresAt }

def teamRow (b : Authorization) : Authorization :=
  { b with revokedAt := l.revokedAt, expiresAt := l.expiresAt }

end Lifetime

/-- An authorization as the tests meet it: a handler, a row of each table, and the client that
asks. -/
structure Carrier where
  handler : Http.HttpRpcHandler
  oauth : OAuthAuthorization
  team : Authorization
  client : PublicKey

/-- What a test answers about an authorization with the given columns at the instant `t`. The
queries are those of `validate_client`, on tables where the authorization is the only one and its
client is connected. -/
def ValidityTest.answers (c : Carrier) (l : Lifetime) (t : Timestamp) : ValidityTest → Bool
  | httpHandler => (l.handler c.handler).isValid t
  | signerStatus => (Signer.Nip46Handler.computeStatusFromOAuth t (l.oauthRow c.oauth)).1 == .active
  | oauthQuery =>
    (Signer.State.boot
      { oauthAuthorizations := [{ l.oauthRow c.oauth with connectedClientPubkey := some c.client }]
        } t).existsConnected
        true c.oauth.bunkerPublicKey c.client
  | teamQuery =>
    (Signer.State.boot
      { authorizations := [{ l.teamRow c.team with connectedClientPubkey := some c.client }] }
        t).existsConnected
        false c.team.bunkerPublicKey c.client

/-! ## What each test asks -/

/-- The instants at which a test finds the authorization live. -/
def ValidityTest.Asks (l : Lifetime) (t : Timestamp) : ValidityTest → Prop
  | httpHandler => l.revokedAt = none ∧ ∀ e ∈ l.expiresAt, t ≤ e
  | signerStatus | oauthQuery => l.revokedAt = none ∧ ∀ e ∈ l.expiresAt, t < e
  | teamQuery => ∀ e ∈ l.expiresAt, t < e

theorem unexpired_iff {now : Timestamp} {expiresAt : Option Timestamp} :
    unexpired now expiresAt = true ↔ ∀ e ∈ expiresAt, now < e := by
  cases expiresAt with
  | none => simp [unexpired]
  | some e => simp [unexpired]

theorem ValidityTest.answers_iff (c : Carrier) (l : Lifetime) (t : Timestamp)
    (test : ValidityTest) :
    test.answers c l t = true ↔ test.Asks l t := by
  cases test with
  | httpHandler =>
    obtain ⟨revokedAt, expiresAt⟩ := l
    cases revokedAt with
    | some r => simp [answers, Asks, Lifetime.handler, Http.HttpRpcHandler.isValid]
    | none =>
      cases expiresAt with
      | none => simp [answers, Asks, Lifetime.handler, Http.HttpRpcHandler.isValid]
      | some e => simp [answers, Asks, Lifetime.handler, Http.HttpRpcHandler.isValid]
  | signerStatus =>
    obtain ⟨revokedAt, expiresAt⟩ := l
    cases revokedAt with
    | some r => simp [answers, Asks, Lifetime.oauthRow, Signer.Nip46Handler.computeStatusFromOAuth]
    | none =>
      cases expiresAt with
      | none => simp [answers, Asks, Lifetime.oauthRow, Signer.Nip46Handler.computeStatusFromOAuth]
      | some e =>
        by_cases he : e ≤ t
        · simp [answers, Asks, Lifetime.oauthRow, Signer.Nip46Handler.computeStatusFromOAuth, he]
        · simp [answers, Asks, Lifetime.oauthRow, Signer.Nip46Handler.computeStatusFromOAuth, he,
            Int.not_le.mp he]
  | oauthQuery =>
    simp [answers, Asks, Signer.State.existsConnected, Signer.State.boot, Lifetime.oauthRow,
      OAuthAuthorization.live,
      unexpired_iff]
  | teamQuery =>
    simp [answers, Asks, Signer.State.existsConnected, Signer.State.boot, Lifetime.teamRow,
      unexpired_iff]

/-! ## Agreement -/

/-- All four tests give the same answer at the instant `t`. -/
def TestsAgree (c : Carrier) (l : Lifetime) (t : Timestamp) : Prop :=
  ∀ test test' : ValidityTest, test.answers c l t = test'.answers c l t

/-- The instant `t` is the expiry of an authorization that is not revoked. -/
def AtExpiry (l : Lifetime) (t : Timestamp) : Prop := l.revokedAt = none ∧ l.expiresAt = some t

/-- Revoked, and not expired at `t`. -/
def RevokedEarly (l : Lifetime) (t : Timestamp) : Prop :=
  l.revokedAt ≠ none ∧ unexpired t l.expiresAt = true

theorem asks_query_iff {l : Lifetime} {t : Timestamp} (h : ¬ AtExpiry l t) :
    ValidityTest.httpHandler.Asks l t ↔ ValidityTest.oauthQuery.Asks l t := by
  refine and_congr_right fun hrevoked => forall₂_congr fun e he => ⟨fun hle => ?_, Int.le_of_lt⟩
  rcases Int.lt_or_eq_of_le hle with hlt | rfl
  · exact hlt
  · exact absurd ⟨hrevoked, he⟩ h

theorem asks_team_iff {l : Lifetime} {t : Timestamp} (h : ¬ RevokedEarly l t) :
    ValidityTest.oauthQuery.Asks l t ↔ ValidityTest.teamQuery.Asks l t := by
  refine ⟨fun hasks => hasks.2, fun hasks => ⟨?_, hasks⟩⟩
  by_contra hrevoked
  exact h ⟨hrevoked, unexpired_iff.mpr hasks⟩

/-- **When the tests agree.** For every `revoked_at`, every `expires_at` and every instant: unless
the instant is the expiry of an authorization that is not revoked, or the authorization is revoked
but not expired. The first is about the HTTP handler, the second about the query on the team table;
the status the daemon computes and its query on the OAuth table always agree. -/
theorem tests_agree_iff (c : Carrier) (l : Lifetime) (t : Timestamp) :
    (TestsAgree c l t ↔ ¬ AtExpiry l t ∧ ¬ RevokedEarly l t) ∧
      ValidityTest.signerStatus.answers c l t = ValidityTest.oauthQuery.answers c l t := by
  have hstatus : ValidityTest.signerStatus.answers c l t =
    ValidityTest.oauthQuery.answers c l t := by
    rw [Bool.eq_iff_iff, ValidityTest.answers_iff, ValidityTest.answers_iff]
    exact Iff.rfl
  refine ⟨⟨fun hagree => ⟨fun hat => ?_, fun hearly => ?_⟩, ?_⟩, hstatus⟩
  · -- at the expiry the handler still counts, and the query does not
    obtain ⟨hrevoked, hexpires⟩ := hat
    have hhandler : ValidityTest.httpHandler.Asks l t := by
      refine ⟨hrevoked, fun e he => ?_⟩
      obtain rfl : t = e := Option.some_inj.mp (hexpires.symm.trans he)
      exact Int.le_refl t
    have hquery := (ValidityTest.answers_iff c l t _).mpr hhandler
    rw [hagree .httpHandler .oauthQuery, ValidityTest.answers_iff] at hquery
    exact Int.lt_irrefl t (hquery.2 t hexpires)
  · -- the team query does not see the revocation
    obtain ⟨hrevoked, hunexpired⟩ := hearly
    have hteam := (ValidityTest.answers_iff c l t .teamQuery).mpr (unexpired_iff.mp hunexpired)
    rw [hagree .teamQuery .oauthQuery, ValidityTest.answers_iff] at hteam
    exact hrevoked hteam.1
  · rintro ⟨hat, hearly⟩
    have hall : ∀ test : ValidityTest,
      test.answers c l t = ValidityTest.oauthQuery.answers c l t := by
      intro test
      rw [Bool.eq_iff_iff, ValidityTest.answers_iff, ValidityTest.answers_iff]
      cases test with
      | httpHandler => exact asks_query_iff hat
      | signerStatus => exact Iff.rfl
      | oauthQuery => exact Iff.rfl
      | teamQuery => exact (asks_team_iff hearly).symm
    intro test test'
    rw [hall test, hall test']

/-! One authorization that expires at 100. -/

def sampleCarrier : Carrier where
  handler := ⟨"sk", 1, "pub:sk", none, none, [], true, "bunker", "handle"⟩
  oauth := { id := 1, tenantId := 1, userPubkey := "pub:sk", bunkerPublicKey := "bunker",
             secretHash := "h" }
  team := { id := 1, tenantId := 1, storedKeyId := 7, bunkerPublicKey := "bunker",
            secretHash := "h" }
  client := "client"

/-- **Two disagreements**: at its expiry, and after a revocation. -/
theorem tests_disagree :
    ¬ TestsAgree sampleCarrier ⟨none, some 100⟩ 100 ∧
      ¬ TestsAgree sampleCarrier ⟨some 50, some 100⟩ 60 :=
  ⟨fun h => absurd (h .httpHandler .oauthQuery) (by decide),
    fun h => absurd (h .teamQuery .oauthQuery) (by decide)⟩

end Keycast
