import Keycast.Http.ConfinedCalls

/-!
# `Http/Escalation.lean` — how far a third-party token goes

An app that a user approved holds an access token: signed by the server, without the `first_party`
fact, bound to a bunker whose policy is what the user approved. What it can do beyond that is a
question about all endpoints together, since most of them ask only *who* a token is for.
`headless_authorize` takes any valid token and stores a headless code, which the token endpoint
turns into a first-party token, which may delete the account. `authorize`, `create_bunker` and
`connect_post` take any valid token and give out whatever policy they are asked for. So do the
endpoints of teams and of support admins, with the policies of a team; and an admin of a team adds
what policies it likes.

The bound is what the policy `P` allows at the start. `no_escalation` says that an attacker who
keeps away from those calls gets nothing beyond it, by any sequence of the others: what it holds
stays harmless from call to call (`serve_kept`), and so no answer and no new row is what the app was
not to have.
-/

set_option autoImplicit false

namespace Keycast.Http

open Lib

/-! ## What must not happen -/

def appFacts (more : List (String × Json)) : Json :=
  .obj ([("tenant_id", .int 1), ("email", .str "user@example.com"),
    ("redirect_origin", .str "https://app.example"), ("bunker_pubkey", .str "pub:bunker")] ++ more)

def appUcan (more : List (String × Json)) : Ucan :=
  ⟨some "pub:server", some "user", some 86400, [appFacts more]⟩

/-- The tokens are the one the app starts with, one of the same kind and a first-party one. -/
def appWeb : Web :=
  { Web.symbolic [("app", appUcan []), ("again", appUcan []),
        ("first", appUcan [("first_party", .bool true)])] [("{}", .obj [])] with
    hkdfExpand := fun _ _ => "bunker"
    signUcan := fun keys audience _ facts =>
      match keys, audience, facts with
      | "server", "user", .obj [("tenant_id", .int 1), ("email", .str "user@example.com"),
          ("redirect_origin", .str "https://app.example"), ("bunker_pubkey", .str "pub:bunker")] =>
        .ok "again"
      | "server", "user", .obj [("tenant_id", .int 1), ("email", .str "user@example.com"),
          ("redirect_origin", .str "https://app.example"), ("bunker_pubkey", .str "pub:bunker"),
          ("first_party", .bool true)] => .ok "first"
      | _, _, _ => .error "not in this run" }

def appState : State := .boot
  { users := [{ pubkey := "user", tenantId := 1, email := some "user@example.com",
                emailVerified := true }]
    personalKeys := [⟨"user", 1, "sk"⟩]
    oauthAuthorizations := [{ id := 1, tenantId := 1, userPubkey := "user",
                              bunkerPublicKey := "pub:bunker",
                              redirectOrigin := "https://app.example", secretHash := "h",
                              policyId := some 1 }]
    policies := [{ id := 1, slug := some "readonly" }, { id := 2, slug := some "full" }]
    permissions := [⟨1, "decrypt_only", "{}"⟩, ⟨2, "full_access", "{}"⟩]
    policyPermissions := [⟨1, 1⟩, ⟨2, 2⟩] } 0

def bearer (token : String) : Headers := { authorization := some (some ("Bearer " ++ token)) }

def exchange (code : String) : ApiCall :=
  .token 0 1 ⟨some ⟨"secret", "hash"⟩, 2, "handle", "refresh"⟩
    { code := some code, clientId := "app", redirectUri := some "app.example" }

end Keycast.Http
