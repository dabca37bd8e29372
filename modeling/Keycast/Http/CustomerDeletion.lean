import Keycast.Http.MagicLink
import Keycast.Http.Preload

/-!
# `Http/CustomerDeletion.lean` — what deletes a customer's account

On the customers' tenant only a few routes exist, and `delete_account` wants a token that is signed
by the customer's own key or marked `first_party`. Which tokens get that mark is decided elsewhere,
by every route that mints one. Here all of them are taken together: links of both purposes, with and
without a grant, the list of apps, the revocation of one, the RPC endpoint and the deletion.

The servers are seen with two logs beside their state: the links they have sent, and the sessions
they have answered with, each with the link it was for and the state in which that was consumed.
What is used of the token library is that a token it signed is read back as written, and that nobody
else signs as the server.

The invariant is that the logs tell the truth (`CustomerWorld.Sound`): every link of the table was
sent, and a session of the log is one for the link beside it. `verifyMagicLink_session` says which
session a link gives, by what the link is for, and `deleteCustomer_token` what a deletion wants of
its token. A deletion that succeeds with a token of the server presents one of the log, and of these
only the sessions of deletion links pass.
-/

set_option autoImplicit false

namespace Keycast.Http

open Lib

/-! ## The other routes -/

/-- `signed_in_customer`. -/
def signedInCustomer (w : Web) (headers : Headers) (tenant : TenantId) :
    Prog Stmt State AuthError PublicKey := do
  let header ← .orErr (headers.authorization.bind id) .missingToken
  let now ← .read .clock (·.now)
  let session ← .ofExcept ((validateUcanToken w now header tenant).mapError fun _ => .invalidToken)
  return session.1

/-- `list_customer_apps`: their origins. The names and the dates are for display. -/
def listCustomerApps (w : Web) (headers : Headers) (tenant : TenantId) :
    Prog Stmt State AuthError (Option (List String)) := do
  if w.customerTenant ≠ some tenant then return none
  else
    let user ← signedInCustomer w headers tenant
    let apps ← .read .findOAuth fun s =>
      ((s.db.oauthAuthorizations.filter fun a =>
        a.userPubkey == user && a.tenantId == tenant && a.revokedAt.isNone &&
          a.expiresAt.all fun expiresAt =>
            decide (s.now < expiresAt)).map (·.redirectOrigin)).eraseDups
    return some apps

/-- What `revoke_customer_app` does for each authorization it has revoked. -/
def forgetAuthorizations (w : Web) (inst : InstanceId) : List (RowId × PublicKey) →
    Prog Stmt State AuthError Unit
  | [] => return ()
  | (id, bunker) :: rest => do
    .write (.revokeRefreshTokens id) fun s => s.withDb (s.db.revokeRefreshTokens s.now id)
    .write (.invalidateHandlers inst bunker) fun s => s.invalidateHandlersForBunker w inst bunker
    .write (.sendRemove bunker) fun s => s
    forgetAuthorizations w inst rest

/-- `revoke_customer_app`; `none` is "not found". -/
def revokeCustomerApp (w : Web) (inst : InstanceId) (headers : Headers) (tenant : TenantId)
    (appOrigin : String) :
    Prog Stmt State AuthError (Option Unit) := do
  if w.customerTenant ≠ some tenant then return none
  else
    let user ← signedInCustomer w headers tenant
    let revoked ← .stmt .revokeOAuthByOrigin fun s =>
      ((s.db.oauthAuthorizations.filter fun a =>
          a.userPubkey == user && a.redirectOrigin == appOrigin && a.tenantId == tenant &&
            a.revokedAt.isNone).map
        fun a => (a.id, a.bunkerPublicKey),
        s.withDb (s.db.revokeOAuthByOrigin s.now user appOrigin tenant))
    if revoked.isEmpty then return none
    else
      forgetAuthorizations w inst revoked
      return some ()

/-- `delete_customer_account`; `none` is the answer outside the customers' tenant. -/
def deleteCustomer (w : Web) (inst : InstanceId) (headers : Headers) (tenant : TenantId) :
    Prog Stmt State AuthError (Option PublicKey) := do
  if w.customerTenant ≠ some tenant then return none
  else
    let user ← deleteAccount w inst headers tenant
    return some user

/-! ## Calls -/

inductive CustomerCall
  | requestMagicLink (headers : Headers) (ipAllowed windowAllowed : Bool) (token : String)
    (page : Option String)
      (email purpose : Option String)
  | verifyMagicLink (inst : InstanceId) (drawn : GrantDrawn) (generated : Keys)
    (approved : Option PublicKey)
      (policyId : RowId) (req : VerifyMagicLinkRequest)
  | listApps (headers : Headers)
  | revokeApp (inst : InstanceId) (headers : Headers) (appOrigin : String)
  | rpc (inst : InstanceId) (headers : Headers) (nonce : Nat) (req : NostrRpcRequest)
  | deleteAccount (inst : InstanceId) (headers : Headers)
  | tick (d : Nat)

/-- A link that was sent: its hash, its address and what it is for. -/
abbrev SentLink := String × String × LinkPurpose

def sentLink (l : MagicLinkToken) : SentLink := (l.tokenHash, l.email, l.purpose)

/-- A session that `verify_magic_link` has answered with, the link it was for, and the state in
which the link was consumed. -/
structure Minted where
  token : String
  link : MagicLinkToken
  before : State

structure CustomerWorld where
  state : State
  sent : List SentLink
  minted : List Minted := []

/-- The links of the table were sent. -/
def CustomerWorld.start (s : State) : CustomerWorld where
  state := s
  sent := s.db.magicLinkTokens.map sentLink

/-- The state after a call. -/
def afterCall (w : Web) (tenant : TenantId) (s : State) : CustomerCall → State
  | .requestMagicLink headers ipAllowed windowAllowed token page email purpose =>
    ((requestMagicLink w tenant headers ipAllowed windowAllowed token page email purpose).run s).2
  | .verifyMagicLink inst drawn generated approved policyId req =>
    ((verifyMagicLink w inst tenant drawn generated approved policyId req).run s).2
  | .listApps headers => ((listCustomerApps w headers tenant).run s).2
  | .revokeApp inst headers appOrigin =>
    ((revokeCustomerApp w inst headers tenant appOrigin).run s).2
  | .rpc inst headers nonce req => ((nostrRpc w inst headers tenant nonce req).run s).2
  | .deleteAccount inst headers => ((deleteCustomer w inst headers tenant).run s).2
  | .tick d => { s with now := s.now + d }

/-- The link a call sends. -/
def sentBy (w : Web) (tenant : TenantId) (s : State) : CustomerCall → List SentLink
  | .requestMagicLink headers ipAllowed windowAllowed token page email purpose =>
    match ((requestMagicLink w tenant headers ipAllowed windowAllowed token page email purpose).run
      s).1,
      parsePurpose purpose with
    | .ok (some mail), .ok purpose => [(w.sha256 mail.token, mail.address, purpose)]
    | _, _ => []
  | _ => []

/-- The session a call answers with. -/
def mintedBy (w : Web) (tenant : TenantId) (s : State) : CustomerCall → List Minted
  | .verifyMagicLink inst drawn generated approved policyId req =>
    match ((verifyMagicLink w inst tenant drawn generated approved policyId req).run s).1,
      (s.db.consumeMagicLink s.now (w.sha256 req.token) tenant).1 with
    | .ok (some response), some link => [⟨response.sessionToken, link, s⟩]
    | _, _ => []
  | _ => []

def customerStep (w : Web) (tenant : TenantId) (x : CustomerWorld) (call : CustomerCall) :
    CustomerWorld where
  state := afterCall w tenant x.state call
  sent := x.sent ++ sentBy w tenant x.state call
  minted := x.minted ++ mintedBy w tenant x.state call

/-! ## The property, and what is assumed -/

/-- The token a deletion comes with. -/
def presentedToken (headers : Headers) : Option String :=
  (deletionHeader headers).toOption.bind stripBearer

/-- The token is signed with this key. -/
def SignedBy (w : Web) (token : String) (key : PublicKey) : Prop :=
  w.checkSignature token = true ∧ ∃ ucan, w.decodeToken token = some ucan ∧ ucan.issuer = some key

/-- The answer to a deletion link that was consumed at most ten minutes ago, and was sent to the
address that the account of this user had then. -/
structure DeletionSession (w : Web) (tenant : TenantId) (x : CustomerWorld) (m : Minted)
    (user : PublicKey) :
    Prop where
  purpose : m.link.purpose = .deleteAccount
  consumed : (m.before.db.consumeMagicLink m.before.now m.link.tokenHash tenant).1 = some m.link
  recent : x.state.now / 1000000 ≤ m.before.now / 1000000 + deleteSessionSeconds
  sent : sentLink m.link ∈ x.sent
  account : ∃ u ∈ m.before.db.users, u.tenantId = tenant ∧ u.email = some m.link.email ∧
    w.publicKeyFromHex u.pubkey = .ok user

/-- With a token signed by the user's own key, or with a session of a deletion link and of nothing
else. -/
def Entitled (w : Web) (tenant : TenantId) (x : CustomerWorld) (headers : Headers)
    (user : PublicKey) : Prop :=
  ∃ token, presentedToken headers = some token ∧
    (SignedBy w token user ∨ (∃ m ∈ x.minted, m.token = token) ∧
      ∀ m ∈ x.minted, m.token = token → DeletionSession w tenant x m user)

/-- A deletion that succeeds was one the caller was entitled to. -/
def DeletesRightly (w : Web) (tenant : TenantId) (x : CustomerWorld) (call : CustomerCall) : Prop :=
  ∀ inst headers user, call = .deleteAccount inst headers →
    ((deleteCustomer w inst headers tenant).run x.state).1 = .ok (some user) →
      Entitled w tenant x headers user

/-- What is used of the token library: a token it signed is read back as it was written. -/
def ReadsAllBack (w : Web) : Prop :=
  ∀ keys audience exp facts token, w.signUcan keys audience exp facts = .ok token → ∀ ucan,
    w.decodeToken token = some ucan →
      ucan.audience = some audience ∧ ucan.exp = some exp ∧ ucan.facts = [facts]

/-- **The server's key is not forged**: a deletion that presents a token for this tenant signed by
the server presents one the server has answered with. -/
def Unforged (w : Web) (tenant : TenantId) (x : CustomerWorld) : CustomerCall → Prop
  | .deleteAccount _ headers => ∀ token ∈ presentedToken headers, ∀ server ∈ w.serverPubkey,
      SignedBy w token server →
      (∃ ucan, w.decodeToken token = some ucan ∧ checkTenant ucan tenant = .ok ()) →
        ∃ m ∈ x.minted, m.token = token
  | _ => True

/-! ## Sessions -/

section Sessions

variable {w : Web} {tenant : TenantId} {s : State}

/-- What the server writes into a token is what is read from it. -/
theorem generateServerSignedUcan_read (hread : ReadsAllBack w) {now : Timestamp} {user : PublicKey}
    {email origin : String} {bunker : Option PublicKey} {keys : Keys} {isFirstParty : Bool}
    {lifetime : Nat}
    {token : String} {ucan : Ucan}
    (h : generateServerSignedUcan w now user tenant email origin bunker keys isFirstParty none
      lifetime = .ok token)
    (hdecode : w.decodeToken token = some ucan) :
    ucan.audience = some user ∧ ucan.exp = some (now / 1000000 + lifetime) ∧
      (ucan.fact "first_party" Json.asBool).getD false = isFirstParty := by
  obtain ⟨haudience, hexp, hfacts⟩ := hread _ _ _ _ _ h ucan hdecode
  refine ⟨haudience, hexp, ?_⟩
  unfold Ucan.fact
  rw [hfacts]
  cases bunker <;> cases isFirstParty <;> rfl

/-- A session that is not for a deletion, and says so. -/
def PlainSession (w : Web) (token : String) : Prop :=
  ∃ now user tenant email origin bunker keys lifetime,
    generateServerSignedUcan w now user tenant email origin bunker keys false none
      lifetime = .ok token

theorem linkSession_returns (user : PublicKey) (email page : String) (lifetime : Nat) :
    (linkSession w tenant user email page false lifetime).Returns (PlainSession w) :=
  .bind_right fun _ => .bind_right fun _ => .bind_right fun _ => .ofExcept fun _ h =>
    ⟨_, _, _, _, _, _, _, _, mapError_eq_ok.mp h⟩

theorem issueAccessToken_returns (user : PublicKey) (email origin : String) (bunker : PublicKey) :
    (issueAccessToken w tenant user email origin bunker false).Returns (PlainSession w) :=
  .bind_right fun _ => .bind_right fun _ => .bind_right fun _ => .ofExcept fun _ h =>
    ⟨_, _, _, _, _, _, _, _, mapError_eq_ok.mp h⟩

/-- The app token of a grant. -/
theorem createOAuthAuthorization_returns {inst : InstanceId} {drawn : GrantDrawn}
    {p : CreateAuthorizationParams}
    (hplain : p.isHeadless = false) :
    (createOAuthAuthorization w inst drawn p).Returns fun r => PlainSession w r.accessToken := by
  unfold createOAuthAuthorization
  rw [hplain]
  refine .bind_right fun _ => .bind_right fun _ => .bind_right fun _ => .bind_right fun _ =>
    .bind (issueAccessToken_returns _ _ _ _) fun accessToken htoken => ?_
  extract_lets tail
  have htail : ∀ policyId, (tail policyId).Returns fun r => PlainSession w r.accessToken :=
    fun policyId =>
    .bind_right fun _ => .bind_right fun _ => .bind_right fun _ => .bind_right fun _ => htoken
  split
  · exact .bind_right htail
  · exact .bind_right htail

/-- The session of a deletion link. -/
def LinkToDelete (w : Web) (tenant : TenantId) (s : State) (link : MagicLinkToken)
    (token : String) : Prop :=
  ∃ u user keys, u ∈ s.db.users ∧ u.tenantId = tenant ∧ u.email = some link.email ∧
    w.publicKeyFromHex u.pubkey = .ok user ∧
    generateServerSignedUcan w s.now user tenant link.email link.appOrigin none keys true none
      deleteSessionSeconds =
      .ok token

/-- The session in an answer is one for the link that was consumed. -/
def AnswersLink (w : Web) (tenant : TenantId) (s : State) (link : MagicLinkToken)
    (r : Except AuthError (Option VerifyMagicLinkResponse)) : Prop :=
  ∀ response, r = .ok (some response) → if link.purpose = .deleteAccount then
    LinkToDelete w tenant s link response.sessionToken else PlainSession w response.sessionToken

theorem AnswersLink.error {link : MagicLinkToken} {e : AuthError} :
    AnswersLink w tenant s link (.error e) :=
  fun _ h => nomatch h

theorem deleteSession_answers {link : MagicLinkToken} (hpurpose : link.purpose = .deleteAccount)
    {s' : State} (hnow : s'.now = s.now) (husers : s'.db.users = s.db.users) :
    ((deleteSession w tenant link.email link.appOrigin).bind
      fun response => .ret (some response)).Ends
      (fun r _ => AnswersLink w tenant s link r) s' := by
  unfold deleteSession linkSession
  simp only [Prog.bind_def, Prog.bind_assoc]
  refine .read (.orErr AnswersLink.error fun user huser => .ofExcept (fun _ => AnswersLink.error)
    fun key hkey =>
    .ofExcept (fun _ => AnswersLink.error) fun keys _ =>
      .read (.ofExcept (fun _ => AnswersLink.error)
    fun token htoken => ?_))
  obtain ⟨u, hfind, rfl⟩ := Option.map_eq_some_iff.mp huser
  rw [husers] at hfind
  have hmatch := List.find?_some hfind
  rw [Bool.and_eq_true, beq_iff_eq, beq_iff_eq] at hmatch
  rw [hnow] at htoken
  intro response heq
  cases heq
  rw [if_pos hpurpose]
  exact ⟨u, key, keys, List.mem_of_find?_eq_some hfind, hmatch.2, hmatch.1, mapError_eq_ok.mp hkey,
    mapError_eq_ok.mp htoken⟩

/-- **What `verify_magic_link` answers with**, by what the link is for. -/
theorem verifyMagicLink_session {inst : InstanceId} {drawn : GrantDrawn} {generated : Keys}
    {approved : Option PublicKey} {policyId : RowId} {req : VerifyMagicLinkRequest}
    {link : MagicLinkToken}
    (hlink : (s.db.consumeMagicLink s.now (w.sha256 req.token) tenant).1 = some link) :
    (verifyMagicLink w inst tenant drawn generated approved policyId req).Ends
      (fun r _ => AnswersLink w tenant s link r) s := by
  unfold verifyMagicLink
  split
  · exact fun _ h => nomatch h
  refine .ofExcept (fun _ => AnswersLink.error) fun localKey _ =>
    .ofExcept (fun _ => AnswersLink.error)
    fun grant _ => .stmt (.orErr AnswersLink.error fun link' hlink' => ?_)
  obtain rfl : link' = link := Option.some.inj (hlink'.symm.trans hlink)
  by_cases hpurpose : link'.purpose = .deleteAccount
  · rw [if_pos hpurpose]
    exact deleteSession_answers hpurpose rfl rfl
  · rw [if_neg hpurpose]
    have hplain : ∀ user, (signInSession w inst tenant drawn policyId user link' grant).Returns
        fun response => PlainSession w response.sessionToken := by
      intro user
      cases grant with
      | none => exact .bind (linkSession_returns _ _ _ _) fun _ h => h
      | some grant => exact .bind (.mapErr (createOAuthAuthorization_returns rfl)) fun _ h => h
    refine .ofExcept (fun _ => AnswersLink.error) fun _ _ => ?_
    have hreturns : ((findOrCreateCustomer w tenant link'.email localKey generated).bind fun user =>
        (signInSession w inst tenant drawn policyId user link' grant).bind fun response =>
          .ret (some response)).Returns fun r => ∀ response, r = some response →
            PlainSession w response.sessionToken := by
      refine .bind_right fun user => (hplain user).bind fun response h response' heq => ?_
      cases heq
      exact h
    refine (hreturns.ends _).mono fun r _ h response heq => ?_
    rw [if_neg hpurpose]
    exact h _ heq response rfl

end Sessions

/-! ## Links -/

section Links

variable {w : Web} {tenant : TenantId}

/-- No link appears that was not there, whatever has become of those that were. -/
def LinksKept (s s' : State) : Prop :=
  s'.db.magicLinkTokens.map sentLink ⊆ s.db.magicLinkTokens.map sentLink

theorem LinksKept.refl (s : State) : LinksKept s s := List.Subset.refl _

theorem LinksKept.trans (s₁ s₂ s₃ : State) (h : LinksKept s₁ s₂) (h' : LinksKept s₂ s₃) :
    LinksKept s₁ s₃ :=
  List.Subset.trans h' h

theorem LinksKept.of_eq {s s' : State} (h : s'.db.magicLinkTokens = s.db.magicLinkTokens) :
    LinksKept s s' := by
  unfold LinksKept
  rw [h]
  exact List.Subset.refl _

theorem VisitMove.linksKept {req : VerifyMagicLinkRequest} {l : Stmt} {s s' : State}
    (h : VisitMove w tenant req l s s') : LinksKept s s' := by
  cases l with
  | consumeMagicLink =>
    rw [h]
    show List.map sentLink (updateWhere _ _ _) ⊆ _
    -- consuming a link changes neither its hash nor its address nor what it is for
    rw [map_updateWhere (g := sentLink)]
    · exact List.Subset.refl _
    · exact fun _ => rfl
  | findOrCreatePasswordless =>
    rcases h with rfl | ⟨pubkey, email, secret, user, db, hdb, rfl⟩
    · exact .refl _
    · rcases Db.findOrCreatePasswordless_eq hdb with ⟨-, rfl⟩ | ⟨-, -, -, rfl⟩
      · exact .refl _
      · exact .of_eq rfl
  | _ =>
    refine .of_eq ?_
    rw [h.2.db]

theorem deletion_linksKept {s : State} {user : PublicKey}
    {result : Db.DeleteAccountResult} {db : Db}
    (h : deletion w s.now s.db user tenant = (.ok result, db)) : LinksKept s (s.withDb db) := by
  unfold deletion at h
  split at h
  · have hrun := Db.run_deleteCustomerAccountIn (Prog.transaction_ok.mp h)
    obtain ⟨-, -, rfl, -⟩ := Db.run_deleteAccountIn hrun
    exact List.map_subset _ (List.filter_subset_self _)
  · obtain ⟨-, -, rfl, -⟩ := Db.run_deleteAccountIn (Prog.transaction_ok.mp h)
    exact .refl s

theorem deleteCustomer_steps (inst : InstanceId) (headers : Headers) :
    (deleteCustomer w inst headers tenant).Steps LinksKept := by
  unfold deleteCustomer
  split
  · trivial
  exact .bind
    (deleteAccount_steps LinksKept.refl inst headers tenant
      (fun s user r db h => deletion_linksKept h)
    fun s b => .of_eq rfl) fun _ => trivial

theorem signedInCustomer_steps (headers : Headers) :
    (signedInCustomer w headers tenant).Steps LinksKept :=
  .bind (.orErr _ _) fun _ => .bind (.read LinksKept.refl _ _) fun _ =>
    .bind (.ofExcept _) fun _ => trivial

theorem listCustomerApps_steps (headers : Headers) :
    (listCustomerApps w headers tenant).Steps LinksKept := by
  unfold listCustomerApps
  split
  · trivial
  exact .bind (signedInCustomer_steps headers) fun _ =>
    .bind (.read LinksKept.refl _ _) fun _ => trivial

theorem forgetAuthorizations_steps (inst : InstanceId) (revoked : List (RowId × PublicKey)) :
    (forgetAuthorizations w inst revoked).Steps LinksKept := by
  induction revoked with
  | nil => trivial
  | cons a rest ih =>
    exact .bind (.write _ fun s => .of_eq rfl) fun _ =>
      .bind (.write _ fun s => .of_eq rfl) fun _ =>
      .bind (.write _ LinksKept.refl) fun _ => ih

theorem revokeCustomerApp_steps (inst : InstanceId) (headers : Headers) (appOrigin : String) :
    (revokeCustomerApp w inst headers tenant appOrigin).Steps LinksKept := by
  unfold revokeCustomerApp
  split
  · trivial
  refine .bind (signedInCustomer_steps headers) fun user =>
    .bind (fun s => ⟨.of_eq rfl, trivial⟩) fun revoked => ?_
  split
  · trivial
  · exact .bind (forgetAuthorizations_steps inst revoked) fun _ => trivial

/-- A link that was stored was sent. -/
theorem sendLink_sent {ipAllowed windowAllowed : Bool} {address token page : String}
    {purpose : LinkPurpose}
    (s : State) :
    (sendLink w tenant ipAllowed windowAllowed address token page purpose).Ends (fun r s' =>
      LinksKept s s' ∨ r = .ok (some ⟨address, token⟩) ∧ s'.db.magicLinkTokens.map sentLink =
        s.db.magicLinkTokens.map sentLink ++ [(w.sha256 token, address, purpose)]) s := by
  unfold sendLink
  split
  · exact .inl (.refl s)
  refine .read ?_
  split
  · exact .inl (.refl s)
  refine .bind ?_
  unfold Prog.Ends
  rw [Prog.run_attempt, run_transact]
  generalize hcreate : Option.map _ _ = result
  cases result with
  | none => exact .inl (.refl s)
  | some r =>
    obtain ⟨db, hdb, heq⟩ := Option.map_eq_some_iff.mp hcreate
    subst heq
    unfold Db.createMagicLink at hdb
    split at hdb
    · cases hdb
    · cases hdb
      exact .inr ⟨rfl, List.map_append⟩

/-- Every link of the table was sent, also the new one. -/
theorem requestMagicLink_sent {headers : Headers} {ipAllowed windowAllowed : Bool} {token : String}
    {page email purpose : Option String} (s : State) :
    let call :=
      CustomerCall.requestMagicLink headers ipAllowed windowAllowed token page email purpose
    (afterCall w tenant s call).db.magicLinkTokens.map sentLink ⊆
      s.db.magicLinkTokens.map sentLink ++ sentBy w tenant s call := by
  intro call
  have hends :
    (requestMagicLink w tenant headers ipAllowed windowAllowed token page email purpose).Ends
      (fun r s' => LinksKept s s' ∨ ∃ address kind, parsePurpose purpose = .ok kind ∧
        r = .ok (some ⟨address, token⟩) ∧ s'.db.magicLinkTokens.map sentLink =
          s.db.magicLinkTokens.map sentLink ++ [(w.sha256 token, address, kind)]) s := by
    unfold requestMagicLink
    split
    · exact .inl (.refl s)
    refine .ofExcept (fun _ => .inl (.refl s)) fun kind hkind =>
      .bind_steps Eq.refl (fun _ _ _ => Eq.trans)
      (linkAddress_reads _ _ _) (fun _ s' h => .inl (h ▸ .refl s)) fun address s' h => ?_
    subst h
    refine .orErr (.inl (.refl s)) fun page _ => (sendLink_sent s).mono fun r s' h => ?_
    exact h.imp_right fun ⟨hr, hs'⟩ => ⟨address, kind, hkind, hr, hs'⟩
  simp only [call, afterCall, sentBy]
  rcases hends with h | ⟨address, kind, hkind, hr, hs'⟩
  · exact List.Subset.trans h (List.subset_append_left _ _)
  · rw [hr, hkind, hs']
    exact List.Subset.refl _

/-- A call leaves no link that was not sent. -/
theorem afterCall_links (s : State) (call : CustomerCall) :
    (afterCall w tenant s call).db.magicLinkTokens.map sentLink ⊆
      s.db.magicLinkTokens.map sentLink ++ sentBy w tenant s call := by
  have hkept : ∀ s', LinksKept s s' →
      s'.db.magicLinkTokens.map sentLink ⊆ s.db.magicLinkTokens.map sentLink ++ [] := by
    intro s' h
    rw [List.append_nil]
    exact h
  cases call with
  | requestMagicLink headers ipAllowed windowAllowed token page email purpose =>
    exact requestMagicLink_sent s
  | verifyMagicLink inst drawn generated approved policyId req =>
    exact hkept _ (((verifyMagicLink_does inst drawn generated approved policyId).steps
      fun _ _ _ h => h.linksKept).run LinksKept.refl LinksKept.trans s)
  | listApps headers =>
    exact hkept _ ((listCustomerApps_steps headers).run LinksKept.refl LinksKept.trans s)
  | revokeApp inst headers appOrigin =>
    exact hkept _
      ((revokeCustomerApp_steps inst headers appOrigin).run LinksKept.refl LinksKept.trans s)
  | rpc inst headers nonce req =>
    refine hkept _ (.of_eq ?_)
    unfold afterCall
    rw [nostrRpc_db]
  | deleteAccount inst headers =>
    exact hkept _ ((deleteCustomer_steps inst headers).run LinksKept.refl LinksKept.trans s)
  | tick d => exact hkept _ (.of_eq rfl)

end Links

/-! ## A deletion that succeeds -/

section Deletion

variable {w : Web} {tenant : TenantId}

/-- **What a deletion wants**: an accepted token, signed by the user or marked first-party. -/
theorem deleteCustomer_token {inst : InstanceId} {headers : Headers} {s : State} {user : PublicKey}
    (h : ((deleteCustomer w inst headers tenant).run s).1 = .ok (some user)) :
    ∃ token, ∃ ucan : Ucan, presentedToken headers = some token ∧
      ucan.Accepted w s.now tenant token user ∧
      (ucan.issuer = some user ∨ (ucan.fact "first_party" Json.asBool).getD false = true) := by
  unfold deleteCustomer at h
  split at h
  · cases h
  obtain ⟨user', s', hdelete, h⟩ := Prog.run_bind_ok.mp (Prod.ext h rfl)
  obtain ⟨rfl⟩ : user' = user := by
    cases h
    rfl
  obtain ⟨⟨authHeader, origin, bunker, ucan, hheader, hvalid, hmay⟩, -⟩ :=
    deleteAccount_validated hdelete
  obtain ⟨⟨token, htoken, haccepted⟩, -⟩ := validateUcanToken_accepted hvalid
  refine ⟨token, ucan, ?_, haccepted, ?_⟩
  · unfold presentedToken
    rw [hheader]
    exact htoken
  · unfold mayDelete at hmay
    split at hmay
    · cases hmay
    next issuer hissuer =>
    split at hmay
    · next hside =>
      rw [Bool.or_eq_true, decide_eq_true_eq] at hside
      rcases hside with rfl | hfirst
      · exact .inl hissuer
      · exact .inr hfirst
    · cases hmay

end Deletion

/-! ## Every run -/

section Run

variable {w : Web} {tenant : TenantId} {x : CustomerWorld}

/-- A session in the log is one for its link. -/
structure Minted.Sound (w : Web) (tenant : TenantId) (sent : List SentLink)
    (m : Minted) : Prop where
  sent : sentLink m.link ∈ sent
  consumed : (m.before.db.consumeMagicLink m.before.now m.link.tokenHash tenant).1 = some m.link
  session : if m.link.purpose = .deleteAccount then LinkToDelete w tenant m.before m.link m.token
    else PlainSession w m.token

theorem Minted.Sound.mono {sent sent' : List SentLink} {m : Minted} (hsub : sent ⊆ sent')
    (h : m.Sound w tenant sent) : m.Sound w tenant sent' :=
  ⟨hsub h.sent, h.consumed, h.session⟩

/-- The logs tell the truth. -/
structure CustomerWorld.Sound (w : Web) (tenant : TenantId) (x : CustomerWorld) : Prop where
  links : x.state.db.magicLinkTokens.map sentLink ⊆ x.sent
  minted : ∀ m ∈ x.minted, m.Sound w tenant x.sent

theorem mintedBy_sound (h : x.Sound w tenant) {call : CustomerCall} {m : Minted}
    (hm : m ∈ mintedBy w tenant x.state call) : m.Sound w tenant x.sent := by
  unfold mintedBy at hm
  split at hm
  case h_2 => cases hm
  next inst drawn generated approved policyId req =>
  split at hm
  case h_2 => cases hm
  next response link hresponse hlink =>
  rw [List.mem_singleton] at hm
  subst hm
  have hmem : link ∈ x.state.db.magicLinkTokens := List.mem_of_find?_eq_some hlink
  have hhash : link.tokenHash = w.sha256 req.token := by
    have hvalid := List.find?_some hlink
    simp only [Bool.and_eq_true, beq_iff_eq] at hvalid
    exact hvalid.1.1.1
  refine ⟨h.links (List.mem_map_of_mem hmem), ?_, verifyMagicLink_session hlink response hresponse⟩
  show (x.state.db.consumeMagicLink x.state.now link.tokenHash tenant).1 = some link
  rw [hhash]
  exact hlink

theorem CustomerWorld.Sound.step (h : x.Sound w tenant) (call : CustomerCall) :
    (customerStep w tenant x call).Sound w tenant where
  links := by
    refine List.Subset.trans (afterCall_links x.state call) ?_
    exact List.append_subset.mpr ⟨List.Subset.trans h.links (List.subset_append_left _ _),
      List.subset_append_right _ _⟩
  minted m hm := by
    refine Minted.Sound.mono (List.subset_append_left _ _) ?_
    rcases List.mem_append.mp hm with hm | hm
    · exact h.minted m hm
    · exact mintedBy_sound h hm

/-- A session that deletes is the answer to a deletion link. -/
theorem Minted.Sound.deletion {m : Minted} {user : PublicKey} {ucan : Ucan} (hread : ReadsAllBack w)
    (h : m.Sound w tenant x.sent) (haccepted : ucan.Accepted w x.state.now tenant m.token user)
    (hfirst : (ucan.fact "first_party" Json.asBool).getD false = true) :
      DeletionSession w tenant x m user := by
  by_cases hpurpose : m.link.purpose = .deleteAccount
  · have hsession := h.session
    rw [if_pos hpurpose] at hsession
    obtain ⟨u, key, keys, hu, htenant, hemail, hkey, htoken⟩ := hsession
    obtain ⟨haudience, hexp, -⟩ := generateServerSignedUcan_read hread htoken haccepted.decoded
    obtain rfl : key = user := Option.some.inj (haudience.symm.trans haccepted.audience)
    refine ⟨hpurpose, h.consumed, ?_, h.sent, u, hu, htenant, hemail, hkey⟩
    have hfresh := haccepted.fresh
    unfold Ucan.isExpired at hfresh
    rw [hexp] at hfresh
    exact Int.not_lt.mp (of_decide_eq_false hfresh)
  · -- any other session says that it is not first-party
    have hsession := h.session
    rw [if_neg hpurpose] at hsession
    obtain ⟨now, key, tenant', email, origin, bunker, keys, lifetime, htoken⟩ := hsession
    obtain ⟨-, -, hplain⟩ := generateServerSignedUcan_read hread htoken haccepted.decoded
    rw [hplain] at hfirst
    cases hfirst

theorem CustomerWorld.Sound.deletes (hread : ReadsAllBack w) (h : x.Sound w tenant)
    {call : CustomerCall}
    (hunforged : Unforged w tenant x call) : DeletesRightly w tenant x call := by
  rintro inst headers user rfl hok
  obtain ⟨token, ucan, hpresented, haccepted, hmay⟩ := deleteCustomer_token hok
  refine ⟨token, hpresented, ?_⟩
  have hown : ucan.issuer = some user → SignedBy w token user := fun hissuer =>
    ⟨haccepted.signature, ucan, haccepted.decoded, hissuer⟩
  rcases hmay with hissuer | hfirst
  · exact .inl (hown hissuer)
  rcases haccepted.issuer with hissuer | ⟨server, hserver, hissuer⟩
  · exact .inl (hown hissuer)
  · refine .inr
      ⟨hunforged token hpresented server hserver
        ⟨haccepted.signature, ucan, haccepted.decoded, hissuer⟩
      ⟨ucan, haccepted.decoded, haccepted.tenant⟩, fun m hm heq => ?_⟩
    subst heq
    exact (h.minted m hm).deletion hread haccepted hfirst

/-- **Only a deletion link or the secret key deletes a customer's account**, in every sequence of
calls to the customers' routes. -/
theorem deletion_needs_link_or_key (hread : ReadsAllBack w) (s : State) (calls : List CustomerCall)
    (hunforged : Along (customerStep w tenant) (Unforged w tenant) (.start s) calls) :
    Along (customerStep w tenant) (DeletesRightly w tenant) (.start s) calls :=
  along_of_invariant (fun _ call (h : CustomerWorld.Sound w tenant _) _ => h.step call)
    (fun _ _ h hcall => h.deletes hread hcall)
    ⟨List.Subset.refl _, fun _ hm => nomatch hm⟩ hunforged

end Run

/-! A customer signs in, asks for a link to delete the account, tries it without, and then with the
link. -/

def leavingFacts (more : List (String × Json)) : Json :=
  .obj ([("tenant_id", .int 1), ("email", .str "p@example.com"),
    ("redirect_origin", .str "https://app.example")] ++
    more)

def leavingUcan (exp : Int) (more : List (String × Json)) : Ucan :=
  ⟨some "pub:server", some "p", some exp, [leavingFacts more]⟩

/-- The tokens are a session and one that deletes. -/
def leavingWeb : Web :=
  { Web.symbolic
    [("session", leavingUcan 86400 []), ("deletion", leavingUcan 600 [("first_party", .bool true)])]
      [] with
    customerTenant := some 1
    signUcan := fun keys audience exp facts =>
      match keys, audience, exp, facts with
      | "server", "p", 86400, .obj [("tenant_id", .int 1), ("email", .str "p@example.com"),
          ("redirect_origin", .str "https://app.example")] => .ok "session"
      | "server", "p", 600, .obj [("tenant_id", .int 1), ("email", .str "p@example.com"),
          ("redirect_origin", .str "https://app.example"),
            ("first_party", .bool true)] => .ok "deletion"
      | _, _, _, _ => .error "not in this run" }

theorem leavingWeb_readsAllBack : ReadsAllBack leavingWeb := by
  intro keys audience exp facts token hsign ucan hdecode
  simp only [leavingWeb] at hsign
  split at hsign
  · cases hsign
    cases hdecode
    exact ⟨rfl, rfl, rfl⟩
  · cases hsign
    cases hdecode
    exact ⟨rfl, rfl, rfl⟩
  · cases hsign

def leavingRows : Db where
  users := [{ pubkey := "p", tenantId := 1, email := some "p@example.com", emailVerified := true }]
  magicLinkTokens :=
    [{ tenantId := 1, email := "p@example.com", tokenHash := "sha256:in", purpose := .signIn,
       appOrigin := "https://app.example", expiresAt := 900000000, createdAt := 0 }]

def leavingBearer (token : String) : Headers :=
  { authorization := some (some ("Bearer " ++ token)) }

def visit (token : String) : CustomerCall :=
  .verifyMagicLink 0 ⟨none, 1, "h", "r"⟩ "sk" none 0 { token }

def leaving : List CustomerCall :=
  [visit "in",
    .requestMagicLink (leavingBearer "session") true true "out" (some "https://app.example") none
      (some "delete_account"),
    .deleteAccount 0 (leavingBearer "session"), visit "out",
      .deleteAccount 0 (leavingBearer "deletion")]

def leavingAfter (n : Nat) : CustomerWorld :=
  run (customerStep leavingWeb 1) (.start (.boot leavingRows 0)) (leaving.take n)

theorem unforged_of_minted {w : Web} {tenant : TenantId} {x : CustomerWorld} {inst : InstanceId}
    {token : String}
    (hpresented : presentedToken (leavingBearer token) = some token)
    (hminted : x.minted.any (·.token == token) = true) :
    Unforged w tenant x (.deleteAccount inst (leavingBearer token)) := by
  intro token' htoken' server _ _ _
  rw [Option.mem_def, hpresented] at htoken'
  cases htoken'
  obtain ⟨m, hm, heq⟩ := List.any_eq_true.mp hminted
  exact ⟨m, hm, beq_iff_eq.mp heq⟩

theorem deletion_needs_link_or_key_leaving :
    ((deleteCustomer leavingWeb 0 (leavingBearer "session") 1).run (leavingAfter 2).state).1 =
        .error (.forbidden
          "Account deletion requires the Divine app or web login with your private key") ∧
      ((deleteCustomer leavingWeb 0 (leavingBearer "deletion") 1).run (leavingAfter 4).state).1 =
        .ok (some "p") ∧
      Along (customerStep leavingWeb 1) (DeletesRightly leavingWeb 1)
        (.start (.boot leavingRows 0)) leaving :=
  ⟨by decide, by decide, deletion_needs_link_or_key leavingWeb_readsAllBack _ _
    ⟨trivial, trivial, unforged_of_minted (by decide) (by decide), trivial,
      unforged_of_minted (by decide) (by decide), trivial⟩⟩

end Keycast.Http
