import Mathlib.Data.List.Nodup
import Keycast.Atproto.OAuth

/-!
# `Atproto/Subject.lean` — whom a token is about

The subject of a session is one column of its row, and every approval of the request writes it. A
code or a refresh token is a key to the row, not to the approval it came from, so whoever holds one
gets tokens for the user who approved *last*. `approve_request` does not ask whether the request is
approved already, and for as long as the pushed request has not expired anybody who is logged in may
open it.

`subject_is_stable` is what holds when no approval finds another user's DID in the row: in every
interleaving, every token issued for a code or for a refresh token that descends from it is about
the user whose approval issued the code.

The invariant (`Sound`) files every code, and every refresh token that descends from one, under the
request it was issued for: if it is in the table, it is in the row of that request. Each update is
checked against it by the columns it sets (`Sound.update`). Under the condition a DID once in a row
stays there (`WriteOnce`), so what an approval has put there is what the token endpoint reads later
(`Post`, `response_post`).
-/

set_option autoImplicit false

namespace Keycast.Atproto

open Lib Http

variable {o : Provider} {reqs : Request → Prop}

/-! ## The property -/

/-- The token request presents the code, or a refresh token drawn by a request that descends from
it. -/
inductive Descends (reqs : Request → Prop) (code : String) : TokenRequest → Prop
  | exchange {req : TokenRequest} (hgrant : req.grantType = "authorization_code")
      (hcode : req.code = some code) : Descends reqs code req
  | refresh {req prev : TokenRequest} (hprev : reqs (.token prev)) (h : Descends reqs code prev)
      (hgrant : req.grantType = "refresh_token")
      (htoken : req.refreshToken = some prev.newRefreshToken) :
      Descends reqs code req

abbrev Server (reqs : Request → Prop) :=
  Conf { r : Request // reqs r } Stmt State AuthError Response

/-- Every token issued so far for a code, or for what descends from it, has as its subject the DID
whose approval issued the code. -/
def SubjectStable (c : Server reqs) : Prop :=
  ∀ a ∈ c.threads, ∀ t ∈ c.threads, ∀ headers uri code did url req response,
    a.req.1 = .authorize headers uri code → a.result? = some (.ok (.redirect did code url)) →
    t.req.1 = .token req → Descends reqs code req → t.result? = some (.ok (.token response)) →
    response.sub = did

/-! ## The condition -/

/-- The DID in the row of a request. -/
def State.didOf (s : State) (uri : String) : Option Did :=
  (s.sessions.find? (·.requestUri == uri)).bind (·.atprotoDid)

/-- The condition on a statement: an approval finds no other DID in the row. -/
def NotApprovedByOther (l : Stmt) (s : State) : Prop :=
  match l with
  | .approveRequest uri did => s.didOf uri = none ∨ s.didOf uri = some did
  | _ => True

/-- Codes and refresh tokens are drawn once, and their hashes differ. -/
structure Fresh (o : Provider) (reqs : Request → Prop) : Prop where
  codes : ∀ {headers headers' uri uri' code}, reqs (.authorize headers uri code) →
    reqs (.authorize headers' uri' code) → uri = uri'
  tokens : ∀ {req req'}, reqs (.token req) → reqs (.token req') →
    o.hashRefreshToken req.newRefreshToken = o.hashRefreshToken req'.newRefreshToken → req = req'

/-! ## The invariant -/

/-- A code is in the row of the request it was issued for, and so is every refresh token that
descends from it. -/
structure Sound (o : Provider) (reqs : Request → Prop) (s : State) : Prop where
  uris : (s.sessions.map (·.requestUri)).Nodup
  codes : ∀ r ∈ s.sessions, ∀ code ∈ r.authorizationCode, ∀ headers uri,
    reqs (.authorize headers uri code) → r.requestUri = uri
  tokens : ∀ r ∈ s.sessions, ∀ hash ∈ r.refreshTokenHash, ∀ req, reqs (.token req) →
    o.hashRefreshToken req.newRefreshToken = hash → ∀ headers uri code,
    reqs (.authorize headers uri code) → Descends reqs code req → r.requestUri = uri

/-- A DID once in a row stays there. -/
def WriteOnce (s s' : State) : Prop := ∀ uri did, s.didOf uri = some did → s'.didOf uri = some did

theorem WriteOnce.refl (s : State) : WriteOnce s s := fun _ _ h => h

theorem WriteOnce.trans {a b c : State} (h : WriteOnce a b) (h' : WriteOnce b c) : WriteOnce a c :=
  fun uri did hd => h' uri did (h uri did hd)

section Update

variable {s : State} {p : Session → Bool} {f : Session → Session}

theorem didOf_update (huri : ∀ r, (f r).requestUri = r.requestUri) (uri : String) :
    (s.update p f).2.didOf uri = (s.sessions.find? (·.requestUri == uri)).bind fun r =>
      if p r then (f r).atprotoDid else r.atprotoDid := by
  show ((updateWhere p f s.sessions).find? _).bind _ = _
  rw [find?_updateWhere, Option.bind_map]
  · refine congrArg _ (funext fun r => ?_)
    simp only [Function.comp]
    split <;> rfl
  · intro r
    rw [huri]

/-- An update that leaves the DID alone. -/
theorem WriteOnce.update (huri : ∀ r, (f r).requestUri = r.requestUri)
    (hdid : ∀ r, (f r).atprotoDid = r.atprotoDid) : WriteOnce s (s.update p f).2 := by
  intro uri did h
  rw [didOf_update huri]
  simpa [hdid, State.didOf] using h

/-- What is to be shown of an update: its rows keep their request, and the code and the refresh
token it leaves in a row belong there. -/
theorem Sound.update (hs : Sound o reqs s) (huri : ∀ r, (f r).requestUri = r.requestUri)
    (hcodes : ∀ r ∈ s.sessions, p r = true → ∀ code ∈ (f r).authorizationCode, ∀ headers uri,
      reqs (.authorize headers uri code) → r.requestUri = uri)
    (htokens : ∀ r ∈ s.sessions, p r = true → ∀ hash ∈ (f r).refreshTokenHash, ∀ req,
      reqs (.token req) → o.hashRefreshToken req.newRefreshToken = hash → ∀ headers uri code,
      reqs (.authorize headers uri code) → Descends reqs code req → r.requestUri = uri) :
    Sound o reqs (s.update p f).2 := by
  refine ⟨?_, fun r hr => ?_, fun r hr => ?_⟩
  · show ((updateWhere p f s.sessions).map _).Nodup
    rw [map_updateWhere huri]
    exact hs.uris
  · rcases mem_updateWhere.mp hr with ⟨r₀, hr₀, hp, rfl⟩ | ⟨hr, -⟩
    · rw [huri]
      exact hcodes r₀ hr₀ hp
    · exact hs.codes r hr
  · rcases mem_updateWhere.mp hr with ⟨r₀, hr₀, hp, rfl⟩ | ⟨hr, -⟩
    · rw [huri]
      exact htokens r₀ hr₀ hp
    · exact hs.tokens r hr

/-- An update of other columns. -/
theorem Sound.updateOther (hs : Sound o reqs s) (huri : ∀ r, (f r).requestUri = r.requestUri)
    (hcode : ∀ r, (f r).authorizationCode = r.authorizationCode ∨ (f r).authorizationCode = none)
    (hhash : ∀ r, (f r).refreshTokenHash = r.refreshTokenHash) : Sound o reqs (s.update p f).2 := by
  refine hs.update huri (fun r hr _ code hc => ?_) (fun r hr _ hash hh => ?_)
  · rcases hcode r with h | h
    · rw [h] at hc
      exact hs.codes r hr code hc
    · rw [h] at hc
      cases hc
  · rw [hhash] at hh
    exact hs.tokens r hr hash hh

/-- The row a query finds is the one of its request. -/
theorem Sound.didOf (hs : Sound o reqs s) {r : Session} (hr : r ∈ s.sessions) :
    s.didOf r.requestUri = r.atprotoDid := by
  have hfind : s.sessions.find? (·.requestUri == r.requestUri) = some r := by
    refine find?_eq_some_of_unique hr (by simp) fun r' hr' hq => ?_
    exact List.inj_on_of_nodup_map hs.uris hr' hr (by simpa using hq)
  rw [State.didOf, hfind, Option.bind_some]

end Update

/-! ## One statement at a time -/

theorem approveRequest_sound {s : State} (hs : Sound o reqs s) (uri : String) (user : PublicKey)
    (did : Did) : Sound o reqs (s.approveRequest uri user did).2 :=
  hs.updateOther (fun _ => rfl) (fun _ => .inl rfl) fun _ => rfl

theorem didOf_approveRequest (s : State) (uri uri' : String) (user : PublicKey) (did : Did) :
    (s.approveRequest uri user did).2.didOf uri' =
      (s.sessions.find? (·.requestUri == uri')).bind fun r =>
        if r.requestUri == uri && r.revokedAt.isNone then some did else r.atprotoDid := by
  refine didOf_update ?_ uri'
  intro r
  rfl

/-- Under the condition an approval changes no DID that is in the table. -/
theorem approveRequest_writeOnce {s : State} {uri : String} {did : Did}
    (hc : NotApprovedByOther (.approveRequest uri did) s) (user : PublicKey) :
    WriteOnce s (s.approveRequest uri user did).2 := by
  intro uri' did' h
  rw [didOf_approveRequest]
  obtain ⟨r, hr, hdid⟩ := Option.bind_eq_some_iff.mp h
  rw [hr, Option.bind_some]
  split
  · next hp =>
    -- the row is the approved one, so the condition speaks about its DID
    have huri : uri' = uri := by
      have hr' := List.find?_some hr
      simp only [Bool.and_eq_true, beq_iff_eq] at hp hr'
      rw [← hr', hp.1]
    subst huri
    have hc' : s.didOf uri' = none ∨ s.didOf uri' = some did := hc
    rw [h] at hc'
    simpa [eq_comm] using hc'
  · exact hdid

/-- An approval that finds its request leaves the user's DID there. -/
theorem approveRequest_didOf {s : State} {uri : String} {did : Did} {user : PublicKey} {r : Session}
    (hs : Sound o reqs s) (h : (s.approveRequest uri user did).1 = some r) :
    (s.approveRequest uri user did).2.didOf uri = some did := by
  obtain ⟨r₀, hr₀, -⟩ := Option.map_eq_some_iff.mp h
  have hp := List.find?_some hr₀
  have hfind : s.sessions.find? (·.requestUri == uri) = some r₀ := by
    simp only [Bool.and_eq_true, beq_iff_eq] at hp
    refine find?_eq_some_of_unique (List.mem_of_find?_eq_some hr₀) (by simpa using hp.1) ?_
    intro r' hr' hq
    refine List.inj_on_of_nodup_map hs.uris hr' (List.mem_of_find?_eq_some hr₀) ?_
    rw [hp.1]
    simpa using hq
  rw [didOf_approveRequest, hfind, Option.bind_some, if_pos hp]

theorem updateUnique_some {s s' : State} {p : Session → Bool} {f : Session → Session}
    {b : Option Session} (h : s.updateUnique p f = some (b, s')) : s' = (s.update p f).2 := by
  unfold State.updateUnique at h
  split at h
  · cases h
    rfl
  · cases h

/-- A request writes the code it drew into the row of its own request. -/
theorem storeAuthorizationCode_sound {s s' : State} (hf : Fresh o reqs) (hs : Sound o reqs s)
    {headers : Headers} {uri code : String} (hreq : reqs (.authorize headers uri code))
    {expiresAt : Timestamp} {b : Option Session}
    (h : s.storeAuthorizationCode uri code expiresAt = some (b, s')) :
    Sound o reqs s' ∧ WriteOnce s s' := by
  obtain rfl := updateUnique_some h
  refine ⟨hs.update (fun _ => rfl) ?_ fun r hr _ => hs.tokens r hr,
    .update (fun _ => rfl) fun _ => rfl⟩
  intro r _ hp code' hcode headers' uri' hreq'
  simp only [Bool.and_eq_true, beq_iff_eq] at hp
  obtain rfl : code = code' := by simpa using hcode
  rw [hp.1]
  exact hf.codes hreq hreq'

/-- What makes the values of a token request belong to a row: the codes they descend from were
issued for that row's request. -/
def Belongs (reqs : Request → Prop) (req : TokenRequest) (uri : String) : Prop :=
  ∀ headers uri' code, reqs (.authorize headers uri' code) → Descends reqs code req → uri = uri'

theorem storeTokenArtifacts_sound {s s' : State} (hf : Fresh o reqs) (hs : Sound o reqs s)
    {req : TokenRequest} (hreq : reqs (.token req)) {uri code jkt : String}
    {expiresAt now : Timestamp}
    (hcode : ∀ headers uri', reqs (.authorize headers uri' code) → uri = uri')
    (hbelongs : Belongs reqs req uri) {b : Option Session}
    (h : s.storeTokenArtifacts uri (req.issue o code expiresAt jkt now) = some (b, s')) :
    Sound o reqs s' ∧ WriteOnce s s' := by
  obtain rfl := updateUnique_some h
  refine ⟨hs.update (fun _ => rfl) ?_ ?_, .update (fun _ => rfl) fun _ => rfl⟩
  · intro r _ hp code' hc headers uri' hreq'
    simp only [Bool.and_eq_true, beq_iff_eq] at hp
    obtain rfl : code = code' := by simpa [TokenRequest.issue] using hc
    rw [hp.1]
    exact hcode headers uri' hreq'
  · intro r _ hp hash hh req' hreq' hhash headers uri' code' hauth hdesc
    simp only [Bool.and_eq_true, beq_iff_eq] at hp
    obtain rfl : o.hashRefreshToken req.newRefreshToken = hash := by
      simpa [TokenRequest.issue] using hh
    obtain rfl := hf.tokens hreq' hreq hhash
    rw [hp.1]
    exact hbelongs headers uri' code' hauth hdesc

theorem rotateRefreshToken_sound {s s' : State} (hf : Fresh o reqs) (hs : Sound o reqs s)
    {req : TokenRequest} (hreq : reqs (.token req)) {uri previous code jkt : String}
    {expiresAt now : Timestamp} (hbelongs : Belongs reqs req uri) {b : Option Session}
    (h : s.rotateRefreshToken uri previous (req.issue o code expiresAt jkt now) = some (b, s')) :
    Sound o reqs s' ∧ WriteOnce s s' := by
  obtain rfl := updateUnique_some h
  refine ⟨hs.update (fun _ => rfl) (fun r hr _ => hs.codes r hr) ?_,
    .update (fun _ => rfl) fun _ => rfl⟩
  intro r _ hp hash hh req' hreq' hhash headers uri' code' hauth hdesc
  simp only [Bool.and_eq_true, beq_iff_eq] at hp
  obtain rfl : o.hashRefreshToken req.newRefreshToken = hash := by
    simpa [TokenRequest.issue] using hh
  obtain rfl := hf.tokens hreq' hreq hhash
  rw [hp.1.1.1.1]
  exact hbelongs headers uri' code' hauth hdesc

theorem revoke_sound {s : State} (hs : Sound o reqs s) (p : Session → Bool) :
    Sound o reqs (s.update p (State.markRevoked s.now)).2 ∧
      WriteOnce s (s.update p (State.markRevoked s.now)).2 :=
  ⟨hs.updateOther (fun _ => rfl) (fun _ => .inl rfl) fun _ => rfl,
    .update (fun _ => rfl) fun _ => rfl⟩

/-- A pushed request is a new row with nothing issued in it. -/
theorem createPar_sound {s s' : State} (hs : Sound o reqs s) {row : Session}
    (hcode : row.authorizationCode = none) (hhash : row.refreshTokenHash = none)
    (h : s.createPar row = some s') : Sound o reqs s' ∧ WriteOnce s s' := by
  unfold State.createPar at h
  split at h
  · next hunique =>
    cases h
    simp only [uniqueColumns, Bool.and_eq_true, decide_eq_true_eq] at hunique
    refine ⟨⟨hunique.1.1.1, fun r hr => ?_, fun r hr => ?_⟩, fun uri did hdid => ?_⟩
    · rcases List.mem_append.mp hr with hr | hr
      · exact hs.codes r hr
      · rw [List.mem_singleton.mp hr, hcode]
        intro code hc
        cases hc
    · rcases List.mem_append.mp hr with hr | hr
      · exact hs.tokens r hr
      · rw [List.mem_singleton.mp hr, hhash]
        intro hash hh
        cases hh
    · obtain ⟨r, hr, hdid⟩ := Option.bind_eq_some_iff.mp hdid
      show ((s.sessions ++ [row]).find? _).bind _ = some did
      rw [List.find?_append, hr]
      exact hdid
  · cases h

/-! ## The endpoints -/

/-- What an endpoint owes: an approval has put its user's DID in the row, and the subject of a token
is the DID in the row of every code the request descends from. -/
def Post (reqs : Request → Prop) (r : Request) (_ : List (Stmt × State)) (s : State) :
    Except AuthError Response → Prop
  | .ok (.redirect did _ _) =>
    ∀ headers uri code, r = .authorize headers uri code → s.didOf uri = some did
  | .ok (.token response) => ∀ req, r = .token req → ∀ headers uri code,
      reqs (.authorize headers uri code) → Descends reqs code req → s.didOf uri = some response.sub
  | _ => True

theorem Post.error {r : Request} {seen : List (Stmt × State)} {s : State} (e : AuthError) :
    Post reqs r seen s (.error e) := trivial

theorem Post.stable {r : Request} {seen : List (Stmt × State)} {s s' : State} (hw : WriteOnce s s')
    {x : Except AuthError Response} (h : Post reqs r seen s x) : Post reqs r seen s' x := by
  match x with
  | .error _ | .ok (.par ..) | .ok .login => trivial
  | .ok (.redirect did _ _) => exact fun headers uri code hr => hw uri did (h headers uri code hr)
  | .ok (.token response) =>
    exact fun req hr headers uri code ha hd => hw uri _ (h req hr headers uri code ha hd)

/-- A program of the provider keeps the invariant and meets its postcondition. -/
abbrev Meets (o : Provider) (reqs : Request → Prop) (r : Request) (p : AtprotoM Response) :
    List (Stmt × State) → State → Prop :=
  p.Holds (Sound o reqs) NotApprovedByOther WriteOnce (Post reqs r)

section Endpoints

variable {r : Request} {seen : List (Stmt × State)} {s : State}

theorem meets_unique {β : Type} {l : Stmt} {f : State → Option (β × State)}
    {g : β → AtprotoM Response}
    (h : ∀ s', WriteOnce s s' → Sound o reqs s' → ∀ b s'', f s' = some (b, s'') →
      (Sound o reqs s'' ∧ WriteOnce s' s'') ∧ Meets o reqs r (g b) ((l, s') :: seen) s'') :
    Meets o reqs r ((unique l f).bind g) seen s := by
  rw [unique, Prog.bind_def, Prog.bind_assoc]
  refine Prog.Holds.stmt fun s' hw hs _ => ?_
  cases hf : f s' with
  | none => exact ⟨hs, .refl s', Post.error _⟩
  | some x =>
    obtain ⟨⟨hs', hw'⟩, hg⟩ := h s' hw hs x.1 x.2 hf
    exact ⟨hs', hw', hg⟩

theorem par_meets (req : ParRequest) : Meets o reqs r (par req) seen s := by
  unfold par
  split
  · exact Post.error _
  · refine Prog.Holds.ofExcept Post.error fun jkt _ => ?_
    refine Prog.Holds.ofExcept Post.error fun binding _ => ?_
    refine Prog.Holds.ofExcept Post.error fun tenant _ => ?_
    refine meets_unique fun s' _ hs b s'' hcreate => ⟨?_, trivial⟩
    obtain ⟨s₁, hs₁, heq⟩ := Option.map_eq_some_iff.mp hcreate
    cases heq
    exact createPar_sound hs rfl rfl hs₁

theorem approve_meets (hf : Fresh o reqs) {headers : Headers} {uri code : String}
    (hreq : reqs (.authorize headers uri code)) (session : Session) (user : PublicKey) (did : Did) :
    Meets o reqs (.authorize headers uri code) (approve o session uri code user did) seen s := by
  refine Prog.Holds.stmt fun s₁ _ hs₁ hc => ?_
  refine ⟨approveRequest_sound hs₁ uri user did, approveRequest_writeOnce hc user, ?_⟩
  refine Prog.Holds.orErr (Post.error _) fun row hrow => ?_
  have hdid := approveRequest_didOf hs₁ hrow
  refine Prog.Holds.read WriteOnce.refl fun s hw _ _ => ?_
  refine meets_unique fun s₂ hw₂ hs₂ b s₃ hstore => ?_
  obtain ⟨hs₃, hw₃⟩ := storeAuthorizationCode_sound hf hs₂ hreq hstore
  refine ⟨⟨hs₃, hw₃⟩, ?_⟩
  refine Prog.Holds.orErr (Post.error _) fun _ _ => ?_
  refine Prog.Holds.ofExcept Post.error fun url _ => ?_
  intro headers' uri' code' heq
  cases heq
  exact hw₃ uri did (hw₂ uri did (hw uri did hdid))

theorem authorize_meets (hf : Fresh o reqs) {headers : Headers} {uri code : String}
    (hreq : reqs (.authorize headers uri code)) :
    Meets o reqs (.authorize headers uri code) (authorize o headers uri code) seen s := by
  refine Prog.Holds.read WriteOnce.refl fun s₁ _ _ _ => ?_
  refine Prog.Holds.orErr (Post.error _) fun session _ => ?_
  refine Prog.Holds.read WriteOnce.refl fun s₂ _ _ _ => ?_
  split
  · exact Post.error _
  · refine Prog.Holds.ofExcept Post.error fun user _ => ?_
    cases user with
    | none => trivial
    | some user =>
      refine Prog.Holds.read WriteOnce.refl fun s₃ _ _ _ => ?_
      refine Prog.Holds.orErr (Post.error _) fun did _ => ?_
      exact approve_meets hf hreq session user did

/-- The end of both grants: the subject was read from the row where the codes of the request
belong. -/
theorem response_post {req : TokenRequest} {sub : Did} {uri : String}
    (hbelongs : Belongs reqs req uri)
    (hdid : s.didOf uri = some sub) (accessToken : String) :
    Post reqs (.token req) seen s (.ok (req.response accessToken sub)) := by
  intro req' heq headers uri' code hauth hdesc
  cases heq
  rw [← hbelongs headers uri' code hauth hdesc]
  exact hdid

theorem exchangeCode_meets (hf : Fresh o reqs) {req : TokenRequest} (hreq : reqs (.token req))
    (hgrant : req.grantType = "authorization_code") :
    Meets o reqs (.token req) (exchangeCode o req) seen s := by
  refine Prog.Holds.orErr (Post.error _) fun code hcode => ?_
  refine Prog.Holds.orErr (Post.error _) fun clientId _ => ?_
  refine Prog.Holds.orErr (Post.error _) fun redirectUri _ => ?_
  refine Prog.Holds.orErr (Post.error _) fun verifier _ => ?_
  refine Prog.Holds.read WriteOnce.refl fun s₁ _ hs₁ _ => ?_
  refine Prog.Holds.orErr (Post.error _) fun session hsession => ?_
  have hmem := List.mem_of_find?_eq_some hsession
  have hcodes : ∀ headers uri, reqs (.authorize headers uri code) → session.requestUri = uri := by
    refine hs₁.codes session hmem code ?_
    have hp := List.find?_some hsession
    simp only [Bool.and_eq_true, beq_iff_eq] at hp
    exact hp.1.1
  have hbelongs : Belongs reqs req session.requestUri := by
    intro headers uri code' hauth hdesc
    cases hdesc with
    | exchange _ hcode' =>
      rw [hcode] at hcode'
      cases hcode'
      exact hcodes headers uri hauth
    | refresh _ _ hgrant' =>
      rw [hgrant] at hgrant'
      exact absurd hgrant' (by decide)
  split
  · exact Post.error _
  · split
    · exact Prog.Holds.write fun s₂ _ hs₂ _ =>
        ⟨(revoke_sound hs₂ _).1, (revoke_sound hs₂ _).2, Post.error _⟩
    · refine Prog.Holds.ofExcept Post.error fun _ _ => ?_
      refine Prog.Holds.ofExcept Post.error fun jkt _ => ?_
      refine Prog.Holds.stmt fun s₂ hw₂ hs₂ _ => ?_
      refine ⟨hs₂.updateOther (fun _ => rfl) (fun _ => .inr rfl) fun _ => rfl,
        .update (fun _ => rfl) fun _ => rfl, ?_⟩
      refine Prog.Holds.orErr (Post.error _) fun _ _ => ?_
      refine Prog.Holds.orErr (Post.error _) fun sub hsub => ?_
      refine Prog.Holds.ofExcept Post.error fun accessToken _ => ?_
      refine Prog.Holds.read WriteOnce.refl fun s hw _ _ => ?_
      refine meets_unique fun s₃ hw₃ hs₃ b s₄ hstore => ?_
      obtain ⟨hs₄, hw₄⟩ := storeTokenArtifacts_sound hf hs₃ hreq hcodes hbelongs hstore
      refine ⟨⟨hs₄, hw₄⟩, response_post hbelongs ?_ accessToken⟩
      -- the DID was there when the row was found, and nothing has changed it since
      have hdid : s₁.didOf session.requestUri = some sub := (hs₁.didOf hmem).trans hsub
      have hconsume : WriteOnce s₂ (s₂.consumeAuthorizationCode code).2 :=
        .update (fun _ => rfl) fun _ => rfl
      exact hw₄ _ _ (hw₃ _ _ (hw _ _ (hconsume _ _ (hw₂ _ _ hdid))))

theorem refreshTokens_meets (hf : Fresh o reqs) {req : TokenRequest} (hreq : reqs (.token req))
    (hgrant : req.grantType = "refresh_token") :
    Meets o reqs (.token req) (refreshTokens o req) seen s := by
  refine Prog.Holds.orErr (Post.error _) fun refreshToken htoken => ?_
  refine Prog.Holds.orErr (Post.error _) fun clientId _ => ?_
  refine Prog.Holds.read WriteOnce.refl fun s₁ _ hs₁ _ => ?_
  refine Prog.Holds.orErr (Post.error _) fun session hsession => ?_
  have hmem := List.mem_of_find?_eq_some hsession
  have hbelongs : Belongs reqs req session.requestUri := by
    intro headers uri code hauth hdesc
    cases hdesc with
    | exchange hgrant' _ =>
      rw [hgrant] at hgrant'
      exact absurd hgrant' (by decide)
    | refresh hprev hdesc' _ htoken' =>
      -- the presented token is the one its predecessor drew, and that one's row is known
      rw [htoken] at htoken'
      cases htoken'
      have hp := List.find?_some hsession
      simp only [Bool.and_eq_true, beq_iff_eq] at hp
      exact hs₁.tokens session hmem _ hp.1.1.1 _ hprev rfl headers uri code hauth hdesc'
  split
  · exact Post.error _
  · split
    · refine Prog.Holds.write fun s₂ _ hs₂ _ => ?_
      exact ⟨hs₂.updateOther (fun _ => rfl) (fun _ => .inl rfl) fun _ => rfl,
        .update (fun _ => rfl) fun _ => rfl, Post.error _⟩
    · refine Prog.Holds.ofExcept Post.error fun jkt _ => ?_
      refine Prog.Holds.orErr (Post.error _) fun sub hsub => ?_
      refine Prog.Holds.ofExcept Post.error fun accessToken _ => ?_
      refine Prog.Holds.read WriteOnce.refl fun s hw _ _ => ?_
      refine meets_unique fun s₂ hw₂ hs₂ b s₃ hrotate => ?_
      obtain ⟨hs₃, hw₃⟩ := rotateRefreshToken_sound hf hs₂ hreq hbelongs hrotate
      refine ⟨⟨hs₃, hw₃⟩, ?_⟩
      refine Prog.Holds.orErr (Post.error _) fun _ _ => ?_
      refine response_post hbelongs ?_ accessToken
      have hdid : s₁.didOf session.requestUri = some sub := (hs₁.didOf hmem).trans hsub
      exact hw₃ _ _ (hw₂ _ _ (hw _ _ hdid))

theorem token_meets (hf : Fresh o reqs) {req : TokenRequest} (hreq : reqs (.token req)) :
    Meets o reqs (.token req) (token o req) seen s := by
  unfold token
  split
  · next hgrant => exact exchangeCode_meets hf hreq hgrant
  · split
    · next hgrant => exact refreshTokens_meets hf hreq hgrant
    · exact Post.error _

theorem handle_meets (hf : Fresh o reqs) {r : Request} (hr : reqs r) :
    Meets o reqs r (handle o r) seen s := by
  cases r with
  | par req => exact par_meets req
  | authorize headers uri code => exact authorize_meets hf hr
  | token req => exact token_meets hf hr

end Endpoints

theorem envStep_sound (e : EnvEvent) {s : State} (hs : Sound o reqs s) :
    Sound o reqs (envStep e s) ∧ WriteOnce s (envStep e s) := by
  cases e with
  | tick d => exact ⟨⟨hs.uris, hs.codes, hs.tokens⟩, fun _ _ h => h⟩
  | setIdentities identities => exact ⟨⟨hs.uris, hs.codes, hs.tokens⟩, fun _ _ h => h⟩
  | revokeSessionsForUser tenant user => exact revoke_sound hs _
  | revokeSession uri => exact revoke_sound hs _

theorem guarantees (hf : Fresh o reqs) :
    (system o reqs).Guarantees (Sound o reqs) NotApprovedByOther (fun _ _ => True) WriteOnce
      fun r => Post reqs r.1 where
  refl := WriteOnce.refl
  trans _ _ _ := WriteOnce.trans
  post _ _ _ _ _ hw h := h.stable hw
  prog r _ _ := handle_meets hf r.2
  env e _ _ hs := envStep_sound e hs

/-! ## The result -/

/-- **The subject of what a code gives.** While no approval finds another user's DID in the row of
its request, every token issued for a code or for a refresh token that descends from it is about the
user whose approval issued the code, in every interleaving. -/
theorem subject_is_stable {o : Provider} {reqs : Request → Prop} (hf : Fresh o reqs) {s : State}
    (hs : Sound o reqs s) {es : List (Ev { r : Request // reqs r } EnvEvent)}
    (hok : Along (system o reqs).step (System.Allowed NotApprovedByOther fun _ _ => True)
      (Conf.init s) es) :
    SubjectStable (run (system o reqs).step (Conf.init s) es) := by
  intro a ha t ht headers uri code did url req response hauth happroved htoken hdesc hissued
  have hdid := (guarantees hf).result hs hok ha happroved headers uri code hauth
  have hreq : reqs (.authorize headers uri code) := hauth ▸ a.req.2
  have hsub := (guarantees hf).result hs hok ht hissued req htoken headers uri code hreq hdesc
  rw [hdid] at hsub
  exact (Option.some.inj hsub).symm

/-! One request, opened by two users. -/

def sessionOf (user : PublicKey) : Ucan where
  issuer := some user
  audience := some user
  exp := none
  facts := [.obj [("tenant_id", .int 1), ("redirect_origin", .str "https://login.example")]]

def sharedProvider : Provider where
  toWeb := .symbolic [("alice", sessionOf "alice"), ("bob", sessionOf "bob")] []
  pkceChallenge v := "S256:" ++ v
  hashRefreshToken t := "sha256:" ++ t
  createAccessToken sub jti _ := .ok ("access token " ++ jti ++ " of " ++ sub)
  redirectUrl uri code _ := .ok (uri ++ "?code=" ++ code)

def pushed : ParRequest where
  clientId := "app"
  redirectUri := "https://app.example/callback"
  scope := "atproto"
  codeChallenge := some "S256:verifier"
  codeChallengeMethod := some "S256"
  proof := .ok "jkt"
  clientBinding := .ok .none
  tenant := .ok 1
  requestId := "1"
  nonce := "nonce-0"

def approval (user code : String) : Request :=
  .authorize { cookie := some (some ("keycast_session=" ++ user)) }
    "urn:ietf:params:oauth:request_uri:1"
    code

def exchange : TokenRequest where
  grantType := "authorization_code"
  code := some "code-a"
  clientId := some "app"
  redirectUri := some "https://app.example/callback"
  codeVerifier := some "verifier"
  proof _ := .ok "jkt"
  clientAuth _ := .ok ()
  jti := "jti-1"
  newRefreshToken := "refresh-1"
  nonce := "nonce-1"

def refresh : TokenRequest where
  grantType := "refresh_token"
  clientId := some "app"
  refreshToken := some "refresh-1"
  proof _ := .ok "jkt"
  clientAuth _ := .ok ()
  jti := "jti-2"
  newRefreshToken := "refresh-2"
  nonce := "nonce-2"

inductive Shared : Request → Prop
  | par : Shared (.par pushed)
  | alice : Shared (approval "alice" "code-a")
  | bob : Shared (approval "bob" "code-b")
  | exchange : Shared (.token exchange)
  | refresh : Shared (.token refresh)

def sharedState : State where
  identities :=
    [{ pubkey := "alice", tenantId := 1, enabled := true, state := some .ready,
       did := some "did:alice" },
     { pubkey := "bob", tenantId := 1, enabled := true, state := some .ready,
       did := some "did:bob" }]

theorem shared_uri {headers : Headers} {uri code : String}
    (h : Shared (.authorize headers uri code)) :
    uri = "urn:ietf:params:oauth:request_uri:1" := by
  cases h <;> rfl

theorem shared_fresh : Fresh sharedProvider Shared where
  codes h h' := (shared_uri h).trans (shared_uri h').symm
  tokens := by
    rintro req req' h h' heq
    cases h <;> cases h' <;> first | rfl | exact absurd heq (by decide)

theorem sharedState_sound : Sound sharedProvider Shared sharedState :=
  ⟨.nil, (fun _ hr => nomatch hr), fun _ hr => nomatch hr⟩

/-- A request that is served without interruption, in `n` statements, as thread `i`. -/
def serve (r : { r : Request // Shared r }) (i n : Nat) :
    List (Ev { r : Request // Shared r } EnvEvent) :=
  .spawn r :: List.replicate n (.exec i)

def aliceRun : List (Ev { r : Request // Shared r } EnvEvent) :=
  serve ⟨_, .par⟩ 0 1 ++ serve ⟨_, .alice⟩ 1 6 ++ serve ⟨_, .exchange⟩ 2 4 ++
    serve ⟨_, .refresh⟩ 3 3

def bobRun : List (Ev { r : Request // Shared r } EnvEvent) :=
  serve ⟨_, .par⟩ 0 1 ++ serve ⟨_, .alice⟩ 1 6 ++ serve ⟨_, .exchange⟩ 2 4 ++ serve ⟨_, .bob⟩ 3 6 ++
    serve ⟨_, .refresh⟩ 4 3

instance NotApprovedByOther.decidable (l : Stmt) (s : State) : Decidable (NotApprovedByOther l s) :=
  match l with
  | .approveRequest uri did =>
    inferInstanceAs (Decidable (s.didOf uri = none ∨ s.didOf uri = some did))
  | .clock | .createPar | .findByRequestUri | .readyIdentity | .storeAuthorizationCode ..
  | .findByCode | .consumeAuthorizationCode _ | .storeTokenArtifacts .. | .findByRefreshHash
  | .rotateRefreshToken .. | .revokeSession _ | .revokeRefreshSession _ => .isTrue trivial

/-- The thread has answered the refresh with a token for `sub`. -/
def refreshedFor (sub : Did)
    (t : Thread { r : Request // Shared r } Stmt State AuthError Response) : Bool :=
  match t.req.1, t.result? with
  | .token req, some (.ok (.token response)) =>
    req.refreshToken == some "refresh-1" && req.grantType == "refresh_token" && response.sub == sub
  | _, _ => false

theorem subject_is_stable_alice :
    ((run (system sharedProvider Shared).step (.init sharedState) aliceRun).threads[3]?).any
        (refreshedFor "did:alice") = true ∧
      SubjectStable (run (system sharedProvider Shared).step (.init sharedState) aliceRun) := by
  have hok : Along (system sharedProvider Shared).step
      (System.Allowed NotApprovedByOther fun _ _ => True) (.init sharedState) aliceRun := by
    decide
  exact ⟨by decide, subject_is_stable shared_fresh sharedState_sound hok⟩

/-- The thread is Alice's approval, and it has issued its code for `did`. -/
def approvedFor (did : Did)
    (t : Thread { r : Request // Shared r } Stmt State AuthError Response) : Bool :=
  match t.req.1, t.result? with
  | .authorize _ _ code, some (.ok (.redirect did' code' _)) =>
    code == "code-a" && code' == "code-a" && did' == did
  | _, _ => false

/-- **Alice's refresh token gives a token for Bob**, who opened the same request while it had not
expired. -/
theorem refresh_is_about_stranger :
    Fresh sharedProvider Shared ∧ Sound sharedProvider Shared sharedState ∧
      ¬ SubjectStable (run (system sharedProvider Shared).step (.init sharedState) bobRun) := by
  refine ⟨shared_fresh, sharedState_sound, fun hstable => ?_⟩
  obtain ⟨a, ha, hpa⟩ := Conf.exists_thread (p := approvedFor "did:alice") (i := 1)
    (c := run (system sharedProvider Shared).step (.init sharedState) bobRun) (by decide)
  obtain ⟨t, ht, hpt⟩ := Conf.exists_thread (p := refreshedFor "did:bob") (i := 4)
    (c := run (system sharedProvider Shared).step (.init sharedState) bobRun) (by decide)
  unfold approvedFor at hpa
  unfold refreshedFor at hpt
  split at hpa
  · next headers uri code did code' url hauth hredirect =>
    split at hpt
    · next req response htoken hissued =>
      simp only [Bool.and_eq_true, beq_iff_eq] at hpa hpt
      obtain ⟨⟨rfl, rfl⟩, rfl⟩ := hpa
      -- the refreshed token is the one the exchange of Alice's code drew
      have hdesc : Descends Shared "code-a" req :=
        .refresh .exchange (.exchange rfl rfl) hpt.1.2 hpt.1.1
      have hsub :=
        hstable a (List.mem_of_getElem? ha) t (List.mem_of_getElem? ht) headers uri "code-a"
        "did:alice" url req response hauth hredirect htoken hdesc hissued
      rw [hpt.2] at hsub
      exact absurd hsub (by decide)
    · cases hpt
  · cases hpa

end Keycast.Atproto
