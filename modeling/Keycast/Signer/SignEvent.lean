import Keycast.Http.Token
import Keycast.Signer.Daemon

/-!
# `Signer/SignEvent.lean` — is the event that is signed the one that was asked for?

`handle_sign_event` takes the requested event apart as untyped JSON and builds its own event from
the pieces. Three of the pieces can come out changed. `as u16` keeps the low 16 bits of the kind. Of
a tag only the strings are kept. And an element of `tags` that is no list, or has no string, is left
out. The permissions are asked about the event that came out, which is also the one that is signed;
the client is not told that it is another.

`signed_as_asked_iff` says when it is not another.
-/

set_option autoImplicit false

namespace Keycast.Signer

open Lib

variable {ext : External}

/-! ## The requested event -/

/-- The event parameter of a request, parsed. -/
def requestedEvent (ext : External) (request : Json) : Option Json :=
  ((request.field "params").index 0).asStr.bind ext.parseJson

def tagJson (tag : Tag) : Json := .arr (tag.map .str)

/-- The event has the kind, the content, the time and the tags that were asked for. -/
structure Asked (event : Json) (u : UnsignedEvent) : Prop where
  kind : event.field "kind" = .int u.kind
  content : event.field "content" = .str u.content
  createdAt : event.field "created_at" = .int u.createdAt
  tags : event.field "tags" = .arr (u.tags.map tagJson)

/-- A list of strings, not empty. -/
def IsTag (v : Json) : Prop := ∃ tag : Tag, tag ≠ [] ∧ v = tagJson tag

/-- The kind is a `u16`, and all tags are tags. -/
structure Plain (event : Json) : Prop where
  kind : ∀ k, (event.field "kind").asU64 = some k → k < 65536
  tags : ∀ vs, event.field "tags" = .arr vs → ∀ v ∈ vs, IsTag v

/-! ## The pieces -/

theorem asU64_eq_some {v : Json} {n : Nat} (h : v.asU64 = some n) : v = .int n := by
  cases v with
  | int m =>
    simp only [Json.asU64, Option.ite_none_right_eq_some, Option.some.injEq] at h
    rw [← h.2, Int.toNat_of_nonneg h.1]
  | null | bool | float | str | arr | obj => cases h

theorem asStr_eq_some {v : Json} {s : String} (h : v.asStr = some s) : v = .str s := by
  cases v with
  | str t => rw [Option.some.inj h]
  | null | bool | int | float | arr | obj => cases h

theorem asArray_eq_some {v : Json} {vs : List Json} (h : v.asArray = some vs) : v = .arr vs := by
  cases v with
  | arr ws => rw [Option.some.inj h]
  | null | bool | int | float | str | obj => cases h

theorem filterMap_asStr (strs : List String) : (strs.map Json.str).filterMap Json.asStr = strs := by
  induction strs with
  | nil => rfl
  | cons s strs ih =>
    rw [List.map_cons, List.filterMap_cons_some (show (Json.str s).asStr = some s from rfl), ih]

theorem parseTags_length {values : List Json} {tags : List Tag}
    (h : parseTags ext values = .ok tags) :
    tags.length ≤ values.length := by
  fun_induction parseTags ext values generalizing tags with
  | case1 =>
    cases h
    exact Nat.le_refl _
  | case2 vs rest _ ih => exact Nat.le_succ_of_le (ih h)
  | case3 vs rest s strs _ tag _ ih =>
    cases hrest : parseTags ext rest with
    | error e =>
      rw [hrest] at h
      cases h
    | ok tags' =>
      rw [hrest] at h
      cases h
      exact Nat.succ_le_succ (ih hrest)
  | case4 => cases h
  | case5 v rest _ ih => exact Nat.le_succ_of_le (ih h)

/-- **The tags are kept when each is a tag**, and only then: one that is left out leaves too few. -/
theorem parseTags_kept_iff (htag : ∀ strs tag, ext.tagParse strs = some tag → tag = strs)
    {values : List Json}
    {tags : List Tag} (h : parseTags ext values = .ok tags) : values = tags.map tagJson ↔
      ∀ v ∈ values, IsTag v := by
  have hshort : ∀ {v : Json} {rest : List Json} {tags : List Tag}, parseTags ext rest = .ok tags →
      v :: rest ≠ tags.map tagJson := by
    intro v rest tags hrest heq
    have hlen := congrArg List.length heq
    rw [List.length_cons, List.length_map] at hlen
    exact absurd (parseTags_length hrest) (by omega)
  fun_induction parseTags ext values generalizing tags with
  | case1 =>
    cases h
    simp
  | case2 vs rest hnone ih =>
    refine ⟨fun heq => absurd heq (hshort h), fun hall => ?_⟩
    obtain ⟨tag, hne, htagv⟩ := hall _ List.mem_cons_self
    rw [Json.arr.inj htagv, filterMap_asStr] at hnone
    exact absurd hnone hne
  | case3 vs rest s strs hsome tag hparse ih =>
    cases hrest : parseTags ext rest with
    | error e =>
      rw [hrest] at h
      cases h
    | ok tags' =>
      rw [hrest] at h
      cases h
      obtain rfl := htag _ _ hparse
      rw [List.map_cons, List.cons.injEq, List.forall_mem_cons]
      refine and_congr ⟨fun heq => ⟨s :: strs, List.cons_ne_nil _ _, heq⟩, ?_⟩ (ih hrest)
      rintro ⟨tag, -, htagv⟩
      rw [Json.arr.inj htagv, filterMap_asStr] at hsome
      rw [htagv, hsome]
  | case4 => cases h
  | case5 v rest hnot ih =>
    refine ⟨fun heq => absurd heq (hshort h), fun hall => ?_⟩
    obtain ⟨tag, -, htagv⟩ := hall _ List.mem_cons_self
    exact absurd htagv (hnot _)

/-! ## The whole -/

/-- What `parse_sign_event` reads, and where. -/
theorem parseSignEvent_ok {h : Nip46Handler} {request : Json} {u : UnsignedEvent}
    (hu : parseSignEvent ext h request = .ok u) :
    ∃ event kind vs, requestedEvent ext request = some event ∧
      event.field "kind" = .int (Int.ofNat kind) ∧
      u.kind = kind % 65536 ∧ event.field "content" = .str u.content ∧
      event.field "created_at" = .int (Int.ofNat u.createdAt) ∧ event.field "tags" = .arr vs ∧
      parseTags ext vs = .ok u.tags := by
  obtain ⟨text, htext, hu⟩ := Http.bind_eq_ok.mp hu
  obtain ⟨event, hevent, hu⟩ := Http.bind_eq_ok.mp hu
  obtain ⟨kind, hkind, hu⟩ := Http.bind_eq_ok.mp hu
  obtain ⟨content, hcontent, hu⟩ := Http.bind_eq_ok.mp hu
  obtain ⟨createdAt, hcreated, hu⟩ := Http.bind_eq_ok.mp hu
  obtain ⟨vs, hvs, hu⟩ := Http.bind_eq_ok.mp hu
  obtain ⟨tags, htags, hu⟩ := Http.bind_eq_ok.mp hu
  rw [Http.elim_eq_ok] at htext hevent hkind hcontent hcreated hvs
  cases hu
  refine ⟨event, kind, vs, ?_, asU64_eq_some hkind, rfl, asStr_eq_some hcontent,
    asU64_eq_some hcreated,
    asArray_eq_some hvs, htags⟩
  rw [requestedEvent, htext, Option.bind_some, hevent]

/-- **What was read is what was asked for, exactly when the request is plain.** -/
theorem asked_iff_plain (htag : ∀ strs tag, ext.tagParse strs = some tag → tag = strs)
    {event : Json} {u : UnsignedEvent}
    {kind : Nat} {vs : List Json} (hkind : event.field "kind" = .int kind)
    (hu : u.kind = kind % 65536)
    (hcontent : event.field "content" = .str u.content)
    (hcreated : event.field "created_at" = .int u.createdAt)
    (hvs : event.field "tags" = .arr vs) (htags : parseTags ext vs = .ok u.tags) : Asked event u ↔
      Plain event := by
  have hkept := parseTags_kept_iff htag htags
  constructor
  · rintro ⟨hk, -, -, ht⟩
    refine ⟨fun k hk' => ?_, fun ws hws => ?_⟩
    · rw [asU64_eq_some hk'] at hk
      have heq : k = u.kind := Int.ofNat.inj (Json.int.inj hk)
      rw [heq, hu]
      exact Nat.mod_lt _ (by decide)
    · obtain rfl := Json.arr.inj (hvs.symm.trans hws)
      exact hkept.mp (Json.arr.inj (hvs.symm.trans ht))
  · rintro ⟨hk, ht⟩
    have hlt : kind < 65536 := hk kind (by rw [hkind]; rfl)
    refine ⟨?_, hcontent, hcreated, ?_⟩
    · rw [hkind, hu, Nat.mod_eq_of_lt hlt]
    · rw [hvs, hkept.mpr (ht vs hvs)]

/-- **When the client gets what it asked for.** Let a signed event be read back as the event it was
made from. A request that is answered with a signed event was checked against the permissions for
that same event; and it is the event that was asked for exactly when the kind of the request fits
and its tags are all non-empty lists of strings. -/
theorem signed_as_asked_iff {eventOf : String → Option UnsignedEvent}
    (hsign : ∀ nonce keys u text, ext.signEvent nonce keys u = .ok text → eventOf text = some u)
    (htag : ∀ strs tag, ext.tagParse strs = some tag → tag = strs) {h : Nip46Handler} {nonce : Nat}
    {request : Json}
    {s s' : State} {response : Response}
    (hok : (handleSignEvent ext h nonce request).run s = (.ok response, s')) :
    ∃ event u text, requestedEvent ext request = some event ∧
      response = ⟨request.field "id", .result text⟩ ∧
      eventOf text = some u ∧ ((h.validatePermissionsForSign ext u).run s).1 = .ok () ∧
      (Asked event u ↔ Plain event) := by
  obtain ⟨u, _, h₁, hok⟩ := Prog.run_bind_ok.mp hok
  obtain ⟨hparse, rfl⟩ := Prog.run_ofExcept_ok.mp h₁
  obtain ⟨⟨⟩, _, hvalid, hok⟩ := Prog.run_bind_ok.mp hok
  obtain ⟨text, _, h₂, hok⟩ := Prog.run_bind_ok.mp hok
  obtain ⟨htext, rfl⟩ := Prog.run_ofExcept_ok.mp h₂
  obtain ⟨rfl, -⟩ := Prog.run_ret_ok.mp hok
  obtain ⟨event, kind, vs, hevent, hkind, hu, hcontent, hcreated, hvs, htags⟩ :=
    parseSignEvent_ok hparse
  exact ⟨event, u, text, hevent, rfl, hsign _ _ _ _ (Http.mapError_eq_ok.mp htext), by rw [hvalid],
    asked_iff_plain htag hkind hu hcontent hcreated hvs htags⟩

/-! A client asks for a note; another for an event of a kind that does not fit. -/

section Sample

def noteEvent : UnsignedEvent := ⟨"pub:sk", 5, 1, [["p", "bob"]], "hi"⟩

/-- The JSON of the note, but with the given kind. -/
def noteJson (kind : Int) : Json :=
  .obj [("kind", .int kind), ("content", .str "hi"), ("created_at", .int 5),
    ("tags", .arr [.arr [.str "p", .str "bob"]])]

/-- Libraries that can sign the note and nothing else. -/
def noteExt : External :=
  { External.symbolic [] [("note", noteJson 1), ("large kind", noteJson 65537)] with
    signEvent := fun _ _ u => if u = noteEvent then .ok "the note, signed" else .error "refused" }

def noteOf (text : String) : Option UnsignedEvent :=
  if text = "the note, signed" then some noteEvent else none

def signRequest (text : String) : Json :=
  .obj [("id", .str "1"), ("method", .str "sign_event"), ("params", .arr [.str text])]

def noteHandler : Nip46Handler where
  bunkerKeys := "bunker-sk"
  userKeys := "sk"
  secretHash := "h"
  authorizationId := 1
  tenantId := 1
  isOauth := true

def noteState : State where
  db :=
    { oauthAuthorizations :=
        [{ id := 1, tenantId := 1, userPubkey := "pub:sk", bunkerPublicKey := "pub:bunker-sk",
           secretHash := "h" }] }
  now := 0
  handlers := .empty

theorem noteExt_sign (nonce : Nat) (keys : Keys) (u : UnsignedEvent) (text : String)
    (h : noteExt.signEvent nonce keys u = .ok text) : noteOf text = some u := by
  simp only [noteExt] at h
  split at h
  · next hu =>
    cases h
    rw [hu]
    rfl
  · cases h

theorem noteExt_tag (strs : List String) (tag : Tag)
    (h : noteExt.tagParse strs = some tag) : tag = strs :=
  (Option.some.inj h).symm

theorem note_run (kind : String) (hkind : kind = "note" ∨ kind = "large kind") :
    (handleSignEvent noteExt noteHandler 0 (signRequest kind)).run noteState =
      (.ok ⟨.str "1", .result "the note, signed"⟩, noteState) := by
  rcases hkind with rfl | rfl
  · rfl
  · rfl

theorem signed_as_asked_iff_note :
    ∃ event u text, requestedEvent noteExt (signRequest "note") = some event ∧
      noteOf text = some u ∧
      (Asked event u ↔ Plain event) := by
  obtain ⟨event, u, text, hevent, -, hu, -, hiff⟩ :=
    signed_as_asked_iff noteExt_sign noteExt_tag (note_run "note" (.inl rfl))
  exact ⟨event, u, text, hevent, hu, hiff⟩

/-- **A kind too large is reduced.** The request for an event of kind 65537 is answered with a
signed event of kind 1. -/
theorem large_kind_reduced :
    ¬ ∀ (ext : External) (eventOf : String → Option UnsignedEvent),
      (∀ nonce keys u text, ext.signEvent nonce keys u = .ok text → eventOf text = some u) →
      (∀ strs tag, ext.tagParse strs = some tag → tag = strs) →
      ∀ h nonce request s s' response event text,
        (handleSignEvent ext h nonce request).run s = (.ok response, s') →
        requestedEvent ext request = some event → response.body = .result text →
        ∃ u, eventOf text = some u ∧ Asked event u := by
  intro hall
  obtain ⟨u, hu, hasked⟩ :=
    hall noteExt noteOf noteExt_sign noteExt_tag noteHandler 0 (signRequest "large kind")
    noteState noteState _ (noteJson 65537) _ (note_run "large kind" (.inr rfl)) rfl rfl
  have hnote : u = noteEvent := (Option.some.inj hu).symm
  subst hnote
  cases Json.int.inj hasked.kind

end Sample

end Keycast.Signer
