import Settler.Http.Library
import Settler.Proofs.Http.Addresses

/-!
What an HTTP library is relied on for.

It reads addresses in normal form, raises no error of the scheduler's own, keeps the status of a response,
and hands over the bytes of one whose headers say nothing against that (`Library.Lawful`). Beyond this it
may do as it likes. The library here is lawful if what it looks up is (`Library.lawful_standard`).
-/

namespace Settler

/-- The fault is none of the scheduler's own errors. -/
def Fault.IsForeign (f : Fault) : Prop := ∀ e, f ≠ .scheduler e

/-- What is tried fails with foreign faults only. -/
def FailsForeign {α : Type} (x : Except Fault α) : Prop := ∀ f, x = .error f → f.IsForeign

namespace FailsForeign

variable {α β : Type}

theorem ok (a : α) : FailsForeign (.ok a : Except Fault α) := nofun

theorem error {f : Fault} (foreign : f.IsForeign) : FailsForeign (.error f : Except Fault α) := by
  rintro _ ⟨⟩
  exact foreign

theorem bind {x : Except Fault α} (first : FailsForeign x) {g : α → Except Fault β}
    (after : ∀ a, FailsForeign (g a)) : FailsForeign (x >>= g) := by
  cases x with
  | error f => exact error (first f rfl)
  | ok a => exact after a

theorem map {x : Except Fault α} (first : FailsForeign x) (g : α → β) : FailsForeign (x.map g) := by
  cases x with
  | error f => exact error (first f rfl)
  | ok a => exact ok (g a)

end FailsForeign

namespace Http

open Settler.Text

/-- The response sends the client nowhere, and its headers name no content coding and no character set. -/
structure Response.IsPlain (r : Response) : Prop where
  settled : redirecting.contains r.status = false ∨ r.values "location" = []
  uncoded : r.values "content-encoding" = []
  unnamed : ∀ value, r.header? "content-type" = some value → ';' ∉ value.toList

namespace Response.IsPlain

variable {r : Response} (plain : r.IsPlain)
include plain

theorem location?_eq_none : r.location? = none := by
  unfold location?
  rcases plain.settled with stays | unplaced
  · rw [stays]
    rfl
  · rw [header?, unplaced]
    exact ite_self none

theorem charset?_eq_none : r.charset? = none := by
  unfold charset?
  cases type : r.header? "content-type" with
  | none => rfl
  | some value =>
    have whole : splitAt ';' value.toList = [value.toList] :=
      splitAt_eq_iff.mpr ⟨List.cons_ne_nil _ _, List.forall_mem_singleton.mpr (plain.unnamed value type),
        List.intercalate_singleton⟩
    show ((splitAt ';' value.toList).drop 1).findSome? _ = none
    rw [whole]
    rfl

end Response.IsPlain

namespace Library

/-- The laws of an HTTP library. -/
structure Lawful (lib : Library) : Prop where
  /-- An address that places are below is in normal form. -/
  normal : ∀ text url, lib.base text = .ok url → url.IsNormal
  address : ∀ text, FailsForeign (lib.address text)
  receive : ∀ request sent, FailsForeign (lib.receive request sent)
  text : ∀ request sent r, lib.receive request sent = .ok r → FailsForeign r.text
  status : ∀ request sent r, lib.receive request sent = .ok r → r.status = sent.status
  /-- A plain response is handed over as it was sent, and its text is UTF-8. -/
  plain : ∀ request sent, sent.IsPlain → ∃ refusal, lib.receive request sent
    = .ok ⟨sent.status, sent.body, .ok ⟨(Encoding.utf8.lossy sent.body).map .char⟩, refusal⟩

namespace Lookups

/-- What is looked up fails with foreign faults only, and bytes without a coding are left alone. -/
structure Lawful (l : Lookups) : Prop where
  misnamed : ∀ host f, l.misnamed? host = some f → f.IsForeign
  charset : ∀ name read bytes, l.charset? name = some read → FailsForeign (read bytes)
  uncoded : ∀ codings bytes, FailsForeign (l.uncoded codings bytes)
  plain : ∀ bytes, l.uncoded [] bytes = .ok bytes

/-- So it is where nothing is looked up. -/
theorem lawful_default : ({} : Lookups).Lawful where
  misnamed := nofun
  charset := by
    intro name read bytes found
    obtain ⟨e, -, rfl⟩ := Option.map_eq_some_iff.mp found
    exact .ok _
  uncoded _ bytes := .ok bytes
  plain _ := rfl

/-- And there every host can be read. -/
theorem checkHost_default (u : Url) : ({} : Lookups).checkHost u = .ok () := ite_self _

variable {l : Lookups}

theorem failsForeign_mapError {α : Type} (x : Except String α) {g : String → Fault}
    (foreign : ∀ s, (g s).IsForeign) : FailsForeign (x.mapError g) := by
  cases x with
  | error problem => exact .error (foreign problem)
  | ok a => exact .ok a

theorem failsForeign_parse (text : String) : FailsForeign (l.parse text) :=
  failsForeign_mapError _ fun _ => nofun

theorem failsForeign_checkHost (lawful : l.Lawful) (u : Url) : FailsForeign (l.checkHost u) := by
  unfold checkHost
  split
  · split
    · next misnamed => exact .error (lawful.misnamed _ _ misnamed)
    · exact .ok ()
  · exact .ok ()

theorem failsForeign_follow (lawful : l.Lawful) (asked : Url) (text : String) :
    FailsForeign (l.follow asked text) := by
  have checks := failsForeign_checkHost lawful
  have refused : ∀ message, FailsForeign (throw (.invalidAddress message) : Except Fault Unit) := by
    rintro message _ ⟨⟩
    exact nofun
  have located : ∀ place : Url, FailsForeign (do
      if !place.admitsHost then
        l.checkHost asked
        throw (.invalidAddress Url.needsAbsolutePath)
      if place.scheme = "" && Url.lengthLimit < (asked.seen place).text.length then
        throw (.invalidAddress "URL too long")
      l.checkHost place
      l.checkHost asked) := by
    intro place
    dsimp only
    split
    · exact .bind (checks asked) fun _ => .bind (refused _) fun _ => by
        split
        · exact .bind (refused _) fun _ => .bind (checks place) fun _ => checks asked
        · exact .bind (checks place) fun _ => checks asked
    · split
      · exact .bind (refused _) fun _ => .bind (checks place) fun _ => checks asked
      · exact .bind (checks place) fun _ => checks asked
  unfold follow
  refine .bind (failsForeign_mapError _ ?_) fun place => ?_
  · exact fun _ => nofun
  · dsimp only
    split
    · exact .bind (checks place) fun _ => located place
    · exact located place

theorem failsForeign_receive (lawful : l.Lawful) (request : Request) (sent : Response) :
    FailsForeign (l.receive request sent) := by
  have located : FailsForeign (l.locate request.url sent) := by
    unfold locate
    split
    · exact failsForeign_follow lawful _ _
    · exact .ok ()
  exact .bind located fun _ => .bind (lawful.uncoded _ _) fun _ => .ok _

theorem exists_handed {request : Request} {sent : Response} {r : Received}
    (h : l.receive request sent = .ok r) : ∃ content, r = l.handed request sent content := by
  unfold receive at h
  cases place : l.locate request.url sent with
  | error f =>
    rw [place] at h
    cases h
  | ok u =>
    cases coding : l.uncoded (sent.values "content-encoding") sent.body with
    | error f =>
      rw [place, coding] at h
      cases h
    | ok content =>
      rw [place, coding] at h
      exact ⟨content, (Except.ok.inj h).symm⟩

theorem failsForeign_text (lawful : l.Lawful) (request : Request) (sent : Response) (content : List UInt8) :
    FailsForeign (l.handed request sent content).text := by
  unfold handed
  dsimp only
  split
  · next read found =>
    obtain ⟨name, -, found⟩ := Option.bind_eq_some_iff.mp found
    exact lawful.charset name read content found
  · exact .ok _

end Lookups

/-- The library is lawful if what it looks up is. -/
theorem lawful_standard {l : Lookups} (lawful : l.Lawful) : (standard l).Lawful where
  normal := by
    intro text url h
    replace h : (Url.parse l.ascii? text).mapError Fault.invalidAddress = .ok url := h
    cases read : Url.parse l.ascii? text with
    | error problem =>
      rw [read] at h
      cases h
    | ok u =>
      rw [read] at h
      cases h
      exact Url.parse_isNormal read
  address text := (Lookups.failsForeign_parse text).map Url.standing
  receive := Lookups.failsForeign_receive lawful
  text := by
    intro request sent r h
    obtain ⟨content, rfl⟩ := Lookups.exists_handed h
    exact Lookups.failsForeign_text lawful request sent content
  status := by
    intro request sent r h
    obtain ⟨content, rfl⟩ := Lookups.exists_handed h
    rfl
  plain := by
    intro request sent plain
    refine ⟨refusalText sent.status request.url.text none, ?_⟩
    have stays : l.locate request.url sent = .ok () := by rw [Lookups.locate, plain.location?_eq_none]
    show l.receive request sent = _
    rw [Lookups.receive, stays, plain.uncoded, lawful.plain]
    simp only [bind, Except.bind, pure, Except.pure, Lookups.handed, plain.charset?_eq_none,
      plain.location?_eq_none, Option.bind_none]

end Library

end Http

end Settler
