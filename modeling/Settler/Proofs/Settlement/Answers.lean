import Settler.Proofs.Http.Laws
import Settler.Proofs.Text.Strings
import Settler.Script.Peer

/-!
What a call to the settlement service comes to.

Whatever the far side sends, and however the exchange breaks, the call is answered: with a payload of
the operation's kind, or with a refusal that has a reason. There are three exceptions, two of them in the
hands of the HTTP library, and `Escapes` says which fault each of them lets out.
-/

namespace Settler

open Settler.Http

/-! ### Reasons are never empty -/

theorem Text.quoted_ne_empty (s : Str) : Text.quoted s ≠ "" := by
  simp [Text.quoted]

theorem Decimal.text_ne_empty (x : Binary64) : Decimal.text x ≠ "" := by
  cases x with
  | nan => decide
  | infinite negative => cases negative <;> decide
  | finite negative m e =>
    have written : ∀ d, Decimal.positional d ≠ [] ∧ Decimal.scientific d ≠ [] := by
      intro d
      constructor
      · unfold Decimal.positional
        dsimp only
        split <;> simp
      · unfold Decimal.scientific
        split <;> simp
    simp only [Decimal.text]
    split
    · simp
    · intro empty
      rw [String.ofList_eq_empty_iff, List.append_eq_nil_iff] at empty
      obtain ⟨-, unwritten⟩ := empty
      split at unwritten
      · exact (written _).1 unwritten
      · exact (written _).2 unwritten

theorem Json.shown_ne_empty (j : Json) : j.shown ≠ "" := by
  cases j with
  | null => decide
  | bool b => cases b <;> decide
  | int n => cases n <;> simp [Json.shown, toString, Int.repr, Nat.repr_ne_empty]
  | real x => exact Decimal.text_ne_empty x
  | text s => exact Text.quoted_ne_empty s
  | list items => simp [Json.shown]
  | object ms => simp [Json.shown]

/-- A value that counts as true has a plain text. -/
theorem Json.plain_ne_empty {j : Json} (truthy : j.isTruthy) : j.plain ≠ "" := by
  cases j with
  | text s =>
    rintro (rfl : s = "")
    cases truthy
  | _ => exact fun empty => Json.shown_ne_empty _ (Str.ofString_inj.mp empty)

namespace Settlement

variable {δ : Type} {op : Operation}

/-- An answer that fits its operation: a payload of the operation's kind, or a refusal with a reason. -/
inductive Answers : Operation → Answer → Prop where
  | batch {epoch : Int} (c : Collection) : Answers (.payDebt epoch) (.ok (.batch c))
  | message (text : Str) : Answers .initializeDistribution (.ok (.message (.text text)))
  | calculated {epoch : Int} {announce : Bool} :
      Answers (.calculateDistribution epoch announce) (.ok .done)
  | finalized {epoch : Int} : Answers (.finalizeDistribution epoch) (.ok .done)
  | epoch {n : Int} (nonneg : 0 ≤ n) : Answers .currentEpoch (.ok (.epoch n))
  | collected : Answers .collectAllDebt (.ok .done)
  | refused {op : Operation} {reason : Str} (worded : reason ≠ "") : Answers op (.error reason)

/-- The responses that a call does not answer, and the fault that it lets out. -/
inductive Escapes (lib : Library) (request : Request) : Operation → Response → Fault → Prop where
  /-- The library does not hand the response over, and does not count that as a failure on the way. -/
  | lost {op : Operation} {sent : Response} {f : Fault} (lost : lib.receive request sent = .error f)
      (other : ∀ kind message, f ≠ .transport kind message) : Escapes lib request op sent f
  /-- The body is no JSON, and it cannot be read as text, as the refusal has to. -/
  | unreadable {op : Operation} {sent : Response} {r : Received} {f : Fault}
      (came : lib.receive request sent = .ok r) (undecoded : r.json? = none) (unread : r.text = .error f) :
      Escapes lib request op sent f
  /-- The current epoch is an infinity. -/
  | infinite {sent : Response} {r : Received} {ms : Json.Members} {ok : Json} {negative : Bool}
      (came : lib.receive request sent = .ok r) (body : r.json? = some (.object ms))
      (accepted : Json.lookup "ok" ms = some ok) (truthy : ok.isTruthy)
      (result : Json.lookup "result" ms = some (.real (.infinite negative))) :
      Escapes lib request .currentEpoch sent .infiniteInteger

namespace Wire

theorem readBody_eq_ok_iff {r : Received} {ms : Json.Members} :
    readBody op r = .ok ms ↔ r.json? = some (.object ms) ∧ (Json.lookup "ok" ms).isSome := by
  rw [readBody]
  cases r.json? with
  | none => cases r.text <;> simp [bind, Except.bind, throw, throwThe, MonadExceptOf.throw]
  | some j =>
    cases j with
    | object ms' =>
      simp only [Option.some.injEq, Json.object.injEq]
      split
      · next ok =>
        constructor
        · rintro ⟨⟩
          exact ⟨rfl, ok⟩
        · rintro ⟨rfl, -⟩
          rfl
      · next missing =>
        simp only [reduceCtorEq, false_iff, not_and]
        rintro rfl
        exact missing
    | _ => simp

/-- A body without an answer is malformed, unless it cannot be read as text where that is called for. -/
theorem readBody_error {r : Received} {f : Fault} (h : readBody op r = .error f) :
    (∃ message : Str, f = malformed op r message ∧ message ≠ "") ∨ r.json? = none ∧ r.text = .error f := by
  rw [readBody] at h
  split at h
  · next undecoded =>
    cases read : r.text with
    | error f' =>
      rw [read] at h
      cases h
      exact .inr ⟨undecoded, rfl⟩
    | ok text =>
      rw [read] at h
      cases h
      exact .inl ⟨_, rfl, by simp⟩
  · split at h
    · cases h
    · cases h
      exact .inl ⟨_, rfl, by simp⟩
  · cases h
    exact .inl ⟨_, rfl, by simp⟩

/-- A body that can be read neither as JSON nor as text has no answer. -/
theorem readBody_of_unread {r : Received} {f : Fault} (undecoded : r.json? = none)
    (unread : r.text = .error f) : readBody op r = .error f := by
  rw [readBody, undecoded, unread]
  rfl

theorem verdict_worded {ms : Json.Members} {reason : Str} (h : verdict op ms = .error reason) :
    reason ≠ "" := by
  simp only [verdict] at h
  split at h
  · cases h
  · cases h
    split
    · next truthy => exact Json.plain_ne_empty truthy
    · simp

theorem payload_answers {result : Json} {a : Answer} (h : payload op result = .ok a) :
    Answers op a := by
  cases op with
  | payDebt epoch =>
    simp only [payload] at h
    split at h
    · cases h
      exact .batch _
    · cases h
      exact .refused (by simp)
  | initializeDistribution =>
    cases h
    exact .message _
  | calculateDistribution epoch announce =>
    cases h
    exact .calculated
  | finalizeDistribution epoch =>
    cases h
    exact .finalized
  | currentEpoch =>
    simp only [payload] at h
    split at h
    · cases h
    · cases h
      exact .refused (by simp)
    · split at h
      · cases h
        exact .refused (by simp)
      · next nonneg =>
        cases h
        exact .epoch (Int.not_lt.mp nonneg)
  | collectAllDebt =>
    cases h
    exact .collected

theorem epochOf?_eq_error_iff {result : Json} {f : Fault} :
    epochOf? result = .error f ↔
      (∃ negative, result = .real (.infinite negative)) ∧ f = .infiniteInteger := by
  cases result with
  | real x => cases x <;> simp [epochOf?, eq_comm]
  | _ => simp [epochOf?]

theorem payload_eq_error_iff {result : Json} {f : Fault} :
    payload op result = .error f ↔
      op = .currentEpoch ∧ (∃ negative, result = .real (.infinite negative)) ∧
        f = .infiniteInteger := by
  cases op with
  | currentEpoch =>
    simp only [true_and, ← epochOf?_eq_error_iff, payload]
    cases epochOf? result with
    | error f => simp
    | ok n =>
      cases n with
      | none => simp
      | some n =>
        simp only [reduceCtorEq, iff_false]
        split <;> simp
  | payDebt epoch =>
    simp only [payload, reduceCtorEq, false_and, iff_false]
    split <;> simp
  | _ => simp [payload]

theorem conclude_transport (kind : String) (message : Str) :
    (conclude op (.error (.transport kind message))).1
      = .ok (.error (op.name ++ ": " ++ kind ++ ": " ++ message)) := rfl

theorem breaking?_of_foreign {f : Fault} (foreign : f.IsForeign) : breaking? f = none := by
  cases f with
  | scheduler e => exact absurd rfl (foreign e)
  | _ => rfl

/-- A fault of the library's own goes on, unless it is a failure on the way. -/
theorem conclude_lost {f : Fault} (foreign : f.IsForeign)
    (other : ∀ kind message, f ≠ .transport kind message) : (conclude op (.error f)).1 = .error f := by
  have kept : reception op (.error f) = .error f := by
    cases f with
    | transport kind message => exact absurd rfl (other kind message)
    | _ => rfl
  rw [conclude, kept]
  dsimp only
  rw [breaking?_of_foreign foreign]

theorem verdict_eq_ok_iff {ms : Json.Members} {result : Json} :
    verdict op ms = .ok result ↔ ((Json.lookup "ok" ms).getD .null).isTruthy ∧
      result = (Json.lookup "result" ms).getD .null := by
  simp only [verdict]
  split
  · next truthy => simp [truthy, eq_comm]
  · next falsy => simp [falsy]

/-- A response that is handed over is answered, unless it cannot be read or its result is none for the
operation. -/
theorem conclude_received {r : Received} (readable : FailsForeign r.text) :
    (∀ a, (conclude op (.ok r)).1 = .ok a → Answers op a) ∧
      ∀ f, (conclude op (.ok r)).1 = .error f ↔ r.json? = none ∧ r.text = .error f ∨
        ∃ ms result, readBody op r = .ok ms ∧ verdict op ms = .ok result ∧ payload op result = .error f := by
  have same : reception op (.ok r) = readBody op r := rfl
  simp only [conclude, same]
  cases body : readBody op r with
  | error f =>
    rcases readBody_error body with ⟨message, rfl, worded⟩ | ⟨undecoded, unread⟩
    · have decoded : ∀ f, ¬ (r.json? = none ∧ r.text = .error f) := by
        rintro f ⟨undecoded, unread⟩
        cases (readBody_of_unread undecoded unread).symm.trans body
        exact readable _ unread _ rfl
      refine ⟨?_, by simp [breaking?, malformed, SchedulerError.make, decoded]⟩
      rintro a ⟨⟩
      exact .refused worded
    · simp only [breaking?_of_foreign (readable f unread)]
      refine ⟨nofun, fun f' => ?_⟩
      simp [undecoded, unread]
  | ok ms =>
    have decoded : r.json? ≠ none := by simp [(readBody_eq_ok_iff.mp body).1]
    cases said : verdict op ms with
    | error reason =>
      simp only [said]
      refine ⟨?_, by simp [said, decoded]⟩
      rintro a ⟨⟩
      exact .refused (verdict_worded said)
    | ok result =>
      simp only [said]
      refine ⟨fun a answered => payload_answers answered, ?_⟩
      simp [said, decoded]

end Wire

variable {lib : Library} {request : Request}

/-- A response that is handed over lets out the fault of a text that cannot be read, or that of an infinite
epoch. -/
theorem escapes_of_received {sent : Response} {r : Received} (came : lib.receive request sent = .ok r)
    (f : Fault) : Escapes lib request op sent f ↔ r.json? = none ∧ r.text = .error f ∨
      ∃ ms result, Wire.readBody op r = .ok ms ∧ Wire.verdict op ms = .ok result ∧
        Wire.payload op result = .error f := by
  simp only [Wire.readBody_eq_ok_iff, Wire.verdict_eq_ok_iff, Wire.payload_eq_error_iff]
  constructor
  · intro escapes
    cases escapes with
    | lost lost => cases came.symm.trans lost
    | unreadable came' undecoded unread =>
      cases came.symm.trans came'
      exact .inl ⟨undecoded, unread⟩
    | @infinite sent r' ms ok negative came' body accepted truthy result =>
      cases came.symm.trans came'
      exact .inr ⟨ms, _, ⟨body, by simp [accepted]⟩, ⟨by simpa [accepted] using truthy, rfl⟩, rfl,
        ⟨negative, by simp [result]⟩, rfl⟩
  · rintro (⟨undecoded, unread⟩ | ⟨ms, _, ⟨body, present⟩, ⟨truthy, rfl⟩, rfl, ⟨negative, infinite⟩, rfl⟩)
    · exact .unreadable came undecoded unread
    · obtain ⟨ok, accepted⟩ := Option.isSome_iff_exists.mp present
      cases result : Json.lookup "result" ms with
      | none => simp [result] at infinite
      | some j =>
        rw [result, Option.getD_some] at infinite
        exact .infinite came body accepted (by simpa [accepted] using truthy) (infinite ▸ result)

/-- A plain response lets out the fault of an infinite epoch only. -/
theorem Escapes.of_plain (lawful : lib.Lawful) {sent : Response} (plain : sent.IsPlain) {f : Fault}
    (escapes : Escapes lib request op sent f) : op = .currentEpoch ∧ f = .infiniteInteger := by
  obtain ⟨refusal, came⟩ := lawful.plain request sent plain
  cases escapes with
  | lost lost => cases came.symm.trans lost
  | unreadable came' undecoded unread =>
    cases came.symm.trans came'
    cases unread
  | infinite => exact ⟨rfl, rfl⟩

/-- A settlement service, and its ledger endpoints. -/
def Wire.rehearsed : Wire := ⟨⟨"http", "", "settlement.test", none, "/", none, none⟩, "L", "S"⟩

/-- A far side that cannot be reached in time. -/
def unreachable : Pending Nat Response := .now (.error (.transport "ConnectTimeout" ""))

/-- An accepted answer whose result is an infinity. -/
def endless : Response :=
  { status := 200, body := Script.bytes "\x7b\"ok\":true,\"result\":Infinity\x7d" }

/-- An accepted answer that sends the client to an address without a host. -/
def elsewhere : Response :=
  { status := 302
    headers := [("location", "mailto:ops")]
    body := Script.bytes "\x7b\"ok\":true\x7d" }

theorem receive_elsewhere (request : Request) :
    (Library.standard {}).receive request elsewhere = .error (.invalidAddress Url.needsAbsolutePath) := by
  have sent : elsewhere.location? = some "mailto:ops" := by decide +kernel
  have read : Url.parse (fun _ => none) "mailto:ops" = .ok ⟨"mailto", "", "", none, "ops", none, none⟩ := rfl
  show Library.Lookups.receive {} request elsewhere = _
  rw [Library.Lookups.receive, Library.Lookups.locate, sent]
  simp only [Library.Lookups.follow, read, bind, Except.bind, Except.mapError,
    Library.Lookups.checkHost_default]
  rfl

/-- A response that sends the client to an address with a port that is no number. -/
def astray (body : List UInt8) : Response where
  status := 302
  headers := [("location", "http://settlement.test:port/")]
  body

/-- Whatever its body says, the exchange is broken. -/
theorem receive_astray (request : Request) (body : List UInt8) :
    (Library.standard {}).receive request (astray body) = .error (.transport "RemoteProtocolError"
      ("Invalid URL in location header: " ++ "Invalid port: 'port'" ++ ".")) := by
  have headers : (astray body).location? = (astray []).location? := rfl
  have sent : (astray []).location? = some "http://settlement.test:port/" := by decide +kernel
  have read : Url.parse (fun _ => none) "http://settlement.test:port/" = .error "Invalid port: 'port'" := rfl
  show Library.Lookups.receive {} request (astray body) = _
  rw [Library.Lookups.receive, Library.Lookups.locate, headers, sent]
  simp only [Library.Lookups.follow, read]
  rfl

end Settlement

end Settler
