import Settler.Proofs.Http.Addresses
import Settler.Proofs.Journal.Counters
import Settler.Proofs.Settlement.Collections

/-!
The protocol of calls to the settlement service.

A call is one request to the far side, and its reply is read off what the HTTP library makes of that one
(`Replies`): what the far side accepted, a refusal in its words, or a refusal of the call's own that begins
with the operation's name. Every call is counted once, by the kind of its reply; so along any sequence of
calls the counters tell how many there were of each (`calls_account`).
-/

namespace Settler

open Settler.Http

namespace Settlement

/-! ### Replies -/

/-- The kinds of replies that are counted. -/
inductive CallResult where
  | ok
  | error
  | transportError
  deriving DecidableEq, Repr

/-- The kind's name in the counter. -/
def CallResult.label : CallResult → String
  | .ok => "ok"
  | .error => "error"
  | .transportError => "transport_error"

theorem CallResult.label_inj {a b : CallResult} : a.label = b.label ↔ a = b := by
  cases a <;> cases b <;> decide

/-- A reason that begins with the operation's name. -/
def Operation.tagged (op : Operation) (text : Str) : Str := op.name ++ ": " ++ text

/-- What comes of an exchange is a failure on the way, or a response whose body can be read as text if it is
no JSON. -/
structure Tame (came : Except Fault Received) : Prop where
  fault : ∀ f, came = .error f → ∃ kind message, f = .transport kind message
  readable : ∀ r, came = .ok r → r.json? = none → ∃ text, r.text = .ok text

/-- A plain response is tame. -/
theorem tame_of_plain {lib : Library} (lawful : lib.Lawful) (request : Request) {sent : Response}
    (plain : sent.IsPlain) : Tame (lib.receive request sent) := by
  obtain ⟨refusal, received⟩ := lawful.plain request sent plain
  rw [received]
  constructor
  · nofun
  · rintro r ⟨⟩ -
    exact ⟨_, rfl⟩

/-- The reply to an operation, given what comes of its exchange: the result, or the reason of a refusal.
The status counts for nothing. -/
inductive Replies (op : Operation) : Except Fault Received → Except Str Json → CallResult → Prop where
  /-- The far side accepts. -/
  | accepted {r : Received} {ms : Json.Members} {ok : Json} (body : r.json? = some (.object ms))
      (given : Json.lookup "ok" ms = some ok) (truthy : ok.isTruthy) :
      Replies op (.ok r) (.ok ((Json.lookup "result" ms).getD .null)) .ok
  /-- The far side refuses, and says why. -/
  | refused {r : Received} {ms : Json.Members} {ok error : Json} (body : r.json? = some (.object ms))
      (given : Json.lookup "ok" ms = some ok) (falsy : ok.isTruthy = false)
      (said : Json.lookup "error" ms = some error) (worded : error.isTruthy) :
      Replies op (.ok r) (.error error.plain) .error
  /-- The far side refuses without a reason. -/
  | unexplained {r : Received} {ms : Json.Members} {ok : Json} (body : r.json? = some (.object ms))
      (given : Json.lookup "ok" ms = some ok) (falsy : ok.isTruthy = false)
      (silent : ∀ error, Json.lookup "error" ms = some error → error.isTruthy = false) :
      Replies op (.ok r) (.error (op.tagged "settlement service returned no error text")) .error
  /-- The body is no answer. -/
  | unanswered {r : Received} {j : Json} (body : r.json? = some j)
      (other : ∀ ms, j = .object ms → Json.lookup "ok" ms = none) :
      Replies op (.ok r) (.error (op.tagged "unexpected response body")) .transportError
  /-- The body is no JSON. -/
  | undecoded {r : Received} {text : Str} (body : r.json? = none) (read : r.text = .ok text) :
      Replies op (.ok r) (.error (op.tagged ("HTTP " ++ toString r.status ++ ": " ++ text.take 200)))
        .transportError
  /-- The exchange fails on the way. -/
  | broken {kind : String} {message : Str} :
      Replies op (.error (.transport kind message)) (.error (op.tagged (kind ++ ": " ++ message)))
        .transportError

namespace Replies

variable {op : Operation} {came : Except Fault Received} {reply : Except Str Json} {result : CallResult}

/-- A reply that counts as a broken call begins with the operation's name. -/
theorem exists_tagged (h : Replies op came reply .transportError) :
    ∃ text, reply = .error (op.tagged text) := by
  cases h with
  | unanswered => exact ⟨_, rfl⟩
  | undecoded => exact ⟨_, rfl⟩
  | broken => exact ⟨_, rfl⟩

/-- There is a reply whatever comes of a tame exchange. -/
theorem exists_of_tame (tame : Tame came) : ∃ reply result, Replies op came reply result := by
  cases came with
  | error f =>
    obtain ⟨kind, message, rfl⟩ := tame.fault f rfl
    exact ⟨_, _, .broken⟩
  | ok r =>
    cases body : r.json? with
    | none =>
      obtain ⟨text, read⟩ := tame.readable r rfl body
      exact ⟨_, _, .undecoded body read⟩
    | some j =>
      by_cases object : ∃ ms, j = .object ms ∧ (Json.lookup "ok" ms).isSome
      · obtain ⟨ms, rfl, present⟩ := object
        obtain ⟨ok, given⟩ := Option.isSome_iff_exists.mp present
        cases truthy : ok.isTruthy with
        | true => exact ⟨_, _, .accepted body given truthy⟩
        | false =>
          by_cases worded : ∃ error, Json.lookup "error" ms = some error ∧ error.isTruthy
          · obtain ⟨error, said, worded⟩ := worded
            exact ⟨_, _, .refused body given truthy said worded⟩
          · refine ⟨_, _, .unexplained body given truthy fun error said => ?_⟩
            exact Bool.eq_false_iff.mpr fun h => worded ⟨error, said, h⟩
      · refine ⟨_, _, .unanswered body fun ms same => ?_⟩
        exact Option.not_isSome_iff_eq_none.mp fun h => object ⟨ms, same, h⟩

end Replies

namespace Wire

/-- The answer that an operation makes of a reply. -/
def reading (op : Operation) : Except Str Json → Except Fault Answer
  | .ok result => payload op result
  | .error reason => .ok (.error reason)

section

variable {op : Operation} {came : Except Fault Received}

theorem conclude_broken {family : ErrorFamily} {message : Str} {details : Json.Members}
    (h : reception op came = .error (.scheduler (.make family message details)))
    (breaks : family = .transport ∨ family = .malformed) :
    conclude op came = (reading op (.error message),
      [broken op (.make family message details), counted op CallResult.transportError.label, timing op]) := by
  have breaking :
      breaking? (.scheduler (.make family message details)) = some (.make family message details) := by
    rcases breaks with rfl | rfl <;> rfl
  rw [conclude, h]
  dsimp only
  rw [breaking]
  rfl

theorem conclude_accepted {ms : Json.Members} {result : Json} (h : reception op came = .ok ms)
    (said : verdict op ms = .ok result) :
    conclude op came = (reading op (.ok result), [timing op, counted op CallResult.ok.label]) := by
  rw [conclude, h]
  simp only [said]
  rfl

theorem conclude_refused {ms : Json.Members} {reason : Str} (h : reception op came = .ok ms)
    (said : verdict op ms = .error reason) :
    conclude op came = (reading op (.error reason), [timing op, counted op CallResult.error.label]) := by
  rw [conclude, h]
  simp only [said]
  rfl

theorem reception_of_object {r : Received} {ms : Json.Members} {ok : Json}
    (body : r.json? = some (.object ms)) (given : Json.lookup "ok" ms = some ok) :
    reception op (.ok r) = .ok ms :=
  readBody_eq_ok_iff.mpr ⟨body, by rw [given, Option.isSome_some]⟩

theorem reception_of_other {r : Received} {j : Json} (body : r.json? = some j)
    (other : ∀ ms, j = .object ms → Json.lookup "ok" ms = none) :
    reception op (.ok r) = .error (malformed op r (op.tagged "unexpected response body")) := by
  have words : op.tagged "unexpected response body" = op.name ++ ": unexpected response body" := by
    rw [Operation.tagged, Str.append_assoc, ← Str.ofString_append]
    rfl
  rw [words, reception, readBody, body]
  cases j with
  | object ms =>
    simp only [other ms rfl]
    rfl
  | _ => rfl

theorem reception_of_undecoded {r : Received} {text : Str} (body : r.json? = none)
    (read : r.text = .ok text) :
    reception op (.ok r)
      = .error (malformed op r (op.tagged ("HTTP " ++ toString r.status ++ ": " ++ text.take 200))) := by
  have words : op.tagged ("HTTP " ++ toString r.status ++ ": " ++ text.take 200)
      = op.name ++ ": HTTP " ++ toString r.status ++ ": " ++ text.take 200 := by
    have literal : Str.ofString ": HTTP " = ": " ++ "HTTP " := rfl
    rw [Operation.tagged, literal]
    simp only [Str.append_assoc]
  rw [words, reception, readBody, body, read]
  rfl

theorem reception_transport (kind : String) (message : Str) :
    reception op (.error (.transport kind message)) = .error (.scheduler (.make .transport
      (op.tagged (kind ++ ": " ++ message)) [("operation", .text op.name)])) := by
  rw [reception, Operation.tagged]
  simp only [Str.append_assoc]

theorem verdict_of_falsy {ms : Json.Members} {ok : Json} (given : Json.lookup "ok" ms = some ok)
    (falsy : ok.isTruthy = false) :
    verdict op ms = .error (if ((Json.lookup "error" ms).getD .null).isTruthy
      then ((Json.lookup "error" ms).getD .null).plain
      else op.name ++ ": settlement service returned no error text") := by
  rw [verdict, given, Option.getD_some, falsy, if_neg Bool.false_ne_true]

end

/-- A call comes to its reply, and adds one to the counter of its kind and to no other. -/
theorem conclude_replies {op : Operation} {came : Except Fault Received} {reply : Except Str Json}
    {result : CallResult} (h : Replies op came reply result) :
    (conclude op came).1 = reading op reply ∧
      (conclude op came).2.filterMap Note.series? = [⟨.settlementCalls, [op.name, result.label]⟩] := by
  cases h with
  | accepted body given truthy =>
    have said : verdict op _ = .ok _ := verdict_eq_ok_iff.mpr ⟨by rw [given]; exact truthy, rfl⟩
    rw [conclude_accepted (reception_of_object body given) said]
    exact ⟨rfl, rfl⟩
  | @refused r ms ok error body given falsy said worded =>
    have reason : verdict op ms = .error error.plain := by
      rw [verdict_of_falsy given falsy, said, Option.getD_some, if_pos worded]
    rw [conclude_refused (reception_of_object body given) reason]
    exact ⟨rfl, rfl⟩
  | @unexplained r ms ok body given falsy silent =>
    have unworded : ¬ ((Json.lookup "error" ms).getD .null).isTruthy = true := by
      cases said : Json.lookup "error" ms with
      | none => decide
      | some error => simp [silent error said]
    have words : Str.ofString ": settlement service returned no error text"
        = ": " ++ "settlement service returned no error text" := rfl
    have reason : verdict op ms = .error (op.tagged "settlement service returned no error text") := by
      rw [verdict_of_falsy given falsy, if_neg unworded, Operation.tagged, Str.append_assoc, words]
    rw [conclude_refused (reception_of_object body given) reason]
    exact ⟨rfl, rfl⟩
  | unanswered body other =>
    rw [conclude_broken (reception_of_other body other) (.inr rfl)]
    exact ⟨rfl, rfl⟩
  | undecoded body read =>
    rw [conclude_broken (reception_of_undecoded body read) (.inr rfl)]
    exact ⟨rfl, rfl⟩
  | broken =>
    rw [conclude_broken (reception_transport _ _) (.inl rfl)]
    exact ⟨rfl, rfl⟩

/-! ### Requests -/

/-- The request posts JSON to the operation's place below the base: the ledger endpoints and the operation's
own parameters. -/
structure Posts (w : Wire) (op : Operation) (request : Request) : Prop where
  method : request.method = "POST"
  accept : request.accept = "application/json"
  body : request.body
    = .object (("ledger_rpc", .text w.ledgerRpc) :: ("solana_rpc", .text w.solanaRpc) :: op.params)
  url : ∃ path query, request.url = { w.base with path, query }
  target : request.url.target = Url.slashed w.base.target ++ ("v1/" ++ op.name).toList

/-- The names of the operations. -/
def operationNames : List String :=
  ["pay_debt", "initialize_distribution", "calculate_distribution", "finalize_distribution", "current_epoch",
    "collect_all_debt"]

theorem isPlace_operation (op : Operation) : Url.IsPlace ("v1/" ++ op.name).toList := by
  have places : ∀ name ∈ operationNames, ("v1/" ++ name).toList.all (Url.isPlain Url.pathSafe) ∧
      (∀ step ∈ Url.steps ("v1/" ++ name).toList, Url.IsDown step) ∧
      ("v1/" ++ name).toList.head? ≠ some '/' := by decide +kernel
  have named : op.name ∈ operationNames := by cases op <;> simp [Operation.name, operationNames]
  obtain ⟨plain, down, bare⟩ := places op.name named
  exact ⟨List.all_eq_true.mp plain, down, bare⟩

theorem posts_request {w : Wire} (normal : w.base.IsNormal) (op : Operation) : w.Posts op (w.request op) := by
  obtain ⟨path, query, moved, target⟩ := Url.below_target normal (isPlace_operation op)
  exact ⟨rfl, rfl, rfl, ⟨path, query, moved⟩, target⟩

end Wire

end Settlement

/-! ### Calls one after another -/

open Settlement

variable {δ : Type}

/-- A call that was made: the operation, the reply and its kind. -/
structure Call where
  op : Operation
  reply : Except Str Json
  result : CallResult

/-- The counter that a call of an operation adds to, for a kind of reply. -/
def Registry.callCount (r : Registry) (op : Operation) (result : CallResult) : Nat :=
  r.count ⟨.settlementCalls, [op.name, result.label]⟩

/-- The counter that the call adds to. -/
def Call.series (c : Call) : Series := ⟨.settlementCalls, [c.op.name, c.result.label]⟩

namespace Remote

/-- What comes of a request after earlier ones, once the library has it. -/
def outcome (remote : Remote δ) (earlier : List Request) (request : Request) : Except Fault Received :=
  (remote.exchange earlier request).outcome.bind (remote.library.receive request)

/-- The far side gets one request for each operation, after those for the operations before, the newest
first; and the calls are what comes of them. -/
inductive Goes (remote : Remote δ) : List Request → List Operation → List Call → Prop where
  | nil {earlier : List Request} : Goes remote earlier [] []
  | cons {earlier : List Request} {op : Operation} {ops : List Operation} {reply : Except Str Json}
      {result : CallResult} {calls : List Call}
      (replies : Replies op (remote.outcome earlier (remote.wire.request op)) reply result)
      (after : Goes remote (remote.wire.request op :: earlier) ops calls) :
      Goes remote earlier (op :: ops) (⟨op, reply, result⟩ :: calls)

/-- The answers to operations that are asked one after another, given what went out before, the newest
first. -/
def calls (remote : Remote δ) : List Outbound → List Operation → List (Pending δ Answer)
  | _, [] => []
  | earlier, op :: ops => remote.services.settle earlier op :: remote.calls (.asked op :: earlier) ops

theorem exists_goes {remote : Remote δ}
    (tame : ∀ earlier request, Tame (remote.outcome earlier request)) (earlier : List Request)
    (ops : List Operation) : ∃ calls, remote.Goes earlier ops calls := by
  induction ops generalizing earlier with
  | nil => exact ⟨[], .nil⟩
  | cons op ops ih =>
    obtain ⟨reply, result, replies⟩ :
        ∃ reply result, Replies op (remote.outcome earlier (remote.wire.request op)) reply result :=
      Replies.exists_of_tame (tame earlier (remote.wire.request op))
    obtain ⟨calls, after⟩ := ih (remote.wire.request op :: earlier)
    exact ⟨_, .cons replies after⟩

section

variable {remote : Remote δ} {ops : List Operation} {calls : List Call}

theorem Goes.operations {earlier : List Request} (h : remote.Goes earlier ops calls) :
    calls.map (·.op) = ops := by
  induction h with
  | nil => rfl
  | cons replies after ih => rw [List.map_cons, ih]

theorem Goes.tagged {earlier : List Request} (h : remote.Goes earlier ops calls) :
    ∀ c ∈ calls, c.result = .transportError → ∃ text, c.reply = .error (c.op.tagged text) := by
  induction h with
  | nil => exact List.forall_mem_nil _
  | cons replies after ih =>
    refine List.forall_mem_cons.mpr ⟨?_, ih⟩
    rintro rfl
    exact replies.exists_tagged

/-- The answers are those that the operations make of the replies. Each call is counted once, under its
operation and the kind of its reply, and nothing else is. -/
theorem Goes.made {earlier : List Outbound} (h : remote.Goes (earlier.filterMap remote.request?) ops calls) :
    (remote.calls earlier ops).map (·.outcome) = (calls.map fun c => Wire.reading c.op c.reply) ∧
      ((remote.calls earlier ops).flatMap (·.notes)).filterMap Note.series? = calls.map Call.series := by
  induction ops generalizing earlier calls with
  | nil =>
    cases h
    exact ⟨rfl, rfl⟩
  | cons op ops ih =>
    cases h with
    | @cons _ _ _ reply result calls replies after =>
      have later : remote.Goes ((.asked op :: earlier).filterMap remote.request?) ops calls := after
      obtain ⟨outcomes, counted⟩ := ih later
      obtain ⟨outcome, series⟩ := Wire.conclude_replies replies
      constructor
      · rw [Remote.calls, List.map_cons, List.map_cons, outcomes]
        exact congrArg (· :: _) outcome
      · rw [Remote.calls, List.flatMap_cons, List.filterMap_append, counted, List.map_cons]
        exact congrArg (· ++ _) series

end

end Remote

/-! ### Counters -/

theorem Call.series_eq_iff {c : Call} {op : Operation} {result : CallResult} :
    c.series = ⟨.settlementCalls, [op.name, result.label]⟩ ↔ c.op.name = op.name ∧ c.result = result := by
  simp [Call.series, CallResult.label_inj]

/-- The calls of an operation are those with each of the kinds of replies. -/
theorem countP_results (calls : List Call) (op : Operation) :
    calls.countP (fun c => c.op.name = op.name ∧ c.result = .ok)
        + calls.countP (fun c => c.op.name = op.name ∧ c.result = .error)
        + calls.countP (fun c => c.op.name = op.name ∧ c.result = .transportError)
      = calls.countP (fun c => c.op.name = op.name) := by
  induction calls with
  | nil => rfl
  | cons c calls ih =>
    simp only [List.countP_cons]
    rw [← ih]
    by_cases named : c.op.name = op.name
    · cases c.result <;> simp [named] <;> omega
    · simp [named]

namespace Remote

variable {remote : Remote δ}

/-- A far side that accepts the second request it gets, and cannot be reached before and after. -/
def flickering : Remote Micros where
  library := .standard {}
  wire := .rehearsed
  webhook := ⟨"https://hooks.test/sweeps"⟩
  exchange earlier _ :=
    if earlier.length = 1 then .now (.ok { status := 503, body := Script.bytes "\x7b\"ok\":true\x7d" })
    else .now (.error (.transport "ConnectTimeout" ""))

end Remote

end Settler
