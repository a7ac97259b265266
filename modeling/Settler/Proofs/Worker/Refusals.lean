import Settler.Proofs.Settlement.Calls
import Settler.Proofs.Text.Occurrences
import Settler.Proofs.Worker.Batches
import Settler.Proofs.Worker.SweepRun

/-!
What a sweep makes of the refusal of a payment.

The reason comes to the sweep as the far side words it, and stands for what the texts in it say (`Means`).
Words around a reason never make it worse (`Means.wrap_retryable`, `Means.wrap_terminal`), and a reason
with the transient text keeps the sweep where it is (`payment_refused`).
-/

namespace Settler

open Settlement Http

namespace Str

/-- The text has the word somewhere in it. -/
def Holds (text : Str) (word : String) : Prop := ∃ before after : Str, text = before ++ word ++ after

theorem contains_iff_holds {text : Str} {word : String} : text.contains word = true ↔ text.Holds word := by
  rw [contains_iff]
  constructor
  · rintro ⟨before, after, joined⟩
    exact ⟨⟨before⟩, ⟨after⟩, ext_glyphs joined.symm⟩
  · rintro ⟨before, after, rfl⟩
    exact ⟨before.glyphs, after.glyphs, rfl⟩

theorem Holds.wrap {text : Str} {word : String} (h : text.Holds word) (before after : Str) :
    (before ++ text ++ after).Holds word := by
  obtain ⟨b, a, rfl⟩ := h
  exact ⟨before ++ b, a ++ after, by simp only [append_assoc]⟩

end Str

namespace Settlement

/-! ### Meanings -/

section

variable {α : Type}

/-- What a reason stands for: it may be tried again if it has the transient text; else there is no further
record if it has a marker; else it is unexpected. -/
inductive Means (reason : Str) : Outcome α → Prop where
  | retryable (transient : reason.Holds transientText) : Means reason (.retryable reason)
  | terminal {marker : String} (permanent : ¬ reason.Holds transientText)
      (mem : marker ∈ exhaustedMarkers) (marked : reason.Holds marker) :
      Means reason (.terminal reason)
  | unexpected (permanent : ¬ reason.Holds transientText)
      (unmarked : ∀ marker ∈ exhaustedMarkers, ¬ reason.Holds marker) :
      Means reason (.unexpected reason)

theorem exists_means (reason : Str) : ∃ outcome : Outcome α, Means reason outcome := by
  by_cases transient : reason.Holds transientText
  · exact ⟨_, .retryable transient⟩
  · by_cases marked : ∃ marker ∈ exhaustedMarkers, reason.Holds marker
    · obtain ⟨marker, mem, marked⟩ := marked
      exact ⟨_, .terminal transient mem marked⟩
    · exact ⟨_, .unexpected transient fun marker mem h => marked ⟨marker, mem, h⟩⟩

theorem Means.exhausted {reason : Str} (h : Means reason (.terminal reason : Outcome α)) :
    paymentFailure reason = .exhausted := by
  cases h with
  | terminal permanent mem marked =>
    rw [paymentFailure, if_neg (mt Str.contains_iff_holds.mp permanent),
      if_pos (List.any_eq_true.mpr ⟨_, mem, Str.contains_iff_holds.mpr marked⟩)]

/-- The refusal of a payment is taken for what its reason stands for. -/
theorem ofPayment_means {reason : Str} {outcome : Outcome α} (h : Means reason outcome) :
    Outcome.ofPayment (.error reason) = outcome := by
  cases h with
  | retryable transient =>
    have kind : paymentFailure reason = .retryable := if_pos (Str.contains_iff_holds.mpr transient)
    rw [Outcome.ofPayment, kind]
  | terminal permanent mem marked =>
    rw [Outcome.ofPayment, Means.exhausted (α := α) (.terminal permanent mem marked)]
  | unexpected permanent unmarked =>
    have plain : ¬ exhaustedMarkers.any reason.contains = true := by
      rw [List.any_eq_true]
      rintro ⟨marker, mem, marked⟩
      exact unmarked marker mem (Str.contains_iff_holds.mp marked)
    have kind : paymentFailure reason = .unexpected := by
      rw [paymentFailure, if_neg (mt Str.contains_iff_holds.mp permanent), if_neg plain]
    rw [Outcome.ofPayment, kind]

/-- Words around a reason that may be tried again leave it one. -/
theorem Means.wrap_retryable {reason : Str} (h : Means reason (.retryable reason : Outcome α))
    (before after : Str) :
    Means (before ++ reason ++ after) (.retryable (before ++ reason ++ after) : Outcome α) := by
  cases h with
  | retryable transient => exact .retryable (transient.wrap before after)

/-- Words around a reason that says that there is no further record leave it one, unless they make the
transient text of it. -/
theorem Means.wrap_terminal {reason : Str} (h : Means reason (.terminal reason : Outcome α))
    (before after : Str) :
    Means (before ++ reason ++ after) (.terminal (before ++ reason ++ after) : Outcome α) ∨
      Means (before ++ reason ++ after) (.retryable (before ++ reason ++ after) : Outcome α) := by
  cases h with
  | terminal permanent mem marked =>
    by_cases transient : (before ++ reason ++ after).Holds transientText
    · exact .inr (.retryable transient)
    · exact .inl (.terminal transient mem (marked.wrap before after))

end

/-! ### Refusals -/

/-- The bytes refuse for a reason: they are a JSON object with a member `ok` that counts as false, and the
reason is the text of its `error`, whatever the other members. -/
structure Refuses (content : List UInt8) (reason : Str) : Prop where
  body : ∃ ms ok, decoded? content = some (.object ms) ∧ Json.lookup "ok" ms = some ok ∧
    ok.isTruthy = false ∧ Json.lookup "error" ms = some (.text reason)

/-- The reason for which bytes refuse, if they do and give one as a text. -/
def refusal? (content : List UInt8) : Option Str :=
  match decoded? content with
  | some (.object ms) =>
    match Json.lookup "ok" ms, Json.lookup "error" ms with
    | some ok, some (.text reason) => if ok.isTruthy then none else some reason
    | _, _ => none
  | _ => none

theorem refuses_of_refusal? {content : List UInt8} {reason : Str} (h : refusal? content = some reason) :
    Refuses content reason := by
  unfold refusal? at h
  split at h
  · next ms body =>
    split at h
    · next ok reason' given said =>
      split at h
      · cases h
      · next falsy =>
        cases h
        exact ⟨ms, ok, body, given, Bool.eq_false_iff.mpr falsy, said⟩
    · cases h
  · cases h

variable {δ : Type}

/-- A refusal that is handed over is answered with its reason as it stands. -/
theorem settle_refused {lib : Library} {op : Operation} {request : Request} {exchange : Pending δ Response}
    {sent : Response} {r : Received} {reason : Str} (outcome : exchange.outcome = .ok sent)
    (received : lib.receive request sent = .ok r) (refuses : Refuses r.content reason)
    (worded : reason ≠ "") : (Wire.settle lib op request exchange).outcome = .ok (.error reason) := by
  obtain ⟨ms, ok, body, given, falsy, said⟩ := refuses.body
  have truthy : (Json.text reason).isTruthy := by
    have full : reason.glyphs ≠ [] := fun none => worded (Str.ext_glyphs none)
    simpa [Json.isTruthy] using full
  simp only [Wire.settle, outcome, Except.bind, received]
  exact (Wire.conclude_replies (.refused body given falsy said truthy)).1

end Settlement

/-! ### Sweeps -/

namespace Sweep

variable {δ : Type} [Seconds δ]

/-- A payment that is refused with the transient text is made again: the sweep pauses where it is, and
counts one retry more. -/
theorem step_transient (remote : Remote δ) (s : Solo (Sweep δ)) (turns : Nat) {reason : Str}
    (comes : (Solo.awaitFrom? s.clock (remote.payment s).latency).isSome)
    (answered : (remote.services.settle s.sent (.payDebt s.worker.progress.epoch)).outcome
      = .ok (.error reason))
    (transient : reason.Holds transientText) :
    (s.step remote.services (turns + 2)).1 = .paused s.worker.delay ∧
      (s.step remote.services (turns + 2)).2.worker
        = { s.worker with retries := s.worker.retries + 1 } := by
  obtain ⟨t, comes⟩ := Option.isSome_iff_exists.mp comes
  have kind : paymentFailure reason = .retryable := if_pos (Str.contains_iff_holds.mpr transient)
  obtain ⟨notes, heard⟩ := hear_retryable s.worker kind
  have again : (Machine.resume (Machine.resume s.worker .rested : Turn (Sweep δ) δ).worker
      (.answered (.error reason)) : Turn (Sweep δ) δ)
      = ⟨{ s.worker with retries := s.worker.retries + 1 }, notes, .pause s.worker.delay⟩ := heard
  rw [Solo.step, Solo.work_ask remote.services (turns + 1) s s.worker.next_rested comes answered, again,
    Solo.work_pause _ _ _ rfl]
  exact ⟨rfl, rfl⟩

/-- A payment that is refused is taken for what the reason stands for, as the far side words it. Words
around a reason that may be tried again leave it one, and those around one that says that there is no
further record make it at most one that may be tried again. And a reason with the transient text, whatever
else it says, has the sweep make the same payment again. -/
theorem payment_refused {lib : Library} {request : Request} {exchange : Pending δ Response} {epoch : Int}
    {sent : Response} {r : Received} {reason : Str} (outcome : exchange.outcome = .ok sent)
    (received : lib.receive request sent = .ok r) (refuses : Refuses r.content reason)
    (worded : reason ≠ "") :
    let classed := (Wire.settle lib (.payDebt epoch) request exchange).outcome.map Outcome.ofPayment
    (∃ outcome : Outcome Payload, Means reason outcome) ∧
      (∀ outcome, Means reason outcome → classed = .ok outcome) ∧
      (∀ before after : Str,
        let wrapped := before ++ reason ++ after
        let meant : Outcome Payload := Outcome.ofPayment (.error wrapped)
        (classed = .ok (.retryable reason) → meant = .retryable wrapped) ∧
          (classed = .ok (.terminal reason) → meant = .terminal wrapped ∨ meant = .retryable wrapped)) ∧
      ∀ (remote : Remote δ) (s : Solo (Sweep δ)) (turns : Nat),
        remote.library = lib → remote.paying s = request → remote.payment s = exchange →
        s.worker.progress.epoch = epoch → (Solo.awaitFrom? s.clock exchange.latency).isSome →
        reason.Holds transientText →
          (s.step remote.services (turns + 2)).1 = .paused s.worker.delay ∧
            (s.step remote.services (turns + 2)).2.worker
              = { s.worker with retries := s.worker.retries + 1 } := by
  intro classed
  have answered : (Wire.settle lib (.payDebt epoch) request exchange).outcome = .ok (.error reason) :=
    settle_refused outcome received refuses worded
  have meaning : ∀ outcome, Means reason outcome → classed = .ok outcome := by
    intro outcome means
    rw [← ofPayment_means means]
    exact congrArg (Except.map Outcome.ofPayment) answered
  -- the kind that the reason is classed as is the one that it means, since it means one
  have meant : ∀ outcome : Outcome Payload, classed = .ok outcome → Means reason outcome := by
    intro outcome same
    obtain ⟨other, means⟩ : ∃ outcome : Outcome Payload, Means reason outcome := exists_means reason
    cases same.symm.trans (meaning other means)
    exact means
  refine ⟨exists_means reason, meaning, fun before after => ⟨fun same => ?_, fun same => ?_⟩, ?_⟩
  · exact ofPayment_means ((meant _ same).wrap_retryable before after)
  · exact ((meant _ same).wrap_terminal before after).imp ofPayment_means ofPayment_means
  · rintro remote s turns rfl rfl rfl rfl comes transient
    exact step_transient remote s turns comes answered transient

/-- A response that refuses a payment for a reason. -/
def refusing (reason : String) : Response where
  status := 503
  body := Script.bytes ("\x7b\"ok\":false,\"error\":\"" ++ reason ++ "\"\x7d")

/-- The reason of a service that has walked past its last record. -/
def pastRecords : String := "custom error: Failed to fetch record"

theorem means_pastRecords : Means pastRecords (.terminal pastRecords : Outcome Payload) := by
  have permanent : (Str.ofString pastRecords).contains transientText = false := by decide +kernel
  have marked : (Str.ofString pastRecords).contains "Failed to fetch record" = true := by decide +kernel
  refine .terminal ?_ (List.mem_cons_of_mem _ List.mem_cons_self) (Str.contains_iff_holds.mp marked)
  rw [← Str.contains_iff_holds, permanent]
  exact Bool.false_ne_true

theorem refuses_pastRecords : Refuses (refusing pastRecords).body pastRecords :=
  refuses_of_refusal? (by decide +kernel)

/-- Such a refusal says that there is no further record. -/
theorem payment_refused_pastRecords :
    let request := Wire.rehearsed.request (.payDebt 31)
    ∃ r, (Library.standard {}).receive request (refusing pastRecords) = .ok r ∧
      Refuses r.content pastRecords ∧ pastRecords ≠ "" ∧
      (Wire.settle (.standard {}) (.payDebt 31) request
        (.now (.ok (refusing pastRecords)) : Pending Micros Response)).outcome.map Outcome.ofPayment
          = .ok (.terminal pastRecords) := by
  intro request
  have worded : pastRecords ≠ "" := by decide
  have outcome : (.now (.ok (refusing pastRecords)) : Pending Micros Response).outcome
      = .ok (refusing pastRecords) := rfl
  obtain ⟨refusal, received⟩ := (Library.lawful_standard Library.Lookups.lawful_default).plain request
    (refusing pastRecords) ⟨.inl rfl, rfl, nofun⟩
  exact ⟨_, received, refuses_pastRecords, worded, (payment_refused outcome received refuses_pastRecords
    (mt Str.ofString_inj.mp worded)).2.1 _ means_pastRecords⟩

/-- A response that sends the client to an address that is none does not refuse, whatever its body says: it
breaks the exchange, and the sweep does not take the reason in the body for what it means. -/
theorem astray_refusal :
    let response := astray (refusing pastRecords).body
    Refuses response.body pastRecords ∧ Means pastRecords (.terminal pastRecords : Outcome Payload) ∧
      (Wire.settle (.standard {}) (.payDebt 31) (Wire.rehearsed.request (.payDebt 31))
        (.now (.ok response) : Pending Micros Response)).outcome.map Outcome.ofPayment = .ok (.unexpected
          "pay_debt: RemoteProtocolError: Invalid URL in location header: Invalid port: 'port'.") := by
  intro response
  refine ⟨refuses_pastRecords, means_pastRecords, ?_⟩
  have broken : (Wire.settle (.standard {}) (.payDebt 31) (Wire.rehearsed.request (.payDebt 31))
      (.now (.ok response) : Pending Micros Response)).outcome = .ok (.error
          "pay_debt: RemoteProtocolError: Invalid URL in location header: Invalid port: 'port'.") := by
    simp only [response, Wire.settle, Pending.now, Except.bind, receive_astray]
    rfl
  have unexpected : paymentFailure
      "pay_debt: RemoteProtocolError: Invalid URL in location header: Invalid port: 'port'."
        = .unexpected := by decide +kernel
  rw [broken]
  simp only [Except.map, Outcome.ofPayment, unexpected]

end Sweep

end Settler
