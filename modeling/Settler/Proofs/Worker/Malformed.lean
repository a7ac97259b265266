import Settler.Proofs.Settlement.Echoes
import Settler.Proofs.Worker.Batches
import Settler.Proofs.Worker.SweepRun

/-!
What a sweep makes of a payment that is accepted with a malformed result.

It goes neither on nor back, and it does not try again. It stops as faulted and posts nothing, unless the
report on the result echoes a text that stands for the end of the records: then the sweep takes itself to
be done (`step_malformed`).
-/

namespace Settler

open Settler.Settlement Settler.Http

namespace Sweep

variable {δ : Type} [Seconds δ]

/-- A sweep that has its totals posted does not end as faulted. -/
theorem stop_work_post (services : Services δ) (fuel : Nat) (s : Solo (Sweep δ)) {turn : Turn (Sweep δ) δ}
    {sums : Summary} (next : turn.next = .post sums) :
    (Solo.work services fuel s turn).1 ≠ .exited .faulted := by
  cases fuel with
  | zero => rintro ⟨⟩
  | succ fuel =>
    rw [Solo.work, next]
    simp only [Solo.hear, Solo.await_eq]
    cases Solo.awaitFrom? s.clock (services.post s.sent sums).latency with
    | none => rintro ⟨⟩
    | some t =>
      cases (services.post s.sent sums).outcome with
      | error f => rintro ⟨⟩
      | ok posted =>
        cases fuel with
        | zero => rintro ⟨⟩
        | succ fuel => rintro ⟨⟩

omit [Seconds δ] in
theorem settle_malformed {lib : Library} {epoch : Int} {request : Request} {exchange : Pending δ Response}
    {sent : Response} {r : Received} {result : Json} {report : Validation.Report}
    (outcome : exchange.outcome = .ok sent) (received : lib.receive request sent = .ok r)
    (accepts : Accepts r.content result) (invalid : Collection.validate result = .error report) :
    (Wire.settle lib (.payDebt epoch) request exchange).outcome
      = .ok (.error (Collection.malformed epoch report)) := by
  simp only [Wire.settle, outcome, Except.bind, received]
  rw [Wire.conclude_accepts accepts, Wire.payload, invalid]
  rfl

/-- The sweep stays as it is after a payment that is accepted with a malformed result. It ends as faulted,
and then posts nothing, exactly if the report echoes no text that stands for the end of the records. -/
theorem step_malformed (remote : Remote δ) (s : Solo (Sweep δ)) (turns : Nat) {sent : Response}
    {r : Received} {result : Json} {report : Validation.Report}
    (comes : (Solo.awaitFrom? s.clock (remote.payment s).latency).isSome)
    (outcome : (remote.payment s).outcome = .ok sent)
    (received : remote.library.receive (remote.paying s) sent = .ok r)
    (accepts : Accepts r.content result) (invalid : Collection.validate result = .error report) :
    let ended := s.step remote.services (turns + 2)
    ended.2.worker = s.worker ∧
      (ended.1 = .exited .faulted ↔ ¬ Collection.Echoes report) ∧
      (¬ Collection.Echoes report →
        ended.2.sent = .asked (.payDebt s.worker.progress.epoch) :: s.sent) := by
  intro ended
  obtain ⟨t, comes⟩ := Option.isSome_iff_exists.mp comes
  have answered : (remote.services.settle s.sent (.payDebt s.worker.progress.epoch)).outcome
      = .ok (.error (Collection.malformed s.worker.progress.epoch report)) :=
    settle_malformed outcome received accepts invalid
  obtain ⟨permanent, exhausted⟩ := Collection.paymentFailure_malformed s.worker.progress.epoch
    (Collection.reported_of_validate invalid)
  have steps : ended = Solo.work remote.services (turns + 1) _ (s.worker.hear _) :=
    Solo.work_ask remote.services (turns + 1) s s.worker.next_rested comes answered
  cases kind : paymentFailure (Collection.malformed s.worker.progress.epoch report) with
  | retryable => exact absurd kind permanent
  | exhausted =>
    have echoes := exhausted.mp kind
    obtain ⟨notes, heard⟩ := hear_terminal s.worker (by rw [Outcome.ofPayment, kind])
    rw [heard] at steps
    refine ⟨?_, iff_of_false ?_ fun silent => silent echoes, fun silent => absurd echoes silent⟩
    · rw [steps]
      refine (worker_work remote.services (turns + 1) _ fun op asks => ?_).elim id id
      cases asks
    · rw [steps]
      exact stop_work_post remote.services (turns + 1) _ rfl
  | _ =>
    have silent : ¬ Collection.Echoes report := by
      rw [← exhausted, kind]
      rintro ⟨⟩
    obtain ⟨notes, heard⟩ := hear_unexpected s.worker (by rw [Outcome.ofPayment, kind])
    rw [heard, Solo.work_exit _ _ _ rfl] at steps
    rw [steps]
    exact ⟨rfl, iff_of_true rfl silent, fun _ => rfl⟩

/-- A refusal that is taken for the end of the records has the sweep go on to post its totals. -/
theorem step_told (services : Services δ) (s : Solo (Sweep δ)) (turns : Nat) {reason : Str} {t : Instant}
    (comes : Solo.awaitFrom? s.clock
      (services.settle s.sent (.payDebt s.worker.progress.epoch)).latency = some t)
    (answered : (services.settle s.sent (.payDebt s.worker.progress.epoch)).outcome = .ok (.error reason))
    (kind : paymentFailure reason = .exhausted) :
    ∃ notes notes', s.step services (turns + 1)
      = Solo.work services turns ⟨s.worker, t, .asked (.payDebt s.worker.progress.epoch) :: s.sent, notes⟩
          ⟨s.worker, notes', .post s.worker.progress.summary⟩ := by
  obtain ⟨notes', heard⟩ := hear_terminal s.worker (by rw [Outcome.ofPayment, kind])
  have again : (Machine.resume (Machine.resume s.worker .rested : Turn (Sweep δ) δ).worker
      (.answered (.error reason)) : Turn (Sweep δ) δ) = ⟨s.worker, notes', .post s.worker.progress.summary⟩ :=
    heard
  rw [Solo.step, Solo.work_ask services turns s s.worker.next_rested comes answered, again]
  exact ⟨_, notes', rfl⟩

/-- Totals that are posted then end it as done. -/
theorem step_exhausted (services : Services δ) (s : Solo (Sweep δ)) (turns : Nat) {reason : Str}
    {t u : Instant}
    (comes : Solo.awaitFrom? s.clock
      (services.settle s.sent (.payDebt s.worker.progress.epoch)).latency = some t)
    (answered : (services.settle s.sent (.payDebt s.worker.progress.epoch)).outcome = .ok (.error reason))
    (kind : paymentFailure reason = .exhausted)
    (delivers : Solo.awaitFrom? t (services.post (.asked (.payDebt s.worker.progress.epoch) :: s.sent)
      s.worker.progress.summary).latency = some u)
    (posted : (services.post (.asked (.payDebt s.worker.progress.epoch) :: s.sent)
      s.worker.progress.summary).outcome = .ok ()) :
    (s.step services (turns + 3)).1 = .exited .normal ∧
      (s.step services (turns + 3)).2.sent
        = .posted s.worker.progress.summary :: .asked (.payDebt s.worker.progress.epoch) :: s.sent := by
  obtain ⟨notes, notes', steps⟩ := step_told services s (turns + 2) comes answered kind
  rw [steps, Solo.work_post services (turns + 1) _ rfl delivers posted, Solo.work_exit _ _ _ rfl]
  exact ⟨rfl, rfl⟩

/-! ### Texts in the place of a number -/

/-- A response that accepts a payment, with a text in the place of the debt. -/
def textual (debt : String) : Response where
  status := 200
  body := Script.bytes ("\x7b\"ok\":true,\"result\":\x7b\"total_debt\":\"" ++ debt
    ++ "\",\"total_paid\":0,\"insufficient_funds_count\":0\x7d\x7d")

/-- The report on the result in bytes that accept a payment, if there is one. -/
def report? (content : List UInt8) : Option Validation.Report :=
  match decoded? content with
  | some (.object ms) =>
    if ((Json.lookup "ok" ms).getD .null).isTruthy then
      match Collection.validate ((Json.lookup "result" ms).getD .null) with
      | .error report => some report
      | .ok _ => none
    else none
  | _ => none

theorem accepts_of_report? {content : List UInt8} {report : Validation.Report}
    (h : report? content = some report) :
    ∃ result, Accepts content result ∧ Collection.validate result = .error report := by
  unfold report? at h
  split at h
  · next ms body =>
    split at h
    · next truthy =>
      split at h
      · next other invalid =>
        cases h
        cases accepted : Json.lookup "ok" ms with
        | none =>
          rw [accepted] at truthy
          cases truthy
        | some ok =>
          rw [accepted] at truthy
          exact ⟨_, ⟨ms, ok, body, accepted, truthy, rfl⟩, invalid⟩
      · cases h
    · cases h
  · cases h

instance (report : Validation.Report) : Decidable (Collection.Echoes report) :=
  inferInstanceAs (Decidable (∃ marker ∈ exhaustedMarkers, ∃ i ∈ report.issues, marker.toList <:+: i.echo))

/-- A number that is none ends the sweep as faulted. -/
theorem step_malformed_textual :
    ∃ report, report? (textual "none").body = some report ∧ ¬ Collection.Echoes report ∧
      (({ worker := Sweep.fresh 31 ⟨0⟩ } : Solo (Sweep Micros)).step
        (repeating (textual "none")).services 2).1 = .exited .faulted := by
  have silent : (report? (textual "none").body).any (fun report => decide (¬ Collection.Echoes report)) := by
    decide +kernel
  obtain ⟨report, reported, silent⟩ := (Option.any_eq_true _ _).mp silent
  obtain ⟨result, accepts, invalid⟩ := accepts_of_report? reported
  obtain ⟨-, faulted, -⟩ := step_malformed (repeating (textual "none")) { worker := Sweep.fresh 31 ⟨0⟩ } 0
    rfl rfl rfl accepts invalid
  exact ⟨report, reported, of_decide_eq_true silent, faulted.mpr (of_decide_eq_true silent)⟩

theorem eq_of_isOk {came : Except Fault Unit} (h : came.isOk = true) : came = .ok () := by
  cases came with
  | error f => cases h
  | ok u => rfl

/-- A text that stands for the end of the records, in the place of a number, is taken for it: the sweep
posts its totals and ends as done. -/
theorem textual_ends_sweep :
    (∃ result report, Accepts (textual "Failed to fetch record").body result ∧
      Collection.validate result = .error report) ∧
    (({ worker := Sweep.fresh 31 ⟨0⟩ } : Solo (Sweep Micros)).step
      (repeating (textual "Failed to fetch record")).services 3).1 = .exited .normal ∧
    (({ worker := Sweep.fresh 31 ⟨0⟩ } : Solo (Sweep Micros)).step
      (repeating (textual "Failed to fetch record")).services 3).2.sent
        = [.posted ⟨0, 0, 0⟩, .asked (.payDebt 31)] := by
  have echoing : (report? (textual "Failed to fetch record").body).any
      (fun report => decide (Collection.Echoes report)) := by
    decide +kernel
  obtain ⟨report, reported, echoes⟩ := (Option.any_eq_true _ _).mp echoing
  obtain ⟨result, accepts, invalid⟩ := accepts_of_report? reported
  have exhausted := (Collection.paymentFailure_malformed 31
    (Collection.reported_of_validate invalid)).2.mpr (of_decide_eq_true echoes)
  have answered : ((repeating (textual "Failed to fetch record")).services.settle [] (.payDebt 31)).outcome
      = .ok (.error (Collection.malformed 31 report)) :=
    settle_malformed rfl rfl accepts invalid
  have delivered : ((repeating (textual "Failed to fetch record")).services.post [.asked (.payDebt 31)]
      ⟨0, 0, 0⟩).latency = .immediate := by decide +kernel
  have posted : ((repeating (textual "Failed to fetch record")).services.post [.asked (.payDebt 31)]
      ⟨0, 0, 0⟩).outcome.isOk = true := by decide +kernel
  refine ⟨⟨result, report, accepts, invalid⟩, ?_⟩
  exact step_exhausted (repeating (textual "Failed to fetch record")).services
    { worker := Sweep.fresh 31 ⟨0⟩ } 0 (t := 0) (u := 0) rfl answered exhausted
    (congrArg (Solo.awaitFrom? 0) delivered) (eq_of_isOk posted)

end Sweep

end Settler
