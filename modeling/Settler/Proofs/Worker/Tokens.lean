import Mathlib.Algebra.Ring.Nat
import Settler.Proofs.Journal.Counters
import Settler.Proofs.Worker.Senders

/-!
What workers count.

A turn of a worker counts at most one event (`Worker.Counts`): one that stands for the exit that the turn
ends in (`Worker.verdicts`), or that a payment is tried again. It never counts what the supervisor counts
itself.
-/

namespace Settler

open Settler.Settlement

variable {ω δ : Type}

namespace Turn

/-- The events that a turn counts. -/
def tokens (t : Turn ω δ) : List (String × String) := t.notes.filterMap Note.token?

/-- The exit that a turn ends in, if it does. -/
def exits (t : Turn ω δ) : List Exit :=
  match t.next with
  | .exit e => [e]
  | _ => []

end Turn

/-- The reply says that a payment may be tried again. -/
def Outbound.retries : Outbound → Reply → Bool
  | .asked (.payDebt _), .answered (.error reason) => paymentFailure reason = .retryable
  | _, _ => false

/-! ### Verdicts -/

/-- The events that stand for an exit of a sweep. -/
def Sweep.verdicts : Exit → List String
  | .normal => ["exhausted"]
  | .faulted => ["unexpected_error"]
  | .crashed => []

/-- The events that stand for an exit of a calculator. -/
def Calculator.verdicts : Exit → List String
  | .normal => ["finalized", "finalize_failed"]
  | .faulted => ["epoch_unavailable", "no_closed_epoch", "calculation_failed"]
  | .crashed => []

/-- The events that stand for an exit of an initializer. -/
def Initializer.verdicts : Exit → List String
  | .normal => ["completed", "idempotent_noop"]
  | _ => []

/-- The events that stand for an exit of a collector. -/
def Collector.verdicts : Exit → List String
  | .normal => ["completed"]
  | .faulted => ["error"]
  | .crashed => []

namespace Worker

/-- The events that stand for an exit of the workers of a name. -/
def verdicts (name : String) : Exit → List String :=
  if name = Sweep.name then Sweep.verdicts
  else if name = Calculator.name then Calculator.verdicts
  else if name = Initializer.name then Initializer.verdicts
  else if name = Collector.name then Collector.verdicts
  else fun _ => []

@[simp]
theorem verdicts_sweep : verdicts Sweep.name = Sweep.verdicts := rfl

@[simp]
theorem verdicts_calculator : verdicts Calculator.name = Calculator.verdicts := rfl

@[simp]
theorem verdicts_initializer : verdicts Initializer.name = Initializer.verdicts := rfl

@[simp]
theorem verdicts_collector : verdicts Collector.name = Collector.verdicts := rfl

/-- An event that stands for an exit stands for no other one, is no retry, and is none of those that the
supervisor counts itself. -/
theorem verdicts_distinct (name : String) (e e' : Exit) : ∀ event ∈ verdicts name e,
    (verdicts name e').count event = [e].count e' ∧ event ≠ "retry" ∧ event ∉ milestones := by
  unfold verdicts
  split_ifs
  all_goals cases e <;> cases e' <;> decide

/-! ### Turns -/

/-- What a turn of a worker of a name counts. -/
inductive Counts (name : String) (t : Turn (Worker δ) δ) : Prop where
  | silent (counted : t.tokens = []) (stays : t.exits = [])
  | again (sweeps : name = Sweep.name) (counted : t.tokens = [(name, "retry")]) (stays : t.exits = [])
  | exits {e : Exit} {event : String} (listed : event ∈ verdicts name e)
      (counted : t.tokens = [(name, event)]) (exits : t.exits = [e])

theorem counts_begin (w : Worker δ) : Counts w.name (Machine.begin w) := by
  cases w <;> exact .silent rfl rfl

theorem counts_proceed (name : String) (c : Calculation) {notes : List Note}
    (silent : notes.filterMap Note.token? = []) :
    Counts (δ := δ) name ((Calculator.proceed c notes).map .calculator) := by
  unfold Calculator.proceed
  split
  · refine .silent ?_ rfl
    show (notes ++ [Note.info _]).filterMap Note.token? = []
    rw [List.filterMap_append, silent]
    rfl
  · exact .silent silent rfl

theorem counts_sweep (s : Sweep δ) (r : Reply) : Counts Sweep.name ((s.resume r).map .sweep) := by
  cases r with
  | rested => exact .silent rfl rfl
  | answered a =>
    show Counts Sweep.name ((s.hear a).map .sweep)
    unfold Sweep.hear
    dsimp only
    split
    · exact .silent rfl rfl
    · exact .silent rfl rfl
    · exact .again rfl rfl rfl
    · exact .silent rfl rfl
    · exact .exits (e := .faulted) (by decide) rfl rfl
  | posted => exact .exits (e := .normal) (by decide) rfl rfl

theorem counts_initializer (w : Initializer) (r : Reply) :
    Counts (δ := δ) Initializer.name ((w.resume r).map .initializer) := by
  unfold Initializer.resume
  split
  · have noop : "idempotent_noop" ∈ verdicts Initializer.name .normal := by decide
    exact .exits noop rfl rfl
  · exact .exits (e := .normal) (by decide) rfl rfl
  · exact .silent rfl rfl

theorem counts_calculator (c : Calculator) (r : Reply) :
    Counts (δ := δ) Calculator.name ((c.resume r).map .calculator) := by
  unfold Calculator.resume
  split
  · unfold Calculator.resolve
    split
    · exact .exits (e := .faulted) (by decide) rfl rfl
    · split
      · exact .exits (e := .faulted) (by decide) rfl rfl
      · exact counts_proceed _ _ rfl
    · exact .silent rfl rfl
  · unfold Calculator.calculated
    split
    · exact .exits (e := .faulted) (by decide) rfl rfl
    · exact counts_proceed _ _ rfl
  · unfold Calculator.finalized
    split <;> exact .exits (e := .normal) (by decide) rfl rfl
  · exact .silent rfl rfl

theorem counts_collector (w : Collector) (r : Reply) :
    Counts (δ := δ) Collector.name ((w.resume r).map .collector) := by
  unfold Collector.resume
  split
  · exact .exits (e := .faulted) (by decide) rfl rfl
  · exact .exits (e := .normal) (by decide) rfl rfl
  · exact .silent rfl rfl

theorem counts_resume (w : Worker δ) (r : Reply) : Counts w.name (Machine.resume w r) := by
  cases w with
  | sweep s => exact counts_sweep s r
  | initializer w => exact counts_initializer w r
  | calculator c => exact counts_calculator c r
  | collector w => exact counts_collector w r
  | blank => exact .silent rfl rfl

/-- Every turn that a worker comes to counts what turns of its kind do. -/
theorem counts_of_talk {w : Worker δ} {i : Instance} {xs : List Exchange} {t : Turn (Worker δ) δ}
    (h : Talk i (Machine.begin w) xs t) : Counts w.name t := by
  cases h with
  | begin => exact counts_begin w
  | @rested ys u talk rest => exact (minding_of_talk talk).worker ▸ counts_resume u.worker .rested
  | @replied ys u o r talk wants fits => exact (minding_of_talk talk).worker ▸ counts_resume u.worker r

namespace Counts

variable {name : String} {t : Turn (Worker δ) δ}

/-- A turn counts nothing but events of its own worker, and none that the supervisor counts. -/
theorem own (h : Counts name t) : ∀ x ∈ t.tokens, x.1 = name ∧ x.2 ∉ milestones := by
  cases h with
  | silent counted stays => simp [counted]
  | again sweeps counted stays =>
    rw [counted]
    exact List.forall_mem_singleton.mpr ⟨rfl, (by decide : "retry" ∉ milestones)⟩
  | @exits e event listed counted exits =>
    rw [counted]
    exact List.forall_mem_singleton.mpr ⟨rfl, (verdicts_distinct name e e event listed).2.2⟩

/-- A turn counts an event that stands for an exit if and only if it ends in this exit. -/
theorem sum_verdicts (h : Counts name t) (e : Exit) :
    ((verdicts name e).map fun event => t.tokens.count (name, event)).sum = t.exits.count e := by
  have single : ∀ (events : List String) (event : String),
      (events.map fun x => [(name, event)].count (name, x)).sum = events.count event := by
    intro events event
    induction events with
    | nil => rfl
    | cons x rest ih =>
      rw [List.map_cons, List.sum_cons, ih, List.count_cons, Nat.add_comm]
      by_cases same : x = event <;> simp [same, Ne.symm]
  cases h with
  | silent counted stays => simp [counted, stays]
  | again sweeps counted stays =>
    rw [counted, stays, single, List.count_eq_zero_of_not_mem]
    · rfl
    · exact fun listed => (verdicts_distinct name e e "retry" listed).2.1 rfl
  | @exits e' event listed counted exits =>
    rw [counted, exits, single]
    exact (verdicts_distinct name e' e event listed).1

/-- No worker but a sweep counts that a payment is tried again. -/
theorem not_retry (h : Counts name t) (other : name ≠ Sweep.name) : (name, "retry") ∉ t.tokens := by
  cases h with
  | silent counted stays => simp [counted]
  | again sweeps counted stays => exact absurd sweeps other
  | @exits e event listed counted exits =>
    have ne := (verdicts_distinct name e e event listed).2.1
    simp [counted, Ne.symm ne]

end Counts

theorem sender_of_retries {o : Outbound} {r : Reply} (h : o.retries r) : o.sender = Sweep.name := by
  unfold Outbound.retries at h
  split at h
  · rfl
  · cases h

/-- A sweep asks for nothing but payments. -/
theorem payment_of_sender {op : Operation} (own : (Outbound.asked op).sender = Sweep.name) :
    ∃ epoch, op = .payDebt epoch := by
  cases op with
  | payDebt epoch => exact ⟨epoch, rfl⟩
  | initializeDistribution => exact absurd own (by decide : Initializer.name ≠ Sweep.name)
  | collectAllDebt => exact absurd own (by decide : Collector.name ≠ Sweep.name)
  | _ => exact absurd own (by decide : Calculator.name ≠ Sweep.name)

theorem count_retry_hear (s : Sweep δ) (a : Answer) (epoch : Int) :
    ((s.hear a).map Worker.sweep).tokens.count (Sweep.name, "retry")
      = if (Outbound.asked (.payDebt epoch)).retries (.answered a) then 1 else 0 := by
  cases a with
  | ok p => cases p <;> rfl
  | error reason =>
    cases kind : paymentFailure reason <;>
      simp only [Sweep.hear, Outcome.ofPayment, Outbound.retries, kind] <;> rfl

/-- No worker counts that a payment is tried again unless it heard of the payment. -/
theorem retries_begin (w : Worker δ) :
    (Machine.begin w : Turn (Worker δ) δ).tokens.count (w.name, "retry") = 0 := by
  cases w <;> rfl

theorem retries_rested (w : Worker δ) :
    (Machine.resume w .rested : Turn (Worker δ) δ).tokens.count (w.name, "retry") = 0 := by
  cases w with
  | calculator c => cases c <;> rfl
  | _ => rfl

/-- A worker counts that a payment is tried again if and only if the reply says that it may be. -/
theorem retries_resume (w : Worker δ) {o : Outbound} (own : o.sender = w.name) {r : Reply}
    (fits : o.admits r) : (Machine.resume w r : Turn (Worker δ) δ).tokens.count (w.name, "retry")
      = if o.retries r then 1 else 0 := by
  by_cases sweeps : w.name = Sweep.name
  · cases w with
    | sweep s =>
      cases o with
      | posted sums =>
        cases r with
        | posted => rfl
        | rested => cases fits
        | answered a => cases fits
      | asked op =>
        cases r with
        | answered a =>
          obtain ⟨epoch, rfl⟩ := payment_of_sender own
          exact count_retry_hear s a epoch
        | rested => cases fits
        | posted => cases fits
    | initializer w => exact absurd sweeps (by decide : Initializer.name ≠ Sweep.name)
    | calculator c => exact absurd sweeps (by decide : Calculator.name ≠ Sweep.name)
    | collector w => exact absurd sweeps (by decide : Collector.name ≠ Sweep.name)
    | blank => exact absurd sweeps (by decide : "worker" ≠ Sweep.name)
  · have other : o.retries r = false := by
      rw [← Bool.not_eq_true]
      intro retries
      exact sweeps (own ▸ sender_of_retries retries)
    rw [other, List.count_eq_zero_of_not_mem]
    · rfl
    · exact (counts_resume w r).not_retry sweeps

end Worker

end Settler
