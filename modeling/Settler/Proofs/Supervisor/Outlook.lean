import Settler.Proofs.Supervisor.Placed

/-!
The outlook of one job on a supervisor.

A job sees its own slot, the schedule loop, the minute of the last tick, and what the journal has about it
(`State.seen`). A turn is seen by a label: on which side it lies of the loop's turn of the same kind, if the
loop has one, and on which side of a bound. Whatever another job does leaves the outlook as it is.
-/

namespace Settler.Supervisor

open Settler.Calendar

variable {ω δ : Type}

/-- What can be seen of a supervisor from one of its jobs. -/
structure Outlook (ω : Type) where
  jobs : List (Job ω)
  slot : Option (Slot ω)
  loop : Option Loop
  lastTick : Option Moment
  journal : Journal

/-- The schedule loop with a label for its turn. -/
def Loop.seen (f : Labels) (l : Loop) : Loop := { l with wake := l.wake.label f }

/-- The turn in which a timer was set that is not due yet. -/
def Wake.timer? : Wake → Option Nat
  | .due _ n => some n
  | _ => none

theorem Wake.place_of_timer {w : Wake} {n : Nat} (timer : w.timer? = some n) : w.place? = some n := by
  cases w with
  | due t m => exact timer
  | _ => cases timer

/-- The outlook with other labels. -/
def Outlook.relabel (f : Labels) (v : Outlook ω) : Outlook ω :=
  { v with slot := v.slot.map (Slot.seen f), loop := v.loop.map (Loop.seen f) }

namespace State

/-- The label of a turn: whether it comes after the loop's, or the loop has none, and whether it comes after
a bound. -/
def label (loop : Option Nat) (bound turn : Nat) : Nat :=
  (if loop.all (· ≤ turn) then 1 else 0) + (if bound ≤ turn then 2 else 0)

theorem label_half {loop : Option Nat} {bound n : Nat} :
    label loop bound n / 2 * 2 = if bound ≤ n then 2 else 0 := by
  unfold label
  split_ifs <;> rfl

/-- The labels beside a loop that waits: the turns of those that are ready are compared with its turn if it is
ready, and those of timers with the turn of its timer. -/
def beside (loop : Option Wake) (bound : Nat) : Labels :=
  ⟨label (loop.bind Wake.turn?) bound, label (loop.bind Wake.timer?) bound⟩

/-- The labels that a job sees. -/
def labels (s : State ω) (bound : Nat) : Labels := beside (s.loop.map (·.wake)) bound

/-- What a job sees of the supervisor. -/
def seen (s : State ω) (name : String) (bound : Nat) : Outlook ω where
  jobs := s.slots.map (·.job)
  slot := (s.slot? name).map (Slot.seen (s.labels bound))
  loop := s.loop.map (Loop.seen (beside none bound))
  lastTick := s.lastTick
  journal := s.journal.about name

variable {s s' s₁ s₂ : State ω} {name : String} {t t' t₁ t₂ : Slot ω} {bound b₁ b₂ : Nat}

/-! ### One state -/

theorem seen_record_of_unconcerned {events : List Event} (others : ∀ e ∈ events, e.concerns name = false) :
    (s.record events).seen name bound = s.seen name bound :=
  congrArg (fun journal => { s.seen name bound with journal })
    (s.journal.about_record_of_unconcerned s.now others)

/-- The outlook under one bound is that under another one, with the labels that say so. -/
theorem seen_relabel {f : Nat → Nat}
    (slots : ∀ t ∈ s.slots, ∀ n ∈ t.place?, ∀ loop, f (label loop b₁ n) = label loop b₂ n)
    (loop : ∀ n ∈ s.loopPlace?, f (label none b₁ n) = label none b₂ n) :
    (s.seen name b₁).relabel (.both f) = s.seen name b₂ := by
  have slot : ((s.slot? name).map (Slot.seen (s.labels b₁))).map (Slot.seen (.both f))
      = (s.slot? name).map (Slot.seen (s.labels b₂)) := by
    cases found : s.slot? name with
    | none => rfl
    | some t =>
      have placed := slots t (mem_of_slot found)
      refine congrArg some (t.seen_seen.trans (Slot.seen_congr fun n place => ?_))
      exact ⟨placed n place _, placed n place _⟩
  have loop : (s.loop.map (Loop.seen (beside none b₁))).map (Loop.seen (.both f))
      = s.loop.map (Loop.seen (beside none b₂)) := by
    cases live : s.loop with
    | none => rfl
    | some k =>
      have places : ∀ n ∈ k.wake.place?, f (label none b₁ n) = label none b₂ n := by
        intro n place
        refine loop n ?_
        rw [loopPlace?, live]
        exact place
      exact congrArg (fun wake => some (Loop.mk k.started wake))
        (Wake.label_label.trans (Wake.label_congr fun n place => ⟨places n place, places n place⟩))
  exact congrArg₂ (fun slot loop => { s.seen name b₁ with slot, loop }) slot loop

/-- The outlook after the job's own slot is put. -/
theorem seen_put_self (distinct : s.names.Nodup) (found : s.slot? name = some t) (job : t'.job = t.job)
    (turn : Nat) (events : List Event) :
    (({ s with turn }.put t').record events).seen name bound
      = { s.seen name bound with
          slot := some (t'.seen (s.labels bound))
          journal := (s.journal.about name).record s.now (events.filter (·.concerns name)) } := by
  have jobs : (s.put t').slots.map (·.job) = s.slots.map (·.job) :=
    jobs_put (by simpa [names] using distinct) (mem_of_slot found) job
  have slot : (s.put t').slot? name = some t' :=
    slot_put_self found ((congrArg Job.name job).trans (name_of_slot found))
  have about := s.journal.about_record s.now events name
  show Outlook.mk _ (((s.put t').slot? name).map _) _ _ _ = _
  rw [slot]
  exact congrArg₂ (fun jobs journal => { s.seen name bound with
    jobs, journal, slot := some (t'.seen (s.labels bound)) }) jobs about

/-- The outlook of another job does not change when a slot is put. -/
theorem seen_put_of_ne (distinct : s.names.Nodup) {other : String} (found : s.slot? other = some t)
    (job : t'.job = t.job) (ne : other ≠ name) (turn : Nat) {events : List Event}
    (unconcerned : ∀ e ∈ events, e.concerns name = false) :
    (({ s with turn }.put t').record events).seen name bound = s.seen name bound := by
  have jobs : (s.put t').slots.map (·.job) = s.slots.map (·.job) :=
    jobs_put (by simpa [names] using distinct) (mem_of_slot found) job
  have slot : (s.put t').slot? name = s.slot? name := by
    refine slot_put_of_ne ?_
    rwa [job, name_of_slot found]
  have about := s.journal.about_record_of_unconcerned s.now unconcerned
  show Outlook.mk _ (((s.put t').slot? name).map _) _ _ _ = _
  rw [slot]
  exact congrArg₂ (fun jobs journal => { s.seen name bound with jobs, journal }) jobs about

/-- All turns that were given come before a fresh one of the loop: what becomes of their labels. -/
def afresh (wake : Wake) : Labels where
  ready n := n / 2 * 2 + if wake.turn?.isSome then 0 else 1
  timer n := n / 2 * 2 + if wake.timer?.isSome then 0 else 1

theorem afresh_label (f : Labels) (wake : Wake) : afresh (wake.label f) = afresh wake := by
  cases wake <;> rfl

/-- The outlook after the schedule loop gets a fresh turn. -/
theorem seen_loop (regular : s.Regular) (le : bound ≤ s.turn) (started : Bool) {wake : Wake}
    (fresh : ∀ n ∈ wake.place?, n = s.turn) :
    State.seen { s with turn := s.turn + 1, loop := some ⟨started, wake⟩ } name bound
      = { s.seen name bound with
          slot := (s.seen name bound).slot.map (Slot.seen (afresh wake))
          loop := some ⟨started, wake.label (.both fun _ => 3)⟩ } := by
  -- A turn that was given is before the loop's, in whatever role that one is.
  have early : ∀ {own : Option Nat}, (∀ n ∈ own, n = s.turn) → ∀ {n}, n < s.turn → ∀ loop,
      label own bound n = label loop bound n / 2 * 2 + if own.isSome then 0 else 1 := by
    intro own fresh n lt loop
    rw [label_half, label, Nat.add_comm]
    cases own with
    | none => rfl
    | some k =>
      obtain rfl := fresh k rfl
      simp [Nat.not_le_of_lt lt]
  have slot : (s.slot? name).map (Slot.seen (beside (some wake) bound))
      = ((s.slot? name).map (Slot.seen (s.labels bound))).map (Slot.seen (afresh wake)) := by
    cases found : s.slot? name with
    | none => rfl
    | some t =>
      refine congrArg some ((Slot.seen_congr ?_).trans t.seen_seen.symm)
      intro n placed
      have lt := regular.placed t (mem_of_slot found) n placed
      refine ⟨early (fun m turn => fresh m (Wake.place_of_turn turn)) lt _, early (fun m timer => ?_) lt _⟩
      exact fresh m (Wake.place_of_timer timer)
  have loop : wake.label (beside none bound) = wake.label (.both fun _ => 3) := by
    refine Wake.label_congr fun n place => ?_
    have last : label none bound n = 3 := by
      rw [fresh n place, label, if_pos le]
      rfl
    exact ⟨last, last⟩
  exact congrArg₂ (fun slot wake => { s.seen name bound with slot, loop := some ⟨started, wake⟩ }) slot loop

end State

end Settler.Supervisor
