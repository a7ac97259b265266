import Settler.Proofs.Supervisor.Firsts

/-!
Runs that come to rest.

A run whose fuel is enough, so that more of it changes nothing, has come to rest (`Bounded.exists_rests`):
no step of a supervisor leaves it as it is (`State.next_ne`). Two runs of which a step of either one is
matched by a step of the other, or goes unnoticed there, stay related until both rest (`Rests.paired`).
-/

namespace Settler

section

variable {α β : Type}

/-- Steps until there is none left. -/
inductive Rests (step : α → Option α) : α → α → Prop where
  | stay {a : α} (still : step a = none) : Rests step a a
  | go {a b c : α} (next : step a = some b) (rest : Rests step b c) : Rests step a c

theorem Rests.still {step : α → Option α} {a b : α} (h : Rests step a b) : step b = none := by
  induction h with
  | stay still => exact still
  | go next rest ih => exact ih

/-- What every step keeps holds at rest. -/
theorem Rests.keeps {step : α → Option α} {I : α → Prop} (keeps : ∀ {a b}, I a → step a = some b → I b)
    {a b : α} (h : Rests step a b) (held : I a) : I b := by
  induction h with
  | stay still => exact held
  | go next rest ih => exact ih (keeps held next)

/-- Two runs stay related until both rest, if a step of either one can be matched: by no step of the other,
or by a step of the other, which may also come alone. -/
theorem Rests.paired {step₁ : α → Option α} {step₂ : β → Option β} {I : α → Prop} {J : β → Prop}
    {R : α → β → Prop} (keeps₁ : ∀ {a a'}, I a → step₁ a = some a' → I a')
    (keeps₂ : ∀ {b b'}, J b → step₂ b = some b' → J b')
    (forth : ∀ {a b a'}, I a → J b → R a b → step₁ a = some a' →
      R a' b ∨ ∃ b', step₂ b = some b' ∧ (R a b' ∨ R a' b'))
    (back : ∀ {a b b'}, I a → J b → R a b → step₂ b = some b' →
      R a b' ∨ ∃ a', step₁ a = some a' ∧ (R a' b ∨ R a' b'))
    {a a' : α} {b b' : β} (rests₁ : Rests step₁ a a') (rests₂ : Rests step₂ b b') (held₁ : I a)
    (held₂ : J b) (related : R a b) : R a' b' := by
  induction rests₁ generalizing b b' with
  | stay still =>
    -- The first run rests, so the second one goes on alone.
    induction rests₂ with
    | stay => exact related
    | go next rest ih =>
      rcases back held₁ held₂ related next with alone | ⟨a', moved, -⟩
      · exact ih (keeps₂ held₂ next) alone
      · rw [still] at moved
        cases moved
  | @go a a₁ a' next₁ rest₁ ih₁ =>
    induction rests₂ with
    | stay still =>
      rcases forth held₁ held₂ related next₁ with alone | ⟨b', moved, -⟩
      · exact ih₁ (.stay still) (keeps₁ held₁ next₁) held₂ alone
      · rw [still] at moved
        cases moved
    | @go b b₁ b' next₂ rest₂ ih₂ =>
      rcases forth held₁ held₂ related next₁ with alone | ⟨b'', moved, matched⟩
      · exact ih₁ (.go next₂ rest₂) (keeps₁ held₁ next₁) held₂ alone
      · obtain rfl : b₁ = b'' := Option.some.inj (next₂.symm.trans moved)
        rcases matched with alone | both
        · exact ih₂ (keeps₂ held₂ next₂) alone
        · exact ih₁ rest₂ (keeps₁ held₁ next₁) (keeps₂ held₂ next₂) both

/-- A run in at most so many steps, closed when it comes to rest. -/
structure Bounded (step : α → Option α) (close : α → α) (run : Nat → α → α) : Prop where
  spent : ∀ a, run 0 a = a
  go : ∀ n {a b}, step a = some b → run (n + 1) a = run n b
  rest : ∀ n {a}, step a = none → run (n + 1) a = close a

/-- The run comes to rest in fewer than so many steps. -/
def restsWithin (step : α → Option α) : Nat → α → Bool
  | 0, _ => false
  | n + 1, a =>
    match step a with
    | some b => restsWithin step n b
    | none => true

namespace Bounded

variable {step : α → Option α} {close : α → α} {run : Nat → α → α} (h : Bounded step close run)
include h

/-- A run that more steps would not change has come to rest, where no step leaves things as they are. -/
theorem exists_rests {I : α → Prop} (keeps : ∀ {a b}, I a → step a = some b → I b ∧ b ≠ a) {n : Nat}
    {a : α} (held : I a) (enough : ∀ more, run (n + more) a = run n a) :
    ∃ b, Rests step a b ∧ run n a = close b := by
  induction n generalizing a with
  | zero =>
    have once : run (0 + 1) a = run 0 a := enough 1
    cases next : step a with
    | none => exact ⟨a, .stay next, once.symm.trans (h.rest 0 next)⟩
    | some b =>
      rw [h.go 0 next, h.spent, h.spent] at once
      exact absurd once (keeps held next).2
  | succ n ih =>
    cases next : step a with
    | none => exact ⟨a, .stay next, h.rest n next⟩
    | some b =>
      have later : ∀ more, run (n + more) b = run n b := by
        intro more
        rw [← h.go n next, ← h.go (n + more) next, ← enough more, Nat.add_right_comm]
      obtain ⟨c, rests, ended⟩ := ih (keeps held next).1 later
      exact ⟨c, .go next rests, (h.go n next).trans ended⟩

/-- Once a run has come to rest, more steps do not change it. -/
theorem enough_of_rests {n : Nat} {a : α} (rests : restsWithin step n a = true) (more : Nat) :
    run (n + more) a = run n a := by
  induction n generalizing a with
  | zero => cases rests
  | succ n ih =>
    rw [restsWithin] at rests
    rw [Nat.add_right_comm]
    cases next : step a with
    | none => rw [h.rest _ next, h.rest _ next]
    | some b =>
      rw [next] at rests
      rw [h.go _ next, h.go _ next]
      exact ih rests

end Bounded

end

namespace Supervisor.State

open Settler.Calendar

/-! ### The steps of a supervisor -/

section

variable {ω δ : Type} [Machine ω δ] [Seconds δ] (su : Setup δ) {s s' : State ω}

/-- The next of the moves of those that are ready before a bound. -/
def passStep (bound : Nat) (s : State ω) : Option (State ω) :=
  ((first? s.ready).filter (·.1 < bound)).map (s.move su)

theorem passStep_eq_some_iff {bound : Nat} :
    s.passStep su bound = some s' ↔ ∃ m, first? s.ready = some m ∧ m.1 < bound ∧ s.move su m = s' := by
  simp only [passStep, Option.map_eq_some_iff, Option.filter_eq_some_iff, decide_eq_true_eq, and_assoc]

theorem bounded_runTo (limit : Instant) :
    Bounded (next? su (some limit)) (fun s : State ω => { s with now := max s.now limit })
      (runTo su limit) where
  spent _ := rfl
  go n a b next := by rw [runTo, next]
  rest n a still := by rw [runTo, still]

theorem bounded_pass (bound : Nat) :
    Bounded (passStep su bound) (fun s : State ω => s) (pass su bound) where
  spent _ := rfl
  go n a b next := by
    obtain ⟨m, first, early, rfl⟩ := (passStep_eq_some_iff su).mp next
    rw [pass, first]
    exact if_pos early
  rest n a still := by
    rw [pass]
    split
    · next m first =>
      refine if_neg fun early => ?_
      rw [(passStep_eq_some_iff su).mpr ⟨m, first, early, rfl⟩] at still
      cases still
    · rfl

/-- A move takes a fresh turn. -/
theorem turn_lt_move (distinct : s.names.Nodup) {m : Nat × Mover} (first : first? s.ready = some m) :
    s.turn < (s.move su m).turn := by
  obtain ⟨p, who⟩ := m
  cases who with
  | loop =>
    obtain ⟨k, live, -⟩ := exists_of_ready_loop (mem_of_first first)
    have ticked := turn_le_acts (acts_of_goings su (goings_of_deeds su (deeds_tickNow su s)))
    rw [move_loop live]
    unfold moveLoop
    generalize s.tickNow su = r at ticked
    obtain ⟨s', result⟩ := r
    refine Nat.lt_succ_of_le ?_
    split
    · cases result with
      | ok fired => exact ticked
      | error f => exact ticked
    · exact Nat.le_refl _
  | job name =>
    obtain ⟨t, l, found, live, -⟩ := exists_of_ready_job distinct (mem_of_first first)
    rw [move_job found live]
    exact Nat.lt_succ_self _

/-- What is waited for when the clock has come to an instant is later. -/
theorem lt_of_mem_times_arrive {ties : Ties} {time d : Instant} (mem : d ∈ (s.arrive ties time).times) :
    time < d := by
  have later : ∀ (turn : Nat → Nat) (w : Wake), (w.arrive turn time).time? = some d → time < d := by
    intro turn w due
    cases w with
    | due t n =>
      by_cases le : t ≤ time
      · rw [Wake.arrive, if_pos le] at due
        cases due
      · rw [Wake.arrive, if_neg le] at due
        cases due
        exact Nat.lt_of_not_le le
    | _ => cases due
  rcases List.mem_append.mp mem with mem | mem
  · obtain ⟨k', loop, due⟩ := Option.bind_eq_some_iff.mp (Option.mem_toList.mp mem)
    obtain ⟨k, -, rfl⟩ := Option.map_eq_some_iff.mp loop
    exact later _ k.wake due
  · obtain ⟨t', listed, waits⟩ := List.mem_filterMap.mp mem
    obtain ⟨l', live, due⟩ := Option.bind_eq_some_iff.mp waits
    obtain ⟨t, -, rfl⟩ := List.mem_map.mp listed
    unfold arriveSlot at live
    split at live
    · next l run =>
      cases live
      exact later _ l.wake due
    · next other => exact absurd (Slot.live_iff.mp live) (other l')

/-- Whatever happens next, things do not stay as they are. -/
theorem next_ne (distinct : s.names.Nodup) {limit : Option Instant} (next : s.next? su limit = some s') :
    s' ≠ s := by
  unfold next? at next
  split at next
  · next m first =>
    cases next
    exact fun same => Nat.ne_of_gt (turn_lt_move su distinct first) (congrArg State.turn same)
  · split at next
    · next time least =>
      split at next
      · cases next
        intro same
        have mem : time ∈ (s.arrive su.ties (max s.now time)).times := by
          rw [same]
          exact (List.min?_eq_some_iff.mp least).1
        exact absurd (Nat.le_max_right s.now time) (Nat.not_le_of_lt (lt_of_mem_times_arrive mem))
      · cases next
    · cases next

end

end Supervisor.State

end Settler
