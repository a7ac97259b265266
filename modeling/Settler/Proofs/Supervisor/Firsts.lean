import Settler.Proofs.Supervisor.Outlook

/-!
Who moves first.

Whoever is first among those that are ready has the least turn, and the schedule loop goes before a job of
the same turn. So labels tell which of the loop and a job goes first (`State.label_even`), and whether it
goes before a bound (`State.label_lt_two`).
-/

namespace Settler.Supervisor.State

open Settler.Calendar Relation

variable {ω δ : Type}

/-! ### The first of those that are ready -/

theorem first_le {l : List (Nat × Mover)} {m : Nat × Mover} (h : first? l = some m) :
    ∀ n ∈ l, m.1 ≤ n.1 := by
  induction l generalizing m with
  | nil => cases h
  | cons k rest ih =>
    rw [first?] at h
    intro n mem
    cases later : first? rest with
    | none =>
      rw [later] at h
      cases h
      rcases List.mem_cons.mp mem with rfl | mem
      · exact Nat.le_refl _
      · rw [eq_nil_of_first later] at mem
        cases mem
    | some j =>
      rw [later] at h
      have least := ih later
      simp only [Option.some.injEq] at h
      split at h
      · subst h
        rcases List.mem_cons.mp mem with rfl | mem
        · omega
        · exact least n mem
      · subst h
        rcases List.mem_cons.mp mem with rfl | mem
        · exact Nat.le_refl _
        · have := least n mem
          omega

theorem exists_first {l : List (Nat × Mover)} {n : Nat × Mover} (mem : n ∈ l) :
    ∃ m, first? l = some m ∧ m.1 ≤ n.1 := by
  cases first : first? l with
  | none =>
    rw [eq_nil_of_first first] at mem
    cases mem
  | some m => exact ⟨m, rfl, first_le first n mem⟩

/-- Another one goes before the head of the list only if its turn is earlier. -/
theorem first_cons {m k : Nat × Mover} {rest : List (Nat × Mover)} (h : first? (m :: rest) = some k) :
    k = m ∨ k.1 < m.1 := by
  rw [first?] at h
  split at h
  · exact .inl (Option.some.inj h).symm
  · simp only [Option.some.injEq] at h
    split at h
    · subst h
      exact .inr ‹_›
    · exact .inl h.symm

variable {s : State ω} {name : String} {t : Slot ω} {l : Live ω} {p : Nat}

theorem mem_ready_loop {k : Loop} (live : s.loop = some k) (turn : k.wake.turn? = some p) :
    (p, Mover.loop) ∈ s.ready := by
  refine List.mem_append_left _ (List.mem_map.mpr ⟨p, ?_, rfl⟩)
  rw [live, Option.bind_some, turn]
  exact List.mem_singleton.mpr rfl

theorem exists_of_ready_loop (mem : (p, Mover.loop) ∈ s.ready) :
    ∃ k, s.loop = some k ∧ k.wake.turn? = some p := by
  rcases List.mem_append.mp mem with mem | mem
  · obtain ⟨n, listed, same⟩ := List.mem_map.mp mem
    cases same
    exact Option.bind_eq_some_iff.mp (Option.mem_toList.mp listed)
  · obtain ⟨u, -, ready⟩ := List.mem_filterMap.mp mem
    obtain ⟨n, -, other⟩ := Option.map_eq_some_iff.mp ready
    cases other

theorem mem_ready_job (found : s.slot? name = some t) (live : t.live? = some l)
    (turn : l.wake.turn? = some p) : (p, Mover.job name) ∈ s.ready := by
  refine List.mem_append_right _ (List.mem_filterMap.mpr ⟨t, mem_of_slot found, ?_⟩)
  rw [live, Option.bind_some, turn, name_of_slot found]
  rfl

theorem exists_of_ready_job (distinct : s.names.Nodup) (mem : (p, Mover.job name) ∈ s.ready) :
    ∃ t l, s.slot? name = some t ∧ t.live? = some l ∧ l.wake.turn? = some p := by
  rcases List.mem_append.mp mem with mem | mem
  · obtain ⟨n, -, other⟩ := List.mem_map.mp mem
    cases other
  · obtain ⟨u, listed, ready⟩ := List.mem_filterMap.mp mem
    obtain ⟨n, turn, named⟩ := Option.map_eq_some_iff.mp ready
    cases named
    obtain ⟨l, live, turn⟩ := Option.bind_eq_some_iff.mp turn
    exact ⟨u, l, slot_of_mem distinct listed, live, turn⟩

/-- A job goes before the loop only if its turn is earlier. -/
theorem lt_loop_of_first (first : first? s.ready = some (p, .job name)) {k : Loop}
    (live : s.loop = some k) {q : Nat} (turn : k.wake.turn? = some q) : p < q := by
  have first : first? ((q, Mover.loop) :: s.slots.filterMap fun t =>
      (t.live?.bind fun l => l.wake.turn?).map (·, .job t.job.name)) = some (p, .job name) := by
    unfold ready at first
    rwa [live, Option.bind_some, turn] at first
  rcases first_cons first with same | lt
  · cases same
  · exact lt

/-! ### Labels -/

theorem label_lt_two {loop : Option Nat} {bound n : Nat} : label loop bound n < 2 ↔ n < bound := by
  unfold label
  split_ifs <;> omega

theorem label_even {loop : Option Nat} {bound n : Nat} :
    label loop bound n % 2 = 0 ↔ loop.all (· ≤ n) = false := by
  unfold label
  split_ifs with late <;> simp [late]

/-- While the loop is ready, the turns of those that are ready are compared with its own. -/
theorem labels_ready {k : Loop} (live : s.loop = some k) {q : Nat} (turn : k.wake.turn? = some q)
    {bound n : Nat} : (s.labels bound).ready n = label (some q) bound n := by
  simp only [State.labels, beside, live, Option.map_some, Option.bind_some, turn]

section

variable {s₁ s₂ : State ω} {b₁ b₂ p₁ p₂ : Nat} (seen : s₁.seen name b₁ = s₂.seen name b₂)
include seen

/-- Where the loop is ready in one of two supervisors that are seen as the same, it is in the other. -/
theorem exists_ready_loop (ready : (p₁, Mover.loop) ∈ s₁.ready) :
    ∃ p₂, (p₂, Mover.loop) ∈ s₂.ready ∧ label none b₁ p₁ = label none b₂ p₂ := by
  obtain ⟨k₁, live₁, turn₁⟩ := exists_of_ready_loop ready
  have loops : s₁.loop.map (Loop.seen (beside none b₁)) = s₂.loop.map (Loop.seen (beside none b₂)) :=
    congrArg Outlook.loop seen
  rw [live₁] at loops
  obtain ⟨k₂, live₂, same⟩ := Option.map_eq_some_iff.mp loops.symm
  have turns : (k₂.wake.label (beside none b₂)).turn? = (k₁.wake.label (beside none b₁)).turn? :=
    (congrArg (fun k : Loop => k.wake.turn?) same :)
  rw [Wake.turn_label, Wake.turn_label, turn₁] at turns
  obtain ⟨p₂, turn₂, labels⟩ := Option.map_eq_some_iff.mp turns
  exact ⟨p₂, mem_ready_loop live₂ turn₂, labels.symm⟩

/-- Where the job is ready in one of two supervisors that are seen as the same, it is in the other. -/
theorem exists_ready_job (distinct₁ : s₁.names.Nodup) (ready : (p₁, Mover.job name) ∈ s₁.ready) :
    ∃ p₂, (p₂, Mover.job name) ∈ s₂.ready ∧
      (s₁.labels b₁).ready p₁ = (s₂.labels b₂).ready p₂ := by
  obtain ⟨t₁, l₁, found₁, live₁, turn₁⟩ := exists_of_ready_job distinct₁ ready
  have slots : (s₁.slot? name).map (Slot.seen (s₁.labels b₁))
      = (s₂.slot? name).map (Slot.seen (s₂.labels b₂)) := congrArg Outlook.slot seen
  rw [found₁] at slots
  obtain ⟨t₂, found₂, same⟩ := Option.map_eq_some_iff.mp slots.symm
  have lives := congrArg Slot.live? same
  rw [Slot.live_seen, Slot.seen_of_live live₁] at lives
  obtain ⟨l₂, live₂, runs⟩ := Option.map_eq_some_iff.mp lives
  have turns : (l₂.wake.label (s₂.labels b₂)).turn?
      = (l₁.wake.label (s₁.labels b₁)).turn? :=
    (congrArg (fun l : Live ω => l.wake.turn?) runs :)
  rw [Wake.turn_label, Wake.turn_label, turn₁] at turns
  obtain ⟨p₂, turn₂, labels⟩ := Option.map_eq_some_iff.mp turns
  exact ⟨p₂, mem_ready_job found₂ live₂ turn₂, labels.symm⟩

/-- The loop is not first in one of them where the job is first in the other. -/
theorem not_loop_first_of_job_first (distinct₂ : s₂.names.Nodup)
    (first₁ : first? s₁.ready = some (p₁, .loop)) : first? s₂.ready ≠ some (p₂, .job name) := by
  intro first₂
  obtain ⟨q₂, ready₂, -⟩ := exists_ready_loop seen (mem_of_first first₁)
  obtain ⟨k₂, live₂, turn₂⟩ := exists_of_ready_loop ready₂
  obtain ⟨q₁, ready₁, labels⟩ := exists_ready_job seen.symm distinct₂ (mem_of_first first₂)
  obtain ⟨k₁, live₁, turn₁⟩ := exists_of_ready_loop (mem_of_first first₁)
  have early : (s₂.labels b₂).ready p₂ % 2 = 0 := by
    rw [labels_ready live₂ turn₂, label_even]
    exact decide_eq_false (Nat.not_le_of_lt (lt_loop_of_first first₂ live₂ turn₂))
  rw [labels, labels_ready live₁ turn₁, label_even] at early
  exact of_decide_eq_false early (first_le first₁ _ ready₁)

end

/-! ### Moves -/

variable [Machine ω δ] [Seconds δ] {su : Setup δ}

theorem acts_move {m : Nat × Mover} (first : first? s.ready = some m) : Acts su s (s.move su m) :=
  acts_of_goings su (goings_of_drifts su (drifts_move su first))

theorem move_loop {k : Loop} (live : s.loop = some k) : s.move su (p, .loop) = s.moveLoop su k := by
  unfold move
  rw [live]

theorem move_job (found : s.slot? name = some t) (live : t.live? = some l) :
    s.move su (p, .job name) = s.moveJob su p t l := by
  unfold move
  dsimp only
  rw [found]
  dsimp only
  rw [live]

end Settler.Supervisor.State
