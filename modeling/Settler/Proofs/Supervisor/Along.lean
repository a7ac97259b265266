import Settler.Proofs.Supervisor.AbreastMoves
import Settler.Proofs.Supervisor.Waits

/-!
Two supervisors along one another.

While time passes, other jobs move and wait between the moves that a job sees, and the clocks of two
supervisors may differ as long as the job and the schedule loop wait for later (`State.Along`). Whatever
happens next in one of them leaves what the job sees as it is, or it is the same in both.
-/

namespace Settler.Supervisor.State

open Settler.Calendar Relation

variable {δ : Type}

/-- The job or the schedule loop has something to do now in both, at the same instant, or waits for later
in both. -/
structure InStep (s₁ s₂ : State (Worker δ)) (name : String) : Prop where
  calls : s₁.CallsBy name s₁.now ↔ s₂.CallsBy name s₂.now
  now : s₁.CallsBy name s₁.now → s₁.now = s₂.now

/-- The job sees the same of both supervisors, at the same instant unless it and the schedule loop wait for
later in both. -/
structure Along (jobs : List (Job (Worker δ))) (name : String) (b₁ b₂ : Nat)
    (s₁ s₂ : State (Worker δ)) : Prop where
  sound₁ : s₁.Sound jobs b₁
  sound₂ : s₂.Sound jobs b₂
  seen : s₁.seen name b₁ = s₂.seen name b₂
  inStep : InStep s₁ s₂ name

/-- What services have to do with one another for a job to see the same of their supervisors. -/
structure Comparable (jobs : List (Job (Worker δ))) (name : String) (σ₁ σ₂ : Services δ) : Prop where
  names : ∀ job ∈ jobs, job.Names
  mute₁ : σ₁.IsMute
  mute₂ : σ₂.IsMute
  agree : σ₁.AgreeOn name σ₂

variable {jobs : List (Job (Worker δ))} {name : String} {b₁ b₂ : Nat} {s₁ s₂ s₁' s₂' : State (Worker δ)}
  {σ₁ σ₂ : Services δ} {τ₁ τ₂ : Ties}

theorem Comparable.symm (c : Comparable jobs name σ₁ σ₂) : Comparable jobs name σ₂ σ₁ where
  names := c.names
  mute₁ := c.mute₂
  mute₂ := c.mute₁
  agree := c.agree.symm

theorem Abreast.along (h : Abreast jobs name b₁ b₂ s₁ s₂) : Along jobs name b₁ b₂ s₁ s₂ where
  sound₁ := h.sound₁
  sound₂ := h.sound₂
  seen := h.seen
  inStep := ⟨h.now ▸ callsBy_congr h.seen s₁.now, fun _ => h.now⟩

namespace Along

variable (h : Along jobs name b₁ b₂ s₁ s₂)
include h

theorem symm : Along jobs name b₂ b₁ s₂ s₁ where
  sound₁ := h.sound₂
  sound₂ := h.sound₁
  seen := h.seen.symm
  inStep := ⟨h.inStep.calls.symm, fun calls => (h.inStep.now (h.inStep.calls.mpr calls)).symm⟩

/-- When the job or the loop has something to do, it is at the same instant. -/
theorem abreast (calls : s₁.CallsBy name s₁.now) : Abreast jobs name b₁ b₂ s₁ s₂ :=
  ⟨h.sound₁, h.sound₂, h.seen, h.inStep.now calls⟩

/-- What happens in the first supervisor and leaves the job's outlook as it is, at a time when it is not
called for. -/
theorem stutter [Seconds δ] {su : Setup δ} (mute : su.services.IsMute) (acts : Acts su s₁ s₁')
    (seen : s₁'.seen name b₁ = s₁.seen name b₁)
    (now : s₁'.now = s₁.now ∨ s₁.now ≤ s₁'.now ∧ ¬ s₁.CallsBy name s₁'.now) :
    Along jobs name b₁ b₂ s₁' s₂ where
  sound₁ := h.sound₁.acts mute acts
  sound₂ := h.sound₂
  seen := seen.trans h.seen
  inStep := by
    rcases now with now | ⟨later, quiet⟩
    · have calls := callsBy_congr seen s₁.now
      exact ⟨now ▸ calls.trans h.inStep.calls, fun called => now ▸ h.inStep.now (calls.mp (now ▸ called))⟩
    · have still : ¬ s₁'.CallsBy name s₁'.now := fun called => quiet ((callsBy_congr seen _).mp called)
      have before : ¬ s₂.CallsBy name s₂.now :=
        fun called => quiet ((h.inStep.calls.mpr called).mono later)
      exact ⟨iff_of_false still before, fun called => absurd called still⟩

/-! ### Moves -/

section

variable [Seconds δ] (su : Setup δ) (c : Comparable jobs name σ₁ σ₂)
include su c

/-- Another job moves in the first supervisor. -/
theorem moveOther {other : String} (ne : other ≠ name) {p : Nat}
    (first : first? s₁.ready = some (p, .job other)) :
    Along jobs name b₁ b₂ (s₁.move (su.serving σ₁ τ₁) (p, .job other)) s₂ := by
  obtain ⟨t, l, found, live, -⟩ := exists_of_ready_job h.sound₁.distinct (mem_of_first first)
  refine h.stutter c.mute₁ (acts_move first) ?_ (.inl ?_)
  · rw [move_job found live]
    exact h.sound₁.seen_moveJob _ c.names found live ne p
  · rw [move_job found live]
    rfl

/-- One that is neither the loop nor the job moves in the first supervisor. -/
theorem moveUnseen {m₁ : Nat × Mover} (other : ¬ (m₁.2 = .loop ∨ m₁.2 = .job name))
    (first : first? s₁.ready = some m₁) :
    Along jobs name b₁ b₂ (s₁.move (su.serving σ₁ τ₁) m₁) s₂ := by
  obtain ⟨p, who⟩ := m₁
  cases who with
  | loop => exact absurd (.inl rfl) other
  | job name' => exact h.moveOther su c (fun same => other (.inr (same ▸ rfl))) first

/-- The schedule loop is first in both. -/
theorem moveLoop {p₁ p₂ : Nat} (first₁ : first? s₁.ready = some (p₁, .loop))
    (first₂ : first? s₂.ready = some (p₂, .loop)) :
    Along jobs name b₁ b₂ (s₁.move (su.serving σ₁ τ₁) (p₁, .loop))
      (s₂.move (su.serving σ₂ τ₂) (p₂, .loop)) := by
  obtain ⟨k₁, live₁, turn₁⟩ := exists_of_ready_loop (mem_of_first first₁)
  obtain ⟨k₂, live₂, -⟩ := exists_of_ready_loop (mem_of_first first₂)
  have both := h.abreast (.inr ⟨k₁, live₁, Wake.calls_of_turn turn₁ _⟩)
  rw [move_loop live₁, move_loop live₂]
  exact (both.moveLoop su τ₁ τ₂ c.mute₁ c.mute₂ live₁ live₂).along

/-- The job is first in both. -/
theorem moveJob {p₁ p₂ : Nat} (first₁ : first? s₁.ready = some (p₁, .job name))
    (first₂ : first? s₂.ready = some (p₂, .job name)) :
    Along jobs name b₁ b₂ (s₁.move (su.serving σ₁ τ₁) (p₁, .job name))
      (s₂.move (su.serving σ₂ τ₂) (p₂, .job name)) := by
  obtain ⟨t₁, l₁, found₁, live₁, turn₁⟩ := exists_of_ready_job h.sound₁.distinct (mem_of_first first₁)
  obtain ⟨t₂, l₂, found₂, live₂, -⟩ := exists_of_ready_job h.sound₂.distinct (mem_of_first first₂)
  have both := h.abreast (.inl ⟨t₁, l₁, found₁, live₁, Wake.calls_of_turn turn₁ _⟩)
  rw [move_job found₁ live₁, move_job found₂ live₂]
  exact (both.moveJob su τ₁ τ₂ c.mute₁ c.mute₂ c.names c.agree first₁ first₂ found₁ found₂ live₁ live₂).along

/-- Who goes first in the second supervisor while the loop or the job goes first in the first one moves
unseen, or it is the same one. -/
theorem moveFirst {m₁ m₂ : Nat × Mover} (first₁ : first? s₁.ready = some m₁)
    (first₂ : first? s₂.ready = some m₂) (own : m₁.2 = .loop ∨ m₁.2 = .job name) :
    Along jobs name b₁ b₂ s₁ (s₂.move (su.serving σ₂ τ₂) m₂) ∨
      Along jobs name b₁ b₂ (s₁.move (su.serving σ₁ τ₁) m₁) (s₂.move (su.serving σ₂ τ₂) m₂) := by
  obtain ⟨p₁, who₁⟩ := m₁
  obtain ⟨p₂, who₂⟩ := m₂
  cases who₂ with
  | loop =>
    rcases own with rfl | rfl
    · exact .inr (h.moveLoop su c first₁ first₂)
    · exact absurd first₁ (not_loop_first_of_job_first h.seen.symm h.sound₁.distinct first₂)
  | job other =>
    by_cases ne : other = name
    · subst ne
      rcases own with rfl | rfl
      · exact absurd first₂ (not_loop_first_of_job_first h.seen h.sound₂.distinct first₁)
      · exact .inr (h.moveJob su c first₁ first₂)
    · exact .inl (h.symm.moveOther su c.symm ne first₂).symm

omit c in
omit [Seconds δ] su in
/-- While the loop or the job goes first in the first supervisor, somebody does so in the second one. -/
theorem exists_first {m₁ : Nat × Mover} (first₁ : first? s₁.ready = some m₁)
    (own : m₁.2 = .loop ∨ m₁.2 = .job name) :
    ∃ m₂, first? s₂.ready = some m₂ ∧ (m₁.1 < b₁ → m₂.1 < b₂) := by
  have matched : ∀ {q₂ : Nat} {who : Mover} {loop₁ loop₂ : Option Nat}, (q₂, who) ∈ s₂.ready →
      label loop₁ b₁ m₁.1 = label loop₂ b₂ q₂ →
      ∃ m₂, first? s₂.ready = some m₂ ∧ (m₁.1 < b₁ → m₂.1 < b₂) := by
    intro q₂ who loop₁ loop₂ ready labels
    obtain ⟨m₂, first₂, le⟩ := State.exists_first ready
    refine ⟨m₂, first₂, fun early => Nat.lt_of_le_of_lt le ?_⟩
    have low : label loop₂ b₂ q₂ < 2 := labels ▸ label_lt_two.mpr early
    exact label_lt_two.mp low
  obtain ⟨p₁, who₁⟩ := m₁
  rcases own with rfl | rfl
  · obtain ⟨q₂, ready₂, labels⟩ := exists_ready_loop h.seen (mem_of_first first₁)
    exact matched ready₂ labels
  · obtain ⟨q₂, ready₂, labels⟩ := exists_ready_job h.seen h.sound₁.distinct (mem_of_first first₁)
    exact matched ready₂ labels

/-- A move in the first supervisor leaves the job's outlook as it is, or somebody is first in the second
one as well, and as early, whose move leaves the outlook as it is or goes with the other move. -/
theorem move {m₁ : Nat × Mover} (first₁ : first? s₁.ready = some m₁) :
    Along jobs name b₁ b₂ (s₁.move (su.serving σ₁ τ₁) m₁) s₂ ∨
      ∃ m₂, first? s₂.ready = some m₂ ∧ (m₁.1 < b₁ → m₂.1 < b₂) ∧
        (Along jobs name b₁ b₂ s₁ (s₂.move (su.serving σ₂ τ₂) m₂) ∨
          Along jobs name b₁ b₂ (s₁.move (su.serving σ₁ τ₁) m₁) (s₂.move (su.serving σ₂ τ₂) m₂)) := by
  by_cases own : m₁.2 = .loop ∨ m₁.2 = .job name
  · obtain ⟨m₂, first₂, early⟩ := h.exists_first first₁ own
    exact .inr ⟨m₂, first₂, early, h.moveFirst su c first₁ first₂ own⟩
  · exact .inl (h.moveUnseen su c own first₁)

/-- A move in the first supervisor, while nobody is ready in the second one, leaves the job's outlook as it
is. -/
theorem moveAlone {m₁ : Nat × Mover} (first₁ : first? s₁.ready = some m₁) (idle₂ : first? s₂.ready = none) :
    Along jobs name b₁ b₂ (s₁.move (su.serving σ₁ τ₁) m₁) s₂ := by
  refine h.moveUnseen su c (fun own => ?_) first₁
  obtain ⟨m₂, first₂, -⟩ := h.exists_first first₁ own
  rw [idle₂] at first₂
  cases first₂

end

/-! ### The clock -/

/-- The clock of the first supervisor does not overtake that of the second one, where the job or the loop
is called for. -/
theorem arrival_le {t₁ time : Instant} (least₁ : s₁.times.min? = some t₁)
    (idle₂ : first? s₂.ready = none) (later : s₂.now ≤ time) (calls : s₂.CallsBy name time) :
    max s₁.now t₁ ≤ time := by
  refine Nat.max_le.mpr ⟨?_, ?_⟩
  · by_contra ahead
    have called : s₁.CallsBy name s₁.now :=
      ((callsBy_congr h.seen time).mpr calls).mono (Nat.le_of_not_le ahead)
    exact ahead (h.inStep.now called ▸ later)
  · obtain ⟨d, le, waits⟩ := calls.exists_due idle₂
    have waits₁ : s₁.Waits name (·.time? = some d) :=
      (waits_congr (fun _ _ => by rw [Wake.time_label]) h.seen).mpr waits
    exact Nat.le_trans ((List.min?_eq_some_iff.mp least₁).2 d (mem_times_of_waits waits₁)) le

section

variable [Seconds δ] (su : Setup δ) (c : Comparable jobs name σ₁ σ₂)
include su c

/-- The clock goes on in the first supervisor. -/
theorem arriveUnseen {t₁ : Instant} (idle₁ : first? s₁.ready = none) (least₁ : s₁.times.min? = some t₁)
    (quiet : ¬ s₁.CallsBy name (max s₁.now t₁)) :
    Along jobs name b₁ b₂ (s₁.arrive τ₁ (max s₁.now t₁)) s₂ := by
  have acts : Acts (su.serving σ₁ τ₁) s₁ (s₁.arrive τ₁ (max s₁.now t₁)) :=
    .single (.motion (.arrive idle₁ least₁))
  refine h.stutter c.mute₁ acts ?_ (.inr ⟨Nat.le_max_left _ _, quiet⟩)
  exact seen_arrive_of_not_calls τ₁ quiet

end

end Along

/-! ### Both clocks -/

namespace Along

variable [Seconds δ] (h : Along jobs name 0 0 s₁ s₂) (su : Setup δ) (c : Comparable jobs name σ₁ σ₂)
  (alike : ∀ now, s₁.Meets name now → s₂.Meets name now → Ties.AlikeAt name now τ₁ τ₂)
include h su c alike

/-- The clock goes on in both, to what the job or the loop waits for. -/
theorem arriveBoth {t₁ t₂ : Instant} (idle₁ : first? s₁.ready = none) (idle₂ : first? s₂.ready = none)
    (least₁ : s₁.times.min? = some t₁) (least₂ : s₂.times.min? = some t₂)
    (calls₁ : s₁.CallsBy name (max s₁.now t₁)) (calls₂ : s₂.CallsBy name (max s₂.now t₂)) :
    Along jobs name 0 0 (s₁.arrive τ₁ (max s₁.now t₁)) (s₂.arrive τ₂ (max s₂.now t₂)) := by
  have same : max s₁.now t₁ = max s₂.now t₂ :=
    Nat.le_antisymm (h.arrival_le least₁ idle₂ (Nat.le_max_left _ _) calls₂)
      (h.symm.arrival_le least₂ idle₁ (Nat.le_max_left _ _) calls₁)
  have acts₁ : Acts (su.serving σ₁ τ₁) s₁ (s₁.arrive τ₁ (max s₁.now t₁)) :=
    .single (.motion (.arrive idle₁ least₁))
  have acts₂ : Acts (su.serving σ₂ τ₂) s₂ (s₂.arrive τ₂ (max s₂.now t₂)) :=
    .single (.motion (.arrive idle₂ least₂))
  have seen : (s₁.arrive τ₁ (max s₁.now t₁)).seen name 0 = (s₂.arrive τ₂ (max s₁.now t₁)).seen name 0 := by
    refine seen_arrive_congr (fun own loop => ?_) idle₁ h.seen
    have own₂ := (runWaits_congr (fun _ _ => by rw [Wake.callsBy_label]) h.seen).mp own
    have loop₂ := (loopWaits_congr (fun _ _ => by rw [Wake.callsBy_label]) h.seen).mp loop
    exact alike _ ⟨idle₁, ⟨t₁, least₁, rfl⟩, own, loop⟩ ⟨idle₂, ⟨t₂, least₂, same⟩, own₂, loop₂⟩
  have both : Abreast jobs name 0 0 (s₁.arrive τ₁ (max s₁.now t₁)) (s₂.arrive τ₂ (max s₂.now t₂)) :=
    ⟨h.sound₁.acts c.mute₁ acts₁, h.sound₂.acts c.mute₂ acts₂, same ▸ seen, same⟩
  exact both.along

/-- While nobody is ready and the clock of the first supervisor goes on, up to a limit, the job's outlook
stays as it is, or the clock of the second one goes on as well, and the outlook stays as it is or goes with
the other one. -/
theorem arrive {limit t₁ : Instant} (within₁ : s₁.now ≤ limit) (idle₁ : first? s₁.ready = none)
    (idle₂ : first? s₂.ready = none) (least₁ : s₁.times.min? = some t₁) (due : t₁ ≤ limit) :
    Along jobs name 0 0 (s₁.arrive τ₁ (max s₁.now t₁)) s₂ ∨
      ∃ t₂, s₂.times.min? = some t₂ ∧ t₂ ≤ limit ∧
        (Along jobs name 0 0 s₁ (s₂.arrive τ₂ (max s₂.now t₂)) ∨
          Along jobs name 0 0 (s₁.arrive τ₁ (max s₁.now t₁)) (s₂.arrive τ₂ (max s₂.now t₂))) := by
  by_cases calls₁ : s₁.CallsBy name (max s₁.now t₁)
  · -- What is called for in the first supervisor is waited for in the second one.
    obtain ⟨d, le, waits⟩ := calls₁.exists_due idle₁
    have mem : d ∈ s₂.times :=
      mem_times_of_waits ((waits_congr (fun _ _ => by rw [Wake.time_label]) h.seen).mp waits)
    obtain ⟨t₂, least₂⟩ := Option.isSome_iff_exists.mp (List.isSome_min?_of_mem mem)
    have due₂ : t₂ ≤ limit := Nat.le_trans ((List.min?_eq_some_iff.mp least₂).2 d mem)
      (Nat.le_trans le (Nat.max_le.mpr ⟨within₁, due⟩))
    refine .inr ⟨t₂, least₂, due₂, ?_⟩
    by_cases calls₂ : s₂.CallsBy name (max s₂.now t₂)
    · exact .inr (h.arriveBoth su c alike idle₁ idle₂ least₁ least₂ calls₁ calls₂)
    · exact .inl (h.symm.arriveUnseen su c.symm idle₂ least₂ calls₂).symm
  · exact .inl (h.arriveUnseen su c idle₁ least₁ calls₁)

end Along

end Settler.Supervisor.State
