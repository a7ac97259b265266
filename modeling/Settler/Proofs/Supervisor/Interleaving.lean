import Settler.Proofs.Supervisor.Along
import Settler.Proofs.Supervisor.Rests

/-!
Two supervisors while time passes.

What one of two supervisors that are abreast does next, the other one does too, or it goes unnoticed by the
job (`State.Along.next`, `State.Along.passStep`). So whatever the two do while time passes keeps them abreast,
as long as both get done with it: `State.Abreast.runTo` up to an instant, `State.Abreast.pass` for those that
are ready now.
-/

namespace Settler.Supervisor.State

open Settler.Calendar

/-! ### Two supervisors that move -/

section

variable {δ : Type} {jobs : List (Job (Worker δ))} {name : String} {b₁ b₂ : Nat}
  {s s₁ s₂ s₁' s₂' : State (Worker δ)}

theorem Sound.rebound {b : Nat} (h : s.Sound jobs b) {bound : Nat} (le : bound ≤ s.turn) :
    s.Sound jobs bound :=
  ⟨h.documented, h.regular, le⟩

/-- Two supervisors that are abreast are so without a bound. -/
theorem Abreast.unbounded (h : Abreast jobs name b₁ b₂ s₁ s₂) : Abreast jobs name 0 0 s₁ s₂ := by
  have labels : ∀ (loop : Option Nat) (b n : Nat), label loop b n % 2 + 2 = label loop 0 n := by
    intro loop b n
    unfold label
    split_ifs <;> omega
  have unbound : ∀ (s : State (Worker δ)) (b : Nat),
      (s.seen name b).relabel (.both fun n => n % 2 + 2) = s.seen name 0 :=
    fun s b => seen_relabel (fun _ _ n _ loop => labels loop b n) fun n _ => labels none b n
  refine ⟨h.sound₁.rebound (Nat.zero_le _), h.sound₂.rebound (Nat.zero_le _), ?_, h.now⟩
  rw [← unbound s₁ b₁, h.seen, unbound s₂ b₂]

/-- All that was ready before goes before the next fresh turn. -/
theorem Abreast.bounded (h : Abreast jobs name 0 0 s₁ s₂) :
    Abreast jobs name s₁.turn s₂.turn s₁ s₂ := by
  have labels : ∀ (loop : Option Nat) {b n : Nat}, n < b → label loop 0 n - 2 = label loop b n := by
    intro loop b n lt
    unfold label
    split_ifs <;> omega
  have bind : ∀ {s : State (Worker δ)}, s.Regular →
      (s.seen name 0).relabel (.both fun n => n - 2) = s.seen name s.turn :=
    fun regular => seen_relabel (fun t mem n place loop => labels loop (regular.placed t mem n place))
      fun n place => labels none (regular.loop n place)
  refine ⟨h.sound₁.rebound (Nat.le_refl _), h.sound₂.rebound (Nat.le_refl _), ?_, h.now⟩
  rw [← bind h.sound₁.regular, h.seen, bind h.sound₂.regular]

variable [Seconds δ] (su : Setup δ) {σ₁ σ₂ : Services δ} {τ₁ τ₂ : Ties} {limit : Instant}

theorem move_now {m : Nat × Mover} : (s.move su m).now = s.now := by
  obtain ⟨p, who⟩ := m
  cases who with
  | loop =>
    cases live : s.loop with
    | none =>
      unfold State.move
      dsimp only
      rw [live]
    | some k =>
      have ticked := (frame_of_deeds su (deeds_tickNow su s)).2
      rw [move_loop live]
      unfold moveLoop
      generalize s.tickNow su = r at ticked
      obtain ⟨s', result⟩ := r
      split
      · cases result with
        | ok fired => exact ticked
        | error f => exact ticked
      · rfl
  | job name =>
    unfold State.move
    dsimp only
    split
    · rfl
    · split
      · rfl
      · rfl

theorem next_of_first {m : Nat × Mover} (first : first? s.ready = some m) (limit : Option Instant) :
    s.next? su limit = some (s.move su m) := by
  unfold next?
  rw [first]

theorem next_of_idle {time : Instant} (idle : first? s.ready = none) (least : s.times.min? = some time)
    (due : time ≤ limit) : s.next? su (some limit) = some (s.arrive su.ties (max s.now time)) := by
  have within : (some limit).all (time ≤ ·) = true := decide_eq_true due
  unfold next?
  rw [idle, least]
  exact if_pos within

theorem next_cases (next : s.next? su (some limit) = some s') :
    (∃ m, first? s.ready = some m ∧ s' = s.move su m) ∨
      first? s.ready = none ∧ ∃ time, s.times.min? = some time ∧ time ≤ limit ∧
        s' = s.arrive su.ties (max s.now time) := by
  unfold next? at next
  split at next
  · next m first =>
    cases next
    exact .inl ⟨m, first, rfl⟩
  · next idle =>
    split at next
    · next time least =>
      split at next
      · next due =>
        cases next
        exact .inr ⟨idle, time, least, of_decide_eq_true due, rfl⟩
      · cases next
    · cases next

/-- The clock does not pass the limit. -/
theorem now_le_of_next (within : s.now ≤ limit) (next : s.next? su (some limit) = some s') :
    s'.now ≤ limit := by
  obtain ⟨m, first, rfl⟩ | ⟨idle, time, least, due, rfl⟩ := next_cases su next
  · rwa [move_now]
  · exact Nat.max_le.mpr ⟨within, due⟩

/-- Whatever happens next in the first supervisor leaves the job's outlook as it is, or something happens in
the second one, which leaves the outlook as it is or goes with it. -/
theorem Along.next (c : Comparable jobs name σ₁ σ₂) (h : Along jobs name 0 0 s₁ s₂)
    (alike : ∀ now, s₁.Meets name now → s₂.Meets name now → Ties.AlikeAt name now τ₁ τ₂)
    (within₁ : s₁.now ≤ limit) (next : s₁.next? (su.serving σ₁ τ₁) (some limit) = some s₁') :
    Along jobs name 0 0 s₁' s₂ ∨
      ∃ s₂', s₂.next? (su.serving σ₂ τ₂) (some limit) = some s₂' ∧
        (Along jobs name 0 0 s₁ s₂' ∨ Along jobs name 0 0 s₁' s₂') := by
  obtain ⟨m₁, first₁, rfl⟩ | ⟨idle₁, t₁, least₁, due₁, rfl⟩ := next_cases _ next
  · rcases h.move su c first₁ with unseen | ⟨m₂, first₂, -, matched⟩
    · exact .inl unseen
    · exact .inr ⟨_, next_of_first _ first₂ _, matched⟩
  · cases first₂ : first? s₂.ready with
    | none =>
      rcases h.arrive su c alike within₁ idle₁ first₂ least₁ due₁ with unseen | ⟨t₂, least₂, due₂, matched⟩
      · exact .inl unseen
      · exact .inr ⟨_, next_of_idle _ first₂ least₂ due₂, matched⟩
    | some m₂ =>
      -- Somebody is ready in the second one only, so the job does not see the move.
      exact .inr ⟨_, next_of_first _ first₂ _, .inl (h.symm.moveAlone su c.symm first₂ idle₁).symm⟩

/-- A move of one that is ready before a bound, in the first supervisor. -/
theorem Along.passStep (c : Comparable jobs name σ₁ σ₂) (h : Along jobs name b₁ b₂ s₁ s₂)
    (next : s₁.passStep (su.serving σ₁ τ₁) b₁ = some s₁') :
    Along jobs name b₁ b₂ s₁' s₂ ∨
      ∃ s₂', s₂.passStep (su.serving σ₂ τ₂) b₂ = some s₂' ∧
        (Along jobs name b₁ b₂ s₁ s₂' ∨ Along jobs name b₁ b₂ s₁' s₂') := by
  obtain ⟨m₁, first₁, early₁, rfl⟩ := (passStep_eq_some_iff _).mp next
  rcases h.move su c first₁ with unseen | ⟨m₂, first₂, early₂, matched⟩
  · exact .inl unseen
  · exact .inr ⟨_, (passStep_eq_some_iff _).mpr ⟨m₂, first₂, early₂ early₁, rfl⟩, matched⟩

/-! ### Two supervisors that get done -/

theorem Sound.next {b : Nat} (h : s.Sound jobs b) (mute : su.services.IsMute)
    (next : s.next? su (some limit) = some s') : s'.Sound jobs b :=
  h.acts mute (acts_of_goings su (goings_of_drifts su (drifts_next su next)))

theorem Sound.passStep {b bound : Nat} (h : s.Sound jobs b) (mute : su.services.IsMute)
    (next : s.passStep su bound = some s') : s'.Sound jobs b := by
  obtain ⟨m, first, -, rfl⟩ := (passStep_eq_some_iff su).mp next
  exact h.acts mute (acts_move first)

/-- A supervisor that gets done up to an instant comes to rest, and its clock comes to the instant. -/
theorem Sound.exists_rests_runTo {b : Nat} (h : s.Sound jobs b) (mute : su.services.IsMute) {fuel : Nat}
    (enough : ∀ more, s.runTo su limit (fuel + more) = s.runTo su limit fuel) :
    ∃ f, Rests (next? su (some limit)) s f ∧ s.runTo su limit fuel = { f with now := max f.now limit } :=
  (bounded_runTo su limit).exists_rests (I := (Sound jobs b ·))
    (fun held next => ⟨held.next su mute next, next_ne su held.distinct next⟩) h enough

/-- A supervisor in which those that are ready now get done comes to rest. -/
theorem Sound.rests_pass {b bound : Nat} (h : s.Sound jobs b) (mute : su.services.IsMute) {fuel : Nat}
    (enough : ∀ more, s.pass su bound (fuel + more) = s.pass su bound fuel) :
    Rests (State.passStep su bound) s (s.pass su bound fuel) := by
  obtain ⟨f, rests, ended⟩ := (bounded_pass su bound).exists_rests (I := (Sound jobs b ·))
    (fun held next => ⟨held.passStep su mute next, by
      obtain ⟨m, first, -, rfl⟩ := (passStep_eq_some_iff su).mp next
      exact fun same => Nat.ne_of_gt (turn_lt_move su held.distinct first) (congrArg State.turn same)⟩)
    h enough
  rwa [ended]

namespace Abreast

variable (h : Abreast jobs name 0 0 s₁ s₂) (c : Comparable jobs name σ₁ σ₂) {fuel₁ fuel₂ : Nat}
include h c

/-- Two supervisors that get done up to an instant are abreast when they have, if their event loops decide
alike between the job and the schedule loop where these fall due together on the way. -/
theorem runTo (within : s₁.now ≤ limit)
    (alike : ∀ n now, (s₁.runTo (su.serving σ₁ τ₁) limit n).Meets name now → Ties.AlikeAt name now τ₁ τ₂)
    (enough₁ : ∀ more,
      s₁.runTo (su.serving σ₁ τ₁) limit (fuel₁ + more) = s₁.runTo (su.serving σ₁ τ₁) limit fuel₁)
    (enough₂ : ∀ more,
      s₂.runTo (su.serving σ₂ τ₂) limit (fuel₂ + more) = s₂.runTo (su.serving σ₂ τ₂) limit fuel₂) :
    Abreast jobs name 0 0 (s₁.runTo (su.serving σ₁ τ₁) limit fuel₁)
      (s₂.runTo (su.serving σ₂ τ₂) limit fuel₂) := by
  obtain ⟨f₁, rests₁, ended₁⟩ := h.sound₁.exists_rests_runTo (su.serving σ₁ τ₁) c.mute₁ enough₁
  obtain ⟨f₂, rests₂, ended₂⟩ := h.sound₂.exists_rests_runTo (su.serving σ₂ τ₂) c.mute₂ enough₂
  -- The first run goes on from each state on the way as it goes on from the start.
  let OnTheWay (a : State (Worker δ)) : Prop := a.now ≤ limit ∧
    ∀ n, ∃ m, a.runTo (su.serving σ₁ τ₁) limit n = s₁.runTo (su.serving σ₁ τ₁) limit m
  have onward : ∀ {a b : State (Worker δ)}, OnTheWay a →
      a.next? (su.serving σ₁ τ₁) (some limit) = some b → OnTheWay b := by
    rintro a b ⟨within, ahead⟩ next
    refine ⟨now_le_of_next _ within next, fun n => ?_⟩
    rw [← (bounded_runTo (su.serving σ₁ τ₁) limit).go n next]
    exact ahead (n + 1)
  have decided : ∀ {a : State (Worker δ)}, OnTheWay a → ∀ now, a.Meets name now →
      Ties.AlikeAt name now τ₁ τ₂ := by
    rintro a ⟨-, ahead⟩ now meets
    obtain ⟨m, same⟩ := ahead 0
    exact alike m now (same ▸ meets)
  have along : Along jobs name 0 0 f₁ f₂ := by
    refine Rests.paired (I := OnTheWay) (J := (State.now · ≤ limit))
      onward (now_le_of_next _) ?_ ?_ rests₁ rests₂ ⟨within, fun n => ⟨n, rfl⟩⟩ (h.now ▸ within) h.along
    · intro a b a' onWay _ held next
      exact held.next su c (fun now meets _ => decided onWay now meets) onWay.1 next
    · intro a b b' onWay within₂ held next
      refine (held.symm.next su c.symm (fun now _ meets => (decided onWay now meets).symm) within₂ next).imp
        Along.symm ?_
      exact fun ⟨a', moved, matched⟩ => ⟨a', moved, matched.imp Along.symm Along.symm⟩
  have within₁ := rests₁.keeps (I := (State.now · ≤ limit)) (now_le_of_next _) within
  have within₂ := rests₂.keeps (I := (State.now · ≤ limit)) (now_le_of_next _) (h.now ▸ within)
  have elapse : ∀ {su : Setup δ} {f : State (Worker δ)}, f.next? su (some limit) = none →
      Acts su f { f with now := max f.now limit } := by
    intro su f still
    obtain ⟨idle, early⟩ := idle_of_next _ still
    exact .single (.motion (.elapse idle (early limit rfl)))
  rw [ended₁, ended₂]
  exact ⟨along.sound₁.acts c.mute₁ (elapse rests₁.still), along.sound₂.acts c.mute₂ (elapse rests₂.still),
    along.seen, (Nat.max_eq_right within₁).trans (Nat.max_eq_right within₂).symm⟩

/-- Two supervisors in which those that are ready now get done are abreast when they have. -/
theorem pass
    (enough₁ : ∀ more,
      s₁.pass (su.serving σ₁ τ₁) s₁.turn (fuel₁ + more) = s₁.pass (su.serving σ₁ τ₁) s₁.turn fuel₁)
    (enough₂ : ∀ more,
      s₂.pass (su.serving σ₂ τ₂) s₂.turn (fuel₂ + more) = s₂.pass (su.serving σ₂ τ₂) s₂.turn fuel₂) :
    Abreast jobs name 0 0 (s₁.pass (su.serving σ₁ τ₁) s₁.turn fuel₁)
      (s₂.pass (su.serving σ₂ τ₂) s₂.turn fuel₂) := by
  have rests₁ := h.sound₁.rests_pass (su.serving σ₁ τ₁) c.mute₁ enough₁
  have rests₂ := h.sound₂.rests_pass (su.serving σ₂ τ₂) c.mute₂ enough₂
  have still : ∀ {su : Setup δ} {bound : Nat} {s s' : State (Worker δ)}, s.now = s₁.now →
      s.passStep su bound = some s' → s'.now = s₁.now := by
    intro su bound s s' now next
    obtain ⟨m, -, -, rfl⟩ := (passStep_eq_some_iff _).mp next
    exact (move_now _).trans now
  have along : Along jobs name s₁.turn s₂.turn (s₁.pass (su.serving σ₁ τ₁) s₁.turn fuel₁)
      (s₂.pass (su.serving σ₂ τ₂) s₂.turn fuel₂) := by
    refine Rests.paired (I := fun _ => True) (J := fun _ => True) (fun _ _ => trivial) (fun _ _ => trivial)
      ?_ ?_ rests₁ rests₂ trivial trivial h.bounded.along
    · exact fun _ _ held next => held.passStep su c next
    · intro a b b' _ _ held next
      exact (held.symm.passStep su c.symm next).imp Along.symm
        fun ⟨a', moved, matched⟩ => ⟨a', moved, matched.imp Along.symm Along.symm⟩
  have now₁ := rests₁.keeps (I := (State.now · = s₁.now)) still rfl
  have now₂ := rests₂.keeps (I := (State.now · = s₁.now)) still h.now.symm
  have both : Abreast jobs name s₁.turn s₂.turn _ _ :=
    ⟨along.sound₁, along.sound₂, along.seen, now₁.trans now₂.symm⟩
  exact both.unbounded

end Abreast

end

end Settler.Supervisor.State
