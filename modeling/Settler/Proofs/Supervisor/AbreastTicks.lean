import Settler.Proofs.Supervisor.Abreast

/-!
Two supervisors abreast: ticks, the start, and the schedule loop.

A tick and a start are triggers and look-ups one after another, and whether they fail is up to the clock and
the schedules; so they keep two supervisors abreast, and so does the move of the schedule loop.
-/

namespace Settler.Supervisor.State

open Settler.Calendar Relation

variable {δ : Type} {jobs : List (Job (Worker δ))} {b₁ b₂ : Nat} {name : String}
  {s₁ s₂ : State (Worker δ)}

/-- Two ticks under way abreast. -/
structure Firing.Abreast (jobs : List (Job (Worker δ))) (name : String) (b₁ b₂ : Nat)
    (f₁ f₂ : Firing (Worker δ)) : Prop where
  states : State.Abreast jobs name b₁ b₂ f₁.state f₂.state
  matched : f₁.seen = f₂.seen

section

variable [Seconds δ] (su : Setup δ) {σ₁ σ₂ : Services δ} (τ₁ τ₂ : Ties) (mute₁ : σ₁.IsMute)
  (mute₂ : σ₂.IsMute)
include mute₁ mute₂

/-! ### Ticks -/

namespace Firing.Abreast

variable {f₁ f₂ : Firing (Worker δ)} (h : Firing.Abreast jobs name b₁ b₂ f₁ f₂)
include h

theorem consider (candidate : Moment) (other : String) :
    Firing.Abreast jobs name b₁ b₂ (consider (su.serving σ₁ τ₁) candidate f₁ other)
      (consider (su.serving σ₂ τ₂) candidate f₂ other) := by
  unfold State.consider
  cases found₁ : f₁.state.slot? other with
  | none =>
    rw [h.states.slot_eq_none found₁]
    exact h
  | some t₁ =>
    obtain ⟨t₂, found₂, job⟩ := h.states.exists_slot found₁
    rw [found₂]
    dsimp only
    rw [job]
    cases t₂.job.schedule with
    | none => exact h
    | some schedule =>
      dsimp only
      rw [h.matched]
      split
      · exact h
      · exact ⟨h.states.fire su τ₁ τ₂ mute₁ mute₂ _ found₁ found₂, rfl⟩

theorem consider_foldl (candidate : Moment) (others : List String) :
    Firing.Abreast jobs name b₁ b₂ (others.foldl (State.consider (su.serving σ₁ τ₁) candidate) f₁)
      (others.foldl (State.consider (su.serving σ₂ τ₂) candidate) f₂) := by
  induction others generalizing f₁ f₂ with
  | nil => exact h
  | cons other rest ih => exact ih (h.consider su τ₁ τ₂ mute₁ mute₂ candidate other)

theorem considerAll (count : Nat) (candidate : Moment) :
    Firing.Abreast jobs name b₁ b₂ (considerAll (su.serving σ₁ τ₁) count candidate f₁).1
        (considerAll (su.serving σ₂ τ₂) count candidate f₂).1 ∧
      (State.considerAll (su.serving σ₁ τ₁) count candidate f₁).2
        = (State.considerAll (su.serving σ₂ τ₂) count candidate f₂).2 := by
  induction count generalizing candidate f₁ f₂ with
  | zero => exact ⟨h, rfl⟩
  | succ count ih =>
    have held := h.consider_foldl su τ₁ τ₂ mute₁ mute₂ candidate f₁.state.names
    rw [State.considerAll, State.considerAll, ← h.states.names_eq]
    cases candidate.add? minute with
    | none => exact ⟨held, rfl⟩
    | some next => exact ih held next

end Firing.Abreast

namespace Abreast

variable (h : Abreast jobs name b₁ b₂ s₁ s₂)
include h

theorem evaluate (last own : Moment) :
    Abreast jobs name b₁ b₂ (s₁.evaluate (su.serving σ₁ τ₁) last own).1
        (s₂.evaluate (su.serving σ₂ τ₂) last own).1 ∧
      (s₁.evaluate (su.serving σ₁ τ₁) last own).2.map (fun _ => ())
        = (s₂.evaluate (su.serving σ₂ τ₂) last own).2.map fun _ => () := by
  unfold State.evaluate
  cases firstMinute last own with
  | error f => exact ⟨h, rfl⟩
  | ok first =>
    have fresh : Firing.Abreast jobs name b₁ b₂ { state := s₁ } { state := s₂ } := ⟨h, rfl⟩
    have held := fresh.considerAll su τ₁ τ₂ mute₁ mute₂ (minutesTo first own) first
    dsimp only
    generalize considerAll (su.serving σ₁ τ₁) (minutesTo first own) first { state := s₁ } = r₁ at held
    generalize considerAll (su.serving σ₂ τ₂) (minutesTo first own) first { state := s₂ } = r₂ at held
    obtain ⟨f₁, fault⟩ := r₁
    obtain ⟨f₂, fault'⟩ := r₂
    obtain ⟨held, rfl⟩ := held
    cases fault with
    | some e => exact ⟨held.states, rfl⟩
    | none =>
      have looked := (held.states.mark su mute₁ mute₂ own).refresh su mute₁ mute₂ own
      refine ⟨looked.1, ?_⟩
      dsimp only
      rw [looked.2]
      cases (({ f₂.state with lastTick := some own }).refresh own).2 <;> rfl

theorem tick (m : Moment) :
    Abreast jobs name b₁ b₂ (s₁.tick (su.serving σ₁ τ₁) m).1 (s₂.tick (su.serving σ₂ τ₂) m).1 ∧
      (s₁.tick (su.serving σ₁ τ₁) m).2.map (fun _ => ())
        = (s₂.tick (su.serving σ₂ τ₂) m).2.map fun _ => () := by
  have last : s₁.lastOr m.startOfMinute = s₂.lastOr m.startOfMinute := by
    have lastTick : s₁.lastTick = s₂.lastTick := congrArg Outlook.lastTick h.seen
    rw [lastOr, lastOr, lastTick]
  unfold State.tick
  dsimp only
  rw [last]
  cases s₂.lastOr m.startOfMinute with
  | error f => exact ⟨h, rfl⟩
  | ok last =>
    dsimp only
    split
    · exact ⟨h, rfl⟩
    · exact h.evaluate su τ₁ τ₂ mute₁ mute₂ last _
    · exact ⟨h, rfl⟩

theorem tickNow :
    Abreast jobs name b₁ b₂ (s₁.tickNow (su.serving σ₁ τ₁)).1 (s₂.tickNow (su.serving σ₂ τ₂)).1 ∧
      (s₁.tickNow (su.serving σ₁ τ₁)).2.map (fun _ => ())
        = (s₂.tickNow (su.serving σ₂ τ₂)).2.map fun _ => () := by
  have moment : (su.serving σ₁ τ₁).moment s₁.now = (su.serving σ₂ τ₂).moment s₂.now := by
    rw [h.now]
    rfl
  rw [tickNow_eq, tickNow_eq, moment]
  cases (su.serving σ₂ τ₂).moment s₂.now with
  | error f => exact ⟨h, rfl⟩
  | ok m => exact h.tick su τ₁ τ₂ mute₁ mute₂ m

/-- What concerns no job is recorded in both. -/
theorem record {events₁ events₂ : List Event} (acts₁ : Acts (su.serving σ₁ su.ties) s₁ (s₁.record events₁))
    (acts₂ : Acts (su.serving σ₂ su.ties) s₂ (s₂.record events₂))
    (others₁ : ∀ e ∈ events₁, e.concerns name = false) (others₂ : ∀ e ∈ events₂, e.concerns name = false) :
    Abreast jobs name b₁ b₂ (s₁.record events₁) (s₂.record events₂) := by
  refine h.acts mute₁ mute₂ acts₁ acts₂ ?_ h.now
  rw [seen_record_of_unconcerned others₁, seen_record_of_unconcerned others₂, h.seen]

/-! ### The schedule loop -/

/-- The loop gets a fresh turn, or waits for ever, in both. -/
theorem loop (started : Bool) {wake₁ wake₂ : Wake} (fresh₁ : ∀ n ∈ wake₁.place?, n = s₁.turn)
    (fresh₂ : ∀ n ∈ wake₂.place?, n = s₂.turn)
    (wakes : wake₁.label (.both fun _ => 3) = wake₂.label (.both fun _ => 3))
    (acts₁ : Acts (su.serving σ₁ su.ties) s₁ { s₁ with turn := s₁.turn + 1, loop := some ⟨started, wake₁⟩ })
    (acts₂ : Acts (su.serving σ₂ su.ties) s₂ { s₂ with turn := s₂.turn + 1, loop := some ⟨started, wake₂⟩ }) :
    Abreast jobs name b₁ b₂ { s₁ with turn := s₁.turn + 1, loop := some ⟨started, wake₁⟩ }
      { s₂ with turn := s₂.turn + 1, loop := some ⟨started, wake₂⟩ } := by
  refine h.acts mute₁ mute₂ acts₁ acts₂ ?_ h.now
  rw [seen_loop h.sound₁.regular h.sound₁.bound started fresh₁,
    seen_loop h.sound₂.regular h.sound₂.bound started fresh₂, h.seen, ← afresh_label _ wake₁, wakes,
    afresh_label]

theorem looped {l₁ l₂ : Loop} (live₁ : s₁.loop = some l₁) (live₂ : s₂.loop = some l₂) :
    Abreast jobs name b₁ b₂ (s₁.looped (su.serving σ₁ τ₁)) (s₂.looped (su.serving σ₂ τ₂)) := by
  refine h.loop su mute₁ mute₂ true (Wake.place_afterPause _ _ _) (Wake.place_afterPause _ _ _) ?_
    (.single (.turnLoop live₁)) (.single (.turnLoop live₂))
  rw [Wake.label_afterPause _ (Labels.level_both _ _), Wake.label_afterPause _ (Labels.level_both _ _), h.now]
  rfl

/-- The schedule loop makes its move in both. -/
theorem moveLoop {l₁ l₂ : Loop} (live₁ : s₁.loop = some l₁) (live₂ : s₂.loop = some l₂) :
    Abreast jobs name b₁ b₂ (s₁.moveLoop (su.serving σ₁ τ₁) l₁) (s₂.moveLoop (su.serving σ₂ τ₂) l₂) := by
  have started : l₁.started = l₂.started := by
    have loops := h.loops
    rw [live₁, live₂] at loops
    exact (congrArg Loop.started (Option.some.inj loops) :)
  have ticked := h.tickNow su τ₁ τ₂ mute₁ mute₂
  have still₁ := (frame_of_deeds _ (deeds_tickNow (su.serving σ₁ τ₁) s₁)).1.trans live₁
  have still₂ := (frame_of_deeds _ (deeds_tickNow (su.serving σ₂ τ₂) s₂)).1.trans live₂
  unfold State.moveLoop
  rw [started]
  cases l₂.started with
  | false => exact h.looped su τ₁ τ₂ mute₁ mute₂ live₁ live₂
  | true =>
    generalize s₁.tickNow (su.serving σ₁ τ₁) = r₁ at ticked still₁
    generalize s₂.tickNow (su.serving σ₂ τ₂) = r₂ at ticked still₂
    obtain ⟨s₁', result₁⟩ := r₁
    obtain ⟨s₂', result₂⟩ := r₂
    obtain ⟨ticked, results⟩ := ticked
    cases result₁ with
    | ok fired₁ =>
      cases result₂ with
      | ok fired₂ => exact ticked.looped su τ₁ τ₂ mute₁ mute₂ still₁ still₂
      | error e => cases results
    | error e =>
      cases result₂ with
      | ok fired₂ => cases results
      | error e' =>
        have noted := ticked.record su mute₁ mute₂ (.single .noteTick) (.single .noteTick)
          (List.forall_mem_singleton.mpr rfl) (List.forall_mem_singleton.mpr rfl)
        exact noted.looped su τ₁ τ₂ mute₁ mute₂ still₁ still₂

/-- The jobs that run on startup are triggered, the loop is opened, and the start is noted, in both. -/
theorem opening (closed₁ : s₁.loop = none) (closed₂ : s₂.loop = none) :
    let startups (s : State (Worker δ)) := (s.slots.filter (·.job.runsOnStartup)).map (·.job.name)
    let fired (su : Setup δ) (s : State (Worker δ)) :=
      (startups s).foldl (fun s other => (s.trigger su other "startup").1) s
    let opened (s : State (Worker δ)) := s.opened.record [.started s.names]
    Abreast jobs name b₁ b₂ (opened (fired (su.serving σ₁ τ₁) s₁))
      (opened (fired (su.serving σ₂ τ₂) s₂)) := by
  intro startups fired opened
  have listed : ∀ s : State (Worker δ),
      startups s = ((s.slots.map (·.job)).filter (·.runsOnStartup)).map (·.name) := by
    intro s
    rw [List.filter_map, List.map_map]
    rfl
  have triggered : Abreast jobs name b₁ b₂ (fired (su.serving σ₁ τ₁) s₁) (fired (su.serving σ₂ τ₂) s₂) := by
    show Abreast _ _ _ _ (List.foldl _ _ (startups s₁)) (List.foldl _ _ (startups s₂))
    rw [listed s₁, h.jobs_eq, ← listed s₂]
    exact h.trigger_foldl su τ₁ τ₂ mute₁ mute₂ "startup" (startups s₂)
  have still : ∀ (su : Setup δ) {s : State (Worker δ)}, s.loop = none → (fired su s).loop = none :=
    fun su s closed => (frame_of_deeds _ (deeds_trigger_foldl su "startup" _ s)).1.trans closed
  have opens : Abreast jobs name b₁ b₂ (fired (su.serving σ₁ τ₁) s₁).opened
      (fired (su.serving σ₂ τ₂) s₂).opened := by
    refine triggered.loop su mute₁ mute₂ false ?_ ?_ rfl
      (.single (.openLoop (still (su.serving σ₁ τ₁) closed₁)))
      (.single (.openLoop (still (su.serving σ₂ τ₂) closed₂)))
    · rintro n ⟨⟩
      rfl
    · rintro n ⟨⟩
      rfl
  exact opens.record su mute₁ mute₂ (.single .noteStart) (.single .noteStart)
    (List.forall_mem_singleton.mpr rfl) (List.forall_mem_singleton.mpr rfl)

/-- Both are started. -/
theorem start : Abreast jobs name b₁ b₂ (s₁.start (su.serving σ₁ τ₁)).1 (s₂.start (su.serving σ₂ τ₂)).1 := by
  have looping : s₁.isLooping = s₂.isLooping := by
    have loops := congrArg Option.isSome h.loops
    rwa [Option.isSome_map, Option.isSome_map] at loops
  have moment : (su.serving σ₁ τ₁).moment s₁.now = (su.serving σ₂ τ₂).moment s₂.now := by
    rw [h.now]
    rfl
  unfold State.start
  rw [looping, moment]
  split
  · exact h
  · next idle =>
    have closed₂ : s₂.loop = none := Option.not_isSome_iff_eq_none.mp idle
    have closed₁ : s₁.loop = none := by
      rw [← looping] at idle
      exact Option.not_isSome_iff_eq_none.mp idle
    cases ((su.serving σ₂ τ₂).moment s₂.now).map Moment.startOfMinute with
    | error f => exact h
    | ok m =>
      dsimp only
      cases m.add? (-minute) with
      | none => exact h
      | some last =>
        have looked := (h.mark su mute₁ mute₂ last).refresh su mute₁ mute₂ last
        have still₁ : ({ s₁ with lastTick := some last }.refresh last).1.loop = none := closed₁
        have still₂ : ({ s₂ with lastTick := some last }.refresh last).1.loop = none := closed₂
        dsimp only
        generalize { s₁ with lastTick := some last }.refresh last = r₁ at looked still₁
        generalize { s₂ with lastTick := some last }.refresh last = r₂ at looked still₂
        obtain ⟨s₁', result₁⟩ := r₁
        obtain ⟨s₂', result₂⟩ := r₂
        obtain ⟨looked, rfl⟩ := looked
        cases result₁ with
        | error f => exact looked
        | ok u => exact looked.opening su τ₁ τ₂ mute₁ mute₂ still₁ still₂

end Abreast

end

end Settler.Supervisor.State
