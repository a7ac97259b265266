import Settler.Proofs.Supervisor.Concerns
import Settler.Proofs.Supervisor.Outlook

/-!
Two supervisors abreast: triggers and ticks.

Two supervisors of the same jobs are abreast for one job if the job sees the same of both, at the same
instant (`State.Abreast`). Whatever is done to both alike keeps them abreast, whatever their other jobs are
in the middle of.
-/

namespace Settler.Supervisor

open Settler.Calendar Relation

variable {δ : Type}

namespace State

/-- What holds of every state that acts lead to, and a bound that the next fresh turn is past. -/
structure Sound (jobs : List (Job (Worker δ))) (bound : Nat) (s : State (Worker δ)) : Prop where
  documented : s.Documented jobs
  regular : s.Regular
  bound : bound ≤ s.turn

/-- A job sees the same of both supervisors, at the same instant. -/
structure Abreast (jobs : List (Job (Worker δ))) (name : String) (b₁ b₂ : Nat)
    (s₁ s₂ : State (Worker δ)) : Prop where
  sound₁ : s₁.Sound jobs b₁
  sound₂ : s₂.Sound jobs b₂
  seen : s₁.seen name b₁ = s₂.seen name b₂
  now : s₁.now = s₂.now

variable {jobs : List (Job (Worker δ))} {bound b₁ b₂ : Nat} {name : String}
  {s s' s₁ s₂ s₁' s₂' : State (Worker δ)} {t₁ t₂ : Slot (Worker δ)}

namespace Sound

variable (h : s.Sound jobs bound)
include h

theorem distinct : s.names.Nodup := h.documented.nodup_slots

/-- A fresh turn comes after all others, and after the bound. -/
theorem label_fresh : (s.labels bound).ready s.turn = 3 ∧ (s.labels bound).timer s.turn = 3 := by
  have last : ∀ role : Wake → Option Nat, (∀ {w n}, role w = some n → w.place? = some n) →
      label ((s.loop.map (·.wake)).bind role) bound s.turn = 3 := by
    intro role placed
    have late : ((s.loop.map (·.wake)).bind role).all (· ≤ s.turn) = true := by
      rw [Option.all_eq_true]
      intro n own
      obtain ⟨w, wake, turn⟩ := Option.bind_eq_some_iff.mp own
      obtain ⟨k, live, rfl⟩ := Option.map_eq_some_iff.mp wake
      refine decide_eq_true (Nat.le_of_lt (h.regular.loop n ?_))
      rw [loopPlace?, live, Option.bind_some, placed turn]
      exact Option.mem_some_self n
    rw [label, late, if_pos h.bound]
    rfl
  exact ⟨last _ Wake.place_of_turn, last _ Wake.place_of_timer⟩

theorem level_fresh : (s.labels bound).Level s.turn := h.label_fresh.2.trans h.label_fresh.1.symm

theorem acts [Seconds δ] {su : Setup δ} (mute : su.services.IsMute) (acts : Acts su s s') :
    s'.Sound jobs bound := by
  induction acts with
  | refl => exact h
  | tail before act ih =>
    exact ⟨ih.documented.step su (act.step su), ih.regular.act ih.distinct mute act,
      Nat.le_trans ih.bound (turn_le_act act)⟩

end Sound

/-! ### The look-up of the next runs -/

section

variable {ω : Type} (after : Moment)

/-- Whether a look-up fails is up to the job. -/
theorem refreshSlot_fails {t u : Slot ω} (job : t.job = u.job) :
    (refreshSlot after t).map (fun _ => ()) = (refreshSlot after u).map fun _ => () := by
  unfold refreshSlot
  rw [job]
  cases u.job.schedule with
  | none => rfl
  | some schedule =>
    dsimp only
    cases schedule.nextAfter after <;> rfl

theorem refreshSlot_seen (f : Labels) (t : Slot ω) :
    (refreshSlot after t).map (Slot.seen f) = refreshSlot after (t.seen f) := by
  unfold refreshSlot
  have job : (t.seen f).job = t.job := rfl
  rw [job]
  cases t.job.schedule with
  | none => rfl
  | some schedule =>
    dsimp only
    cases schedule.nextAfter after <;> rfl

theorem refreshSlots_fails {l k : List (Slot ω)} (jobs : l.map (·.job) = k.map (·.job)) :
    (refreshSlots after l).2 = (refreshSlots after k).2 := by
  induction l generalizing k with
  | nil =>
    obtain rfl := List.map_eq_nil_iff.mp jobs.symm
    rfl
  | cons t rest ih =>
    cases k with
    | nil => cases jobs
    | cons u others =>
      obtain ⟨job, jobs⟩ := List.cons.inj jobs
      have fails := refreshSlot_fails after job
      rw [refreshSlots, refreshSlots]
      cases first : refreshSlot after t with
      | error e =>
        cases second : refreshSlot after u with
        | error e' =>
          rw [first, second] at fails
          exact congrArg Except.error (Except.error.inj fails)
        | ok u' =>
          rw [first, second] at fails
          cases fails
      | ok t' =>
        cases second : refreshSlot after u with
        | error e' =>
          rw [first, second] at fails
          cases fails
        | ok u' => exact ih jobs

/-- The look-up changes the slot of a job in the same way, whatever the other slots are in the middle
of. -/
theorem refreshSlots_seen {l k : List (Slot ω)} (jobs : l.map (·.job) = k.map (·.job)) {f g : Labels}
    {name : String} (slots : (l.find? (·.job.name == name)).map (Slot.seen f)
      = (k.find? (·.job.name == name)).map (Slot.seen g)) :
    ((refreshSlots after l).1.find? (·.job.name == name)).map (Slot.seen f)
      = ((refreshSlots after k).1.find? (·.job.name == name)).map (Slot.seen g) := by
  induction l generalizing k with
  | nil =>
    obtain rfl := List.map_eq_nil_iff.mp jobs.symm
    rfl
  | cons t rest ih =>
    cases k with
    | nil => cases jobs
    | cons u others =>
      obtain ⟨job, jobs⟩ := List.cons.inj jobs
      have fails := refreshSlot_fails after job
      rw [refreshSlots, refreshSlots]
      cases first : refreshSlot after t with
      | error e =>
        cases second : refreshSlot after u with
        | error e' => exact slots
        | ok u' =>
          rw [first, second] at fails
          cases fails
      | ok t' =>
        cases second : refreshSlot after u with
        | error e' =>
          rw [first, second] at fails
          cases fails
        | ok u' =>
          have job₁ : t'.job = t.job := (Slot.alike_refresh first).job
          have job₂ : u'.job = t.job := (Slot.alike_refresh second).job.trans job.symm
          simp only [List.find?_cons, ← job, job₁, job₂] at slots ⊢
          cases named : t.job.name == name with
          | true =>
            rw [named] at slots
            have same : refreshSlot after (t.seen f) = refreshSlot after (u.seen g) :=
              congrArg (refreshSlot after) (Option.some.inj slots)
            rw [← refreshSlot_seen, ← refreshSlot_seen, first, second] at same
            exact congrArg some (Except.ok.inj same)
          | false =>
            rw [named] at slots
            exact ih jobs slots

end

/-! ### Deeds -/

namespace Abreast

variable (h : Abreast jobs name b₁ b₂ s₁ s₂)
include h

theorem jobs_eq : s₁.slots.map (·.job) = s₂.slots.map (·.job) := congrArg Outlook.jobs h.seen

theorem names_eq : s₁.names = s₂.names := by
  have named := congrArg (List.map Job.name) h.jobs_eq
  rwa [List.map_map, List.map_map] at named

/-- Each slot has a counterpart. -/
theorem exists_slot {other : String} (found : s₁.slot? other = some t₁) :
    ∃ t₂, s₂.slot? other = some t₂ ∧ t₁.job = t₂.job := by
  have looked : ∀ s : State (Worker δ),
      (s.slot? other).map (·.job) = (s.slots.map (·.job)).find? (·.name == other) := by
    intro s
    rw [List.find?_map]
    rfl
  have same := looked s₂
  rw [← h.jobs_eq, ← looked s₁, found] at same
  obtain ⟨t₂, found₂, job⟩ := Option.map_eq_some_iff.mp same
  exact ⟨t₂, found₂, job.symm⟩

theorem slot_eq_none {other : String} (absent : s₁.slot? other = none) : s₂.slot? other = none := by
  rw [← Option.not_isSome_iff_eq_none, Option.isSome_iff_exists, ← mem_names_iff, ← h.names_eq,
    mem_names_iff, ← Option.isSome_iff_exists, absent]
  exact Bool.false_ne_true

theorem slots (found₁ : s₁.slot? name = some t₁) (found₂ : s₂.slot? name = some t₂) :
    t₁.seen (s₁.labels b₁) = t₂.seen (s₂.labels b₂) := by
  have slots : (s₁.slot? name).map _ = (s₂.slot? name).map _ := congrArg Outlook.slot h.seen
  rw [found₁, found₂] at slots
  exact Option.some.inj slots

theorem loops :
    s₁.loop.map (Loop.seen (beside none b₁)) = s₂.loop.map (Loop.seen (beside none b₂)) :=
  congrArg Outlook.loop h.seen

/-- Fresh turns have one label. -/
theorem label_fresh : (s₁.labels b₁).ready s₁.turn = (s₂.labels b₂).ready s₂.turn :=
  h.sound₁.label_fresh.1.trans h.sound₂.label_fresh.1.symm

theorem acts [Seconds δ] {su₁ su₂ : Setup δ} (mute₁ : su₁.services.IsMute) (mute₂ : su₂.services.IsMute)
    (acts₁ : Acts su₁ s₁ s₁') (acts₂ : Acts su₂ s₂ s₂') (seen : s₁'.seen name b₁ = s₂'.seen name b₂)
    (now : s₁'.now = s₂'.now) : Abreast jobs name b₁ b₂ s₁' s₂' :=
  ⟨h.sound₁.acts mute₁ acts₁, h.sound₂.acts mute₂ acts₂, seen, now⟩

/-- The job's own slot is put in both. -/
theorem seen_put (found₁ : s₁.slot? name = some t₁) (found₂ : s₂.slot? name = some t₂)
    {t₁' t₂' : Slot (Worker δ)} (job₁ : t₁'.job = t₁.job) (job₂ : t₂'.job = t₂.job)
    (slots : t₁'.seen (s₁.labels b₁) = t₂'.seen (s₂.labels b₂)) (turn₁ turn₂ : Nat)
    {events₁ events₂ : List Event}
    (events : events₁.filter (·.concerns name) = events₂.filter (·.concerns name)) :
    (({ s₁ with turn := turn₁ }.put t₁').record events₁).seen name b₁
      = (({ s₂ with turn := turn₂ }.put t₂').record events₂).seen name b₂ := by
  have about : s₁.journal.about name = s₂.journal.about name := congrArg Outlook.journal h.seen
  rw [seen_put_self h.sound₁.distinct found₁ job₁, seen_put_self h.sound₂.distinct found₂ job₂, h.seen,
    slots, about, h.now, events]

section

variable [Seconds δ] (su : Setup δ) {σ₁ σ₂ : Services δ} (τ₁ τ₂ : Ties) (mute₁ : σ₁.IsMute)
  (mute₂ : σ₂.IsMute)
include su mute₁ mute₂

/-- A job is triggered in both. -/
theorem fire {other : String} (reason : String) (found₁ : s₁.slot? other = some t₁)
    (found₂ : s₂.slot? other = some t₂) :
    Abreast jobs name b₁ b₂ (s₁.fire (su.serving σ₁ τ₁) reason t₁).1
      (s₂.fire (su.serving σ₂ τ₂) reason t₂).1 := by
  refine h.acts mute₁ mute₂ (.single (.deed (.fire reason found₁))) (.single (.deed (.fire reason found₂)))
    ?_ (by rw [fire_now, fire_now, h.now])
  have unconcerned : ∀ (t : Slot (Worker δ)) (accepted : Bool),
      ∀ e ∈ [Event.triggered t.job.name reason accepted], e.concerns name = false :=
    fun t accepted => List.forall_mem_singleton.mpr rfl
  by_cases own : other = name
  · subst own
    have slots := h.slots found₁ found₂
    have running : t₁.isRunning = t₂.isRunning := by
      rw [← t₁.isRunning_seen, slots, t₂.isRunning_seen]
    unfold State.fire
    rw [← running]
    split
    · refine h.seen_put found₁ found₂ ?_ ?_ ?_ s₁.turn s₂.turn ?_
      · rfl
      · rfl
      · exact congrArg (fun t : Slot (Worker δ) => { t with
          health.skippedTriggers := t.health.skippedTriggers + 1 }) slots
      · rfl
    · refine h.seen_put found₁ found₂ ?_ ?_ ?_ (s₁.turn + 1) (s₂.turn + 1) ?_
      · rfl
      · rfl
      · exact congrArg₂ (fun (t : Slot (Worker δ)) turn => { t with
          run := some (.live
            { phase := .created, budget := { limit := su.maxRestarts }, wake := .ready turn }) })
          slots h.label_fresh
      · rfl
  · have others : ∀ (s : State (Worker δ)) (b : Nat) (t : Slot (Worker δ)), s.slot? other = some t →
        s.names.Nodup → ∀ su : Setup δ, (s.fire su reason t).1.seen name b = s.seen name b := by
      intro s b t found distinct su
      obtain ⟨t', turn, attempted, fired⟩ := fire_spec su reason s t
      rw [fired]
      exact seen_put_of_ne distinct found attempted.job own turn (unconcerned t _)
    rw [others s₁ b₁ t₁ found₁ h.sound₁.distinct, others s₂ b₂ t₂ found₂ h.sound₂.distinct, h.seen]

theorem trigger (other reason : String) :
    Abreast jobs name b₁ b₂ (s₁.trigger (su.serving σ₁ τ₁) other reason).1
      (s₂.trigger (su.serving σ₂ τ₂) other reason).1 := by
  unfold State.trigger
  cases found₁ : s₁.slot? other with
  | none =>
    rw [h.slot_eq_none found₁]
    exact h
  | some t₁ =>
    obtain ⟨t₂, found₂, -⟩ := h.exists_slot found₁
    rw [found₂]
    exact h.fire su τ₁ τ₂ mute₁ mute₂ reason found₁ found₂

theorem trigger_foldl (reason : String) (others : List String) :
    Abreast jobs name b₁ b₂
      (others.foldl (fun s other => (s.trigger (su.serving σ₁ τ₁) other reason).1) s₁)
      (others.foldl (fun s other => (s.trigger (su.serving σ₂ τ₂) other reason).1) s₂) := by
  induction others generalizing s₁ s₂ with
  | nil => exact h
  | cons other rest ih => exact ih (h.trigger su τ₁ τ₂ mute₁ mute₂ other reason)

/-- The next runs are looked up in both. -/
theorem refresh (after : Moment) :
    Abreast jobs name b₁ b₂ (s₁.refresh after).1 (s₂.refresh after).1 ∧
      (s₁.refresh after).2 = (s₂.refresh after).2 := by
  refine ⟨?_, refreshSlots_fails after h.jobs_eq⟩
  have deed : ∀ (s : State (Worker δ)) (su : Setup δ), Acts su s (s.refresh after).1 :=
    fun s su => .single (.deed (.refresh after))
  refine h.acts mute₁ mute₂ (deed s₁ (su.serving σ₁ su.ties)) (deed s₂ (su.serving σ₂ su.ties)) ?_ h.now
  have jobs : (s₁.refresh after).1.slots.map (·.job) = (s₂.refresh after).1.slots.map (·.job) :=
    (jobs_refreshSlots after s₁.slots).trans (h.jobs_eq.trans (jobs_refreshSlots after s₂.slots).symm)
  have slot : ((s₁.refresh after).1.slot? name).map (Slot.seen (s₁.labels b₁))
      = ((s₂.refresh after).1.slot? name).map (Slot.seen (s₂.labels b₂)) :=
    refreshSlots_seen after h.jobs_eq (congrArg Outlook.slot h.seen)
  calc
    (s₁.refresh after).1.seen name b₁
        = { s₁.seen name b₁ with
            jobs := (s₁.refresh after).1.slots.map (·.job)
            slot := ((s₁.refresh after).1.slot? name).map (Slot.seen (s₁.labels b₁)) } := rfl
    _ = { s₂.seen name b₂ with
            jobs := (s₂.refresh after).1.slots.map (·.job)
            slot := ((s₂.refresh after).1.slot? name).map (Slot.seen (s₂.labels b₂)) } := by
      rw [jobs, slot, h.seen]
    _ = (s₂.refresh after).1.seen name b₂ := rfl

/-- The minute of a tick is kept in both. -/
theorem mark (own : Moment) :
    Abreast jobs name b₁ b₂ { s₁ with lastTick := some own } { s₂ with lastTick := some own } := by
  have deed : ∀ (s : State (Worker δ)) (su : Setup δ), Acts su s { s with lastTick := some own } :=
    fun s su => .single (.deed (.mark own))
  refine h.acts mute₁ mute₂ (deed s₁ (su.serving σ₁ su.ties)) (deed s₂ (su.serving σ₂ su.ties)) ?_ h.now
  exact congrArg (fun seen : Outlook (Worker δ) => { seen with lastTick := some own }) h.seen

end

end Abreast

end State

end Settler.Supervisor
