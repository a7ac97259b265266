import Settler.Proofs.Supervisor.Firsts

/-!
What a job and the schedule loop wait for.

The clock matters to a job only when it or the schedule loop is ready, or due (`State.CallsBy`). A clock that
comes to an instant before that leaves what the job sees as it is (`State.seen_arrive_of_not_calls`). When the
job and the loop fall due together (`State.Meets`), it matters to the job which of them the event loop lets go
first; two event loops that decide so alike (`Ties.AlikeAt`) leave it with the same outlook
(`State.seen_arrive_congr`).
-/

namespace Settler.Supervisor

theorem Wake.callsBy_mono {w : Wake} {time later : Instant} (le : time ≤ later) (calls : w.callsBy time) :
    w.callsBy later := by
  cases w with
  | ready n => rfl
  | due t n => exact decide_eq_true (Nat.le_trans (of_decide_eq_true calls) le)
  | never => cases calls

/-- What calls and is not ready is due. -/
theorem Wake.exists_due {w : Wake} {time : Instant} (idle : w.turn? = none) (calls : w.callsBy time) :
    ∃ d ≤ time, w.time? = some d := by
  cases w with
  | ready n => cases idle
  | due t n => exact ⟨t, of_decide_eq_true calls, rfl⟩
  | never => cases calls

theorem Wake.calls_of_turn {w : Wake} {n : Nat} (ready : w.turn? = some n) (time : Instant) :
    w.callsBy time := by
  cases w with
  | ready m => rfl
  | _ => cases ready

/-! ### What the job and the loop wait for -/

variable {ω : Type}

/-- The job's run waits for something that has a property. -/
def Outlook.RunWaits (v : Outlook ω) (p : Wake → Prop) : Prop :=
  ∃ t l, v.slot = some t ∧ t.live? = some l ∧ p l.wake

/-- The schedule loop waits for something that has a property. -/
def Outlook.LoopWaits (v : Outlook ω) (p : Wake → Prop) : Prop := ∃ k, v.loop = some k ∧ p k.wake

/-- Of a job and the schedule loop that fall due together at an instant, two event loops let the same one go
first, if they set their timers in the same order, however much else happened before. -/
def Ties.AlikeAt (name : String) (now : Instant) (τ₁ τ₂ : Ties) : Prop :=
  ∀ ⦃fresh₁ fresh₂ loop₁ loop₂ own₁ own₂⦄, (loop₁ ≤ own₁ ↔ loop₂ ≤ own₂) →
    (τ₁.turn now fresh₁ .loop loop₁ ≤ τ₁.turn now fresh₁ (.job name) own₁ ↔
      τ₂.turn now fresh₂ .loop loop₂ ≤ τ₂.turn now fresh₂ (.job name) own₂)

theorem Ties.AlikeAt.symm {name : String} {now : Instant} {τ₁ τ₂ : Ties} (h : AlikeAt name now τ₁ τ₂) :
    AlikeAt name now τ₂ τ₁ :=
  fun _ _ _ _ _ _ order => (h order.symm).symm

/-- To let them go in the order in which they set their timers decides alike. -/
theorem Ties.alikeAt_setOrder (name : String) (now : Instant) : AlikeAt name now .setOrder .setOrder :=
  fun _ _ _ _ _ _ order => order

namespace State

variable {s : State ω} {name : String} {time : Instant} {bound : Nat} {p : Wake → Prop}

/-- The job's run waits for something that has a property. -/
def RunWaits (s : State ω) (name : String) (p : Wake → Prop) : Prop :=
  ∃ t l, s.slot? name = some t ∧ t.live? = some l ∧ p l.wake

/-- The schedule loop waits for something that has a property. -/
def LoopWaits (s : State ω) (p : Wake → Prop) : Prop := ∃ k, s.loop = some k ∧ p k.wake

/-- One of the two does. -/
def Waits (s : State ω) (name : String) (p : Wake → Prop) : Prop := s.RunWaits name p ∨ s.LoopWaits p

/-- The job or the schedule loop is ready, or due by an instant. -/
def CallsBy (s : State ω) (name : String) (time : Instant) : Prop := s.Waits name (·.callsBy time)

/-- Nobody is ready, and the job and the schedule loop are the next to fall due, both. -/
structure Meets (s : State ω) (name : String) (now : Instant) : Prop where
  idle : first? s.ready = none
  next : ∃ time, s.times.min? = some time ∧ now = max s.now time
  run : s.RunWaits name (·.callsBy now)
  loop : s.LoopWaits (·.callsBy now)

section

variable (turnless : ∀ w f, p (w.label f) ↔ p w)
include turnless

/-- A property that says nothing of turns can be seen. -/
theorem runWaits_seen : (s.seen name bound).RunWaits p ↔ s.RunWaits name p := by
  constructor
  · rintro ⟨t', l', slot, live, waits⟩
    obtain ⟨t, found, rfl⟩ := Option.map_eq_some_iff.mp slot
    obtain ⟨l, own, rfl⟩ := Option.map_eq_some_iff.mp ((Slot.live_seen _ t).symm.trans live)
    exact ⟨t, l, found, own, (turnless _ _).mp waits⟩
  · rintro ⟨t, l, found, live, waits⟩
    exact ⟨_, _, congrArg (Option.map _) found, Slot.seen_of_live live, (turnless _ _).mpr waits⟩

theorem loopWaits_seen : (s.seen name bound).LoopWaits p ↔ s.LoopWaits p := by
  constructor
  · rintro ⟨k', loop, waits⟩
    obtain ⟨k, live, rfl⟩ := Option.map_eq_some_iff.mp loop
    exact ⟨k, live, (turnless _ _).mp waits⟩
  · rintro ⟨k, live, waits⟩
    exact ⟨_, congrArg (Option.map _) live, (turnless _ _).mpr waits⟩

variable {s₁ s₂ : State ω} {b₁ b₂ : Nat} (seen : s₁.seen name b₁ = s₂.seen name b₂)
include seen

theorem runWaits_congr : s₁.RunWaits name p ↔ s₂.RunWaits name p := by
  rw [← runWaits_seen turnless, seen, runWaits_seen turnless]

theorem loopWaits_congr : s₁.LoopWaits p ↔ s₂.LoopWaits p := by
  rw [← loopWaits_seen turnless, seen, loopWaits_seen turnless]

theorem waits_congr : s₁.Waits name p ↔ s₂.Waits name p :=
  or_congr (runWaits_congr turnless seen) (loopWaits_congr turnless seen)

end

theorem Waits.imp {q : Wake → Prop} (h : s.Waits name p) (implies : ∀ w, p w → q w) : s.Waits name q :=
  Or.imp (fun ⟨t, l, found, live, waits⟩ => ⟨t, l, found, live, implies _ waits⟩)
    (fun ⟨k, live, waits⟩ => ⟨k, live, implies _ waits⟩) h

theorem CallsBy.mono {later : Instant} (h : s.CallsBy name time) (le : time ≤ later) :
    s.CallsBy name later :=
  Waits.imp h fun _ => Wake.callsBy_mono le

theorem callsBy_congr {s₁ s₂ : State ω} {b₁ b₂ : Nat} (seen : s₁.seen name b₁ = s₂.seen name b₂)
    (time : Instant) : s₁.CallsBy name time ↔ s₂.CallsBy name time :=
  waits_congr (fun _ _ => by rw [Wake.callsBy_label]) seen

/-- What the job or the loop waits for is among what is waited for. -/
theorem mem_times_of_waits {d : Instant} (h : s.Waits name (·.time? = some d)) : d ∈ s.times := by
  rcases h with ⟨t, l, found, live, due⟩ | ⟨k, live, due⟩
  · refine List.mem_append_right _ (List.mem_filterMap.mpr ⟨t, mem_of_slot found, ?_⟩)
    rw [live, Option.bind_some, due]
  · refine List.mem_append_left _ (Option.mem_toList.mpr ?_)
    rw [live, Option.bind_some, due]

theorem loop_not_ready (idle : first? s.ready = none) {k : Loop} (live : s.loop = some k) :
    k.wake.turn? = none := by
  rw [← Option.not_isSome_iff_eq_none, Option.isSome_iff_exists]
  rintro ⟨n, turn⟩
  have mem := mem_ready_loop live turn
  rw [eq_nil_of_first idle] at mem
  cases mem

/-- While nobody is ready, what calls is due. -/
theorem CallsBy.exists_due (h : s.CallsBy name time) (idle : first? s.ready = none) :
    ∃ d ≤ time, s.Waits name (·.time? = some d) := by
  rcases h with ⟨t, l, found, live, calls⟩ | ⟨k, live, calls⟩
  · obtain ⟨d, le, due⟩ := Wake.exists_due (not_ready idle (mem_of_slot found) live) calls
    exact ⟨d, le, .inl ⟨t, l, found, live, due⟩⟩
  · obtain ⟨d, le, due⟩ := Wake.exists_due (loop_not_ready idle live) calls
    exact ⟨d, le, .inr ⟨k, live, due⟩⟩

/-- What can be seen when the clock has come to an instant. -/
theorem seen_arrive (ties : Ties) :
    (s.arrive ties time).seen name bound = { s.seen name bound with
      slot := ((s.slot? name).map (arriveSlot (ties.turn time s.turn) time)).map
        (Slot.seen ((s.arrive ties time).labels bound))
      loop := (s.arrive ties time).loop.map (Loop.seen (beside none bound)) } := by
  have jobs : (s.arrive ties time).slots.map (·.job) = s.slots.map (·.job) :=
    jobs_map (Slot.alike_arrive _ time) s.slots
  have slot := slot_map s (fun t => (Slot.alike_arrive (ties.turn time s.turn) time t).job) name
  exact congrArg₂ (fun jobs (slot : Option (Slot ω)) => { s.seen name bound with
    jobs
    slot := slot.map (Slot.seen ((s.arrive ties time).labels bound))
    loop := (s.arrive ties time).loop.map (Loop.seen (beside none bound)) }) jobs slot

/-- The clock comes to an instant that the job and the loop do not wait for. -/
theorem seen_arrive_of_not_calls (ties : Ties) (quiet : ¬ s.CallsBy name time) :
    (s.arrive ties time).seen name bound = s.seen name bound := by
  have loop : (s.arrive ties time).loop = s.loop := by
    unfold arrive
    cases live : s.loop with
    | none => rfl
    | some k =>
      refine congrArg some (congrArg (Loop.mk k.started) (Wake.arrive_of_not_calls ?_))
      exact Bool.eq_false_iff.mpr fun calls => quiet (.inr ⟨k, live, calls⟩)
  have slot : (s.slot? name).map (arriveSlot (ties.turn time s.turn) time) = s.slot? name := by
    cases found : s.slot? name with
    | none => rfl
    | some t =>
      refine congrArg some ?_
      unfold arriveSlot
      split
      · next l run =>
        have still : l.wake.arrive (ties.turn time s.turn (.job t.job.name)) time = l.wake :=
          Wake.arrive_of_not_calls (Bool.eq_false_iff.mpr fun calls =>
            quiet (.inl ⟨t, l, found, Slot.live_iff.mpr run, calls⟩))
        rw [still]
        obtain ⟨job, health, built, run', place⟩ := t
        cases run
        rfl
      · rfl
  rw [seen_arrive, slot, labels, loop]
  rfl

/-! ### The job and the loop fall due -/

/-- Without a bound, the label beside a loop that has a turn says which of the two comes first. -/
theorem label_eq_iff {loop₁ loop₂ own₁ own₂ : Nat} :
    label (some loop₁) 0 own₁ = label (some loop₂) 0 own₂ ↔ (loop₁ ≤ own₁ ↔ loop₂ ≤ own₂) := by
  by_cases first₁ : loop₁ ≤ own₁ <;> by_cases first₂ : loop₂ ≤ own₂ <;> simp [label, first₁, first₂]

/-- What waits beside no turn of the loop is seen as the same when it falls due. -/
theorem arrive_alone {w₁ w₂ : Wake} (turn₁ turn₂ : Nat → Nat)
    (wakes : w₁.label (beside none 0) = w₂.label (beside none 0)) :
    (w₁.arrive turn₁ time).label (beside none 0) = (w₂.arrive turn₂ time).label (beside none 0) := by
  have alone : ∀ (w : Wake) (turn : Nat → Nat), (w.arrive turn time).label (beside none 0)
      = (w.label (beside none 0)).arrive (fun _ => 3) time := by
    intro w turn
    cases w with
    | due t n =>
      by_cases due : t ≤ time
      · simp only [Wake.arrive, Wake.label, due, if_true]
        rfl
      · simp only [Wake.arrive, Wake.label, due, if_false]
    | _ => rfl
  rw [alone, alone, wakes]

/-- What waits beside the loop is seen as the same when it or the loop falls due: if both do, they go in the
order that the event loops decide alike. -/
theorem arrive_beside {τ₁ τ₂ : Ties} {v₁ v₂ w₁ w₂ : Wake} {fresh₁ fresh₂ : Nat}
    (alike : v₁.callsBy time → w₁.callsBy time → Ties.AlikeAt name time τ₁ τ₂)
    (idle : v₁.turn? = none) (unready : w₁.turn? = none)
    (loops : v₁.label (beside none 0) = v₂.label (beside none 0))
    (wakes : w₁.label (beside (some v₁) 0) = w₂.label (beside (some v₂) 0)) :
    (w₁.arrive (τ₁.turn time fresh₁ (.job name)) time).label
        (beside (some (v₁.arrive (τ₁.turn time fresh₁ .loop) time)) 0)
      = (w₂.arrive (τ₂.turn time fresh₂ (.job name)) time).label
        (beside (some (v₂.arrive (τ₂.turn time fresh₂ .loop) time)) 0) := by
  cases v₁ with
  | ready n => cases idle
  | never =>
    cases v₂ with
    | never => exact arrive_alone _ _ wakes
    | _ => cases loops
  | due d m₁ =>
    cases v₂ with
    | due d' m₂ =>
      cases loops
      cases w₁ with
      | ready n => cases unready
      | never =>
        cases w₂ with
        | never => rfl
        | _ => cases wakes
      | due t n₁ =>
        cases w₂ with
        | due t' n₂ =>
          obtain ⟨rfl, order⟩ := Wake.due.inj wakes
          have order : m₁ ≤ n₁ ↔ m₂ ≤ n₂ := label_eq_iff.mp order
          by_cases loop : d ≤ time <;> by_cases own : t ≤ time <;>
            simp only [Wake.arrive, loop, own, if_true, if_false]
          · have alike := alike (decide_eq_true loop) (decide_eq_true own)
            exact congrArg Wake.ready (label_eq_iff.mpr (alike order))
          · rfl
          · rfl
          · exact congrArg (Wake.due t) (label_eq_iff.mpr order)
        | _ => cases wakes
    | _ => cases loops

/-- Slots that are seen as the same are so after they fall due, if what their runs wait for is. -/
theorem seen_arriveSlot {t₁ t₂ : Slot ω} {f₁ f₂ g₁ g₂ : Labels} (slots : t₁.seen f₁ = t₂.seen f₂)
    {turn₁ turn₂ : Mover → Nat → Nat}
    (wakes : ∀ l₁ l₂, t₁.live? = some l₁ → t₂.live? = some l₂ → l₁.wake.label f₁ = l₂.wake.label f₂ →
      (l₁.wake.arrive (turn₁ (.job t₁.job.name)) time).label g₁
        = (l₂.wake.arrive (turn₂ (.job t₂.job.name)) time).label g₂) :
    (arriveSlot turn₁ time t₁).seen g₁ = (arriveSlot turn₂ time t₂).seen g₂ := by
  obtain ⟨job₁, health₁, built₁, run₁, place₁⟩ := t₁
  obtain ⟨job₂, health₂, built₂, run₂, place₂⟩ := t₂
  obtain ⟨rfl, rfl, rfl, runs, -⟩ := Slot.mk.inj slots
  rcases run₁ with _ | l₁ | r₁ <;> rcases run₂ with _ | l₂ | r₂
  case some.live.some.live =>
    obtain ⟨phases, budgets, labels⟩ := Live.mk.inj (Run.live.inj (Option.some.inj runs))
    have arrived := wakes l₁ l₂ rfl rfl labels
    simp only [arriveSlot, Slot.seen, Option.map_some, Run.seen, Live.seen, phases, budgets, arrived]
  all_goals first | exact slots | cases runs

section

variable {s₁ s₂ : State ω} {τ₁ τ₂ : Ties} {time : Instant}

/-- Loops that are seen as the same are so after they fall due. -/
theorem loop_arrive_congr
    (loops : s₁.loop.map (Loop.seen (beside none 0)) = s₂.loop.map (Loop.seen (beside none 0))) :
    (s₁.arrive τ₁ time).loop.map (Loop.seen (beside none 0))
      = (s₂.arrive τ₂ time).loop.map (Loop.seen (beside none 0)) := by
  unfold arrive
  cases live₁ : s₁.loop <;> cases live₂ : s₂.loop <;> rw [live₁, live₂] at loops
  case none.none => rfl
  case some.some k₁ k₂ =>
    obtain ⟨started, wakes⟩ := Loop.mk.inj (Option.some.inj loops)
    exact congrArg₂ (fun started wake => some (Loop.mk started wake)) started (arrive_alone _ _ wakes)
  all_goals cases loops

variable (alike : s₁.RunWaits name (·.callsBy time) → s₁.LoopWaits (·.callsBy time) →
  Ties.AlikeAt name time τ₁ τ₂) (idle : first? s₁.ready = none) (seen : s₁.seen name 0 = s₂.seen name 0)
include alike idle seen

/-- So is the job's slot, if the event loops decide alike between it and the schedule loop. -/
theorem slot_arrive_congr :
    ((s₁.slot? name).map (arriveSlot (τ₁.turn time s₁.turn) time)).map
        (Slot.seen ((s₁.arrive τ₁ time).labels 0))
      = ((s₂.slot? name).map (arriveSlot (τ₂.turn time s₂.turn) time)).map
        (Slot.seen ((s₂.arrive τ₂ time).labels 0)) := by
  have loops : s₁.loop.map (Loop.seen (beside none 0)) = s₂.loop.map (Loop.seen (beside none 0)) :=
    congrArg Outlook.loop seen
  have slots : (s₁.slot? name).map (Slot.seen (s₁.labels 0))
      = (s₂.slot? name).map (Slot.seen (s₂.labels 0)) := congrArg Outlook.slot seen
  cases found₁ : s₁.slot? name <;> cases found₂ : s₂.slot? name <;> rw [found₁, found₂] at slots
  case none.none => rfl
  case some.some t₁ t₂ =>
    refine congrArg some (seen_arriveSlot (Option.some.inj slots) ?_)
    intro l₁ l₂ own₁ own₂ wakes
    have unready := not_ready idle (mem_of_slot found₁) own₁
    rw [name_of_slot found₁, name_of_slot found₂]
    unfold labels arrive at *
    cases live₁ : s₁.loop <;> cases live₂ : s₂.loop <;> rw [live₁, live₂] at loops <;>
      rw [live₁, live₂] at wakes
    case none.none => exact arrive_alone _ _ wakes
    case some.some k₁ k₂ =>
      obtain ⟨-, same⟩ := Loop.mk.inj (Option.some.inj loops)
      exact arrive_beside (fun loop own => alike ⟨t₁, l₁, found₁, own₁, own⟩ ⟨k₁, live₁, loop⟩)
        (loop_not_ready idle live₁) unready same wakes
    all_goals cases loops
  all_goals cases slots

/-- The clocks of two supervisors come to an instant while nobody is ready: a job that saw the same of both
still does. -/
theorem seen_arrive_congr : (s₁.arrive τ₁ time).seen name 0 = (s₂.arrive τ₂ time).seen name 0 := by
  rw [seen_arrive, seen_arrive, slot_arrive_congr alike idle seen,
    loop_arrive_congr (congrArg Outlook.loop seen), seen]

end

end State

end Settler.Supervisor
