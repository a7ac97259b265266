import Settler.Proofs.Supervisor.Pool

/-!
A pool of tasks does what the state does.

The state shows of a pool what is on file (`Pool.view`). As a live task is always on file, every act of
the state is an act of the pool (`exists_act_of_view`), so for every state that a supervisor comes to
there is a pool that it comes to in the same way (`exists_reached`).
-/

namespace Settler.Supervisor.Pool

open Settler.Calendar Relation

variable {ω δ : Type}

section

variable {p p' : Pool ω}

theorem task_file_self (p : Pool ω) (k : Task ω) (d : State ω) :
    (p.file k d).task? k.owner = some k := by
  simp [task?, file]

theorem task_file_of_ne (h : p.Orderly) {k : Task ω} {owner : Mover} (other : owner ≠ k.owner)
    (d : State ω) : (p.file k d).task? owner = p.task? owner := by
  simp only [task?, file, if_neg other]
  cases filed : p.filed owner with
  | none => rfl
  | some n =>
    obtain ⟨k', found, -⟩ := h.owned owner n filed
    have inside : n < p.tasks.length := (List.getElem?_eq_some_iff.mp found).1
    exact List.getElem?_append_left inside

theorem task_advance_self (h : p.Orderly) {n : Nat} {k : Task ω} (found : p.tasks[n]? = some k)
    (live : k.isLive) (k' : Task ω) (d : State ω) : (p.advance n k' d).task? k.owner = some k' := by
  have inside : n < p.tasks.length := (List.getElem?_eq_some_iff.mp found).1
  simp only [task?, advance, h.onFile n k found live, Option.bind_some, List.getElem?_set_self inside]

theorem task_advance_of_ne (h : p.Orderly) {n : Nat} {k : Task ω} (found : p.tasks[n]? = some k)
    {owner : Mover} (other : owner ≠ k.owner) (k' : Task ω) (d : State ω) :
    (p.advance n k' d).task? owner = p.task? owner := by
  simp only [task?, advance]
  cases filed : p.filed owner with
  | none => rfl
  | some m =>
    refine List.getElem?_set_ne ?_
    rintro rfl
    obtain ⟨k₁, found₁, owned, -⟩ := h.owned owner n filed
    rw [found] at found₁
    cases found₁
    exact other owned.symm

theorem task_arrive (p : Pool ω) (turn : Mover → Nat → Nat) (now : Instant) (owner : Mover) :
    (p.arrive turn now).task? owner = (p.task? owner).map (Task.arrive turn now) := by
  simp only [task?, arrive]
  cases p.filed owner with
  | none => rfl
  | some n => exact List.getElem?_map

@[simp]
theorem fill_job (p : Pool ω) (t : Slot ω) : (p.fill t).job = t.job := rfl

theorem slot_view (p : Pool ω) (name : String) :
    p.view.slot? name = (p.desk.slot? name).map p.fill :=
  List.find?_map

/-- A slot shows a live run if the task on file for its job is live. -/
theorem isRunning_fill (h : p.Orderly) (t : Slot ω) :
    (p.fill t).isRunning = (p.task? (.job t.job.name)).any Task.isLive := by
  unfold Slot.isRunning Slot.live? fill
  dsimp only
  cases task : p.task? (.job t.job.name) with
  | none => rfl
  | some k =>
    obtain ⟨-, -, -, owner, fits⟩ := h.exists_of_task task
    obtain ⟨o, progress⟩ := k
    cases owner
    cases progress with
    | run r => cases r <;> rfl
    | loop l => cases fits
    | cancelled => rfl

/-- A job with a live run has a task on file that supervises it. -/
theorem exists_of_live (h : p.Orderly) {t : Slot ω} {l : Live ω} (live : (p.fill t).live? = some l) :
    ∃ n : Nat, p.tasks[n]? = some ⟨.job t.job.name, .run (.live l)⟩ := by
  unfold Slot.live? fill at live
  dsimp only at live
  cases task : p.task? (.job t.job.name) with
  | none => simp [task] at live
  | some k =>
    obtain ⟨n, -, found, owner, -⟩ := h.exists_of_task task
    obtain ⟨o, progress⟩ := k
    cases owner
    refine ⟨n, ?_⟩
    rw [task] at live
    cases progress with
    | run r =>
      cases r with
      | live l' =>
        cases live
        exact found
      | ended result => cases live
    | loop l' => cases live
    | cancelled => cases live

/-- A schedule loop that shows is a task on file. -/
theorem exists_of_loop (h : p.Orderly) {l : Loop} (live : p.view.loop = some l) :
    ∃ n : Nat, p.tasks[n]? = some ⟨.loop, .loop l⟩ := by
  obtain ⟨k, task, loop⟩ := Option.bind_eq_some_iff.mp live
  obtain ⟨n, -, found, owner, -⟩ := h.exists_of_task task
  obtain ⟨o, progress⟩ := k
  cases owner
  cases progress with
  | run r => cases loop
  | loop l' =>
    cases loop
    exact ⟨n, found⟩
  | cancelled => cases loop

/-- If no schedule loop shows, none is on file. -/
theorem filed_loop (h : p.Orderly) (closed : p.view.loop = none) : p.filed .loop = none := by
  cases filed : p.filed .loop with
  | none => rfl
  | some n =>
    obtain ⟨k, found, owner, fits⟩ := h.owned .loop n filed
    have task : p.task? .loop = some k := by
      rw [task?, filed]
      exact found
    have loop := Task.loop_of_fits fits owner
    rw [show k.loop? = none by simpa [view, task] using closed] at loop
    cases loop

/-- A slot takes its place on the desk while its task, and no other, goes on. -/
theorem slots_put (u : Slot ω) {name : String} (named : u.job.name = name) {k : Task ω}
    (own : p'.task? (.job name) = some k)
    (others : ∀ owner, owner ≠ .job name → p'.task? owner = p.task? owner) :
    (p.desk.put u).slots.map p'.fill = (p.view.put { u with run := k.run? }).slots := by
  subst named
  unfold State.put view
  rw [List.map_map, List.map_map]
  refine List.map_congr_left ?_
  intro v _
  change p'.fill (if v.job.name = u.job.name then u else v)
    = if v.job.name = u.job.name then { u with run := k.run? } else p.fill v
  by_cases same : v.job.name = u.job.name
  · rw [if_pos same, if_pos same, fill, own, Option.bind_some]
  · have other : Mover.job v.job.name ≠ .job u.job.name := by simpa using same
    rw [if_neg same, if_neg same, fill, others _ other, fill]

theorem slots_refresh (p : Pool ω) (after : Moment) (slots : List (Slot ω)) :
    (State.refreshSlots after (slots.map p.fill)).1
      = (State.refreshSlots after slots).1.map p.fill := by
  have each : ∀ t, State.refreshSlot after (p.fill t) = (State.refreshSlot after t).map p.fill := by
    intro t
    unfold State.refreshSlot
    rw [fill_job]
    cases t.job.schedule with
    | none => rfl
    | some schedule =>
      dsimp only
      cases schedule.nextAfter after <;> rfl
  induction slots with
  | nil => rfl
  | cons t rest ih =>
    rw [List.map_cons, State.refreshSlots, State.refreshSlots, each]
    cases State.refreshSlot after t with
    | error f => rfl
    | ok t' =>
      simp only [Except.map, List.map_cons, ih]

theorem fill_arrive (h : p.Orderly) (turn : Mover → Nat → Nat) (now : Instant) (t : Slot ω) :
    (p.arrive turn now).fill t = State.arriveSlot turn now (p.fill t) := by
  unfold State.arriveSlot fill
  dsimp only
  rw [task_arrive]
  cases task : p.task? (.job t.job.name) with
  | none => rfl
  | some k =>
    obtain ⟨-, -, -, owner, -⟩ := h.exists_of_task task
    obtain ⟨o, progress⟩ := k
    cases owner
    cases progress with
    | run r => cases r <;> rfl
    | loop l => rfl
    | cancelled => rfl

end

variable [Machine ω δ] [Seconds δ] {su : Setup δ} {p : Pool ω}

theorem view_eq {s : State ω} (slots : p.desk.slots.map p.fill = s.slots)
    (loop : (p.task? .loop).bind Task.loop? = s.loop)
    (rest : { p.desk with slots := s.slots, loop := s.loop } = s) : p.view = s := by
  unfold view
  rw [slots, loop, rest]

/-- What a trigger does in the state, it does in the pool. -/
theorem exists_fire (h : p.Orderly) {name : String} {t : Slot ω} (reason : String)
    (found : p.view.slot? name = some t) :
    ∃ p', Act su p p' ∧ p'.view = (p.view.fire su reason t).1 := by
  rw [slot_view] at found
  obtain ⟨t, desk, rfl⟩ := Option.map_eq_some_iff.mp found
  obtain rfl := State.name_of_slot desk
  unfold State.fire
  split
  · next running =>
    rw [isRunning_fill h] at running
    obtain ⟨k, task, live⟩ := (Option.any_eq_true _ _).mp running
    have shown : p.fill t = { t with run := k.run? } := by
      rw [fill, task]
      rfl
    refine ⟨_, .skip reason desk task live, view_eq ?_ rfl rfl⟩
    rw [shown]
    exact slots_put { t with health.skippedTriggers := t.health.skippedTriggers + 1 } rfl task
      fun _ _ => rfl
  · next idle =>
    rw [isRunning_fill h] at idle
    have ended : ∀ k, p.task? (.job t.job.name) = some k → k.isLive = false := by
      intro k task
      rw [task] at idle
      simpa using idle
    refine ⟨_, .fire reason desk ended, view_eq ?_ ?_ rfl⟩
    · exact slots_put { t with place := if (p.fill t).run.isSome then t.place else p.desk.turn } rfl
        (task_file_self p (p.created su t.job.name) _) fun _ other => task_file_of_ne h other _
    · rw [task_file_of_ne h (by simp [created])]
      rfl

/-- What a job's move does in the state, it does in the pool. -/
theorem exists_move (h : p.Orderly) {name : String} {t : Slot ω} {l : Live ω} (present : Nat)
    (found : p.view.slot? name = some t) (live : t.live? = some l) :
    ∃ p', Act su p p' ∧ p'.view = p.view.moveJob su present t l := by
  rw [slot_view] at found
  obtain ⟨t, desk, rfl⟩ := Option.map_eq_some_iff.mp found
  obtain rfl := State.name_of_slot desk
  obtain ⟨n, task⟩ := exists_of_live h live
  have shown : p.fill t = { t with run := some (.live l) } := by
    rw [fill, h.task_of_live task rfl]
    rfl
  have job := (Slot.own_move su ⟨p.desk.now, present, p.desk.turn, p.desk.journal.outbound⟩
    (p.fill t) l).job
  refine ⟨_, .move present task desk, view_eq ?_ ?_ rfl⟩
  · unfold moveTask State.moveJob
    rw [← shown]
    change _ = (p.view.put ((p.fill t).move su
      ⟨p.desk.now, present, p.desk.turn, p.desk.journal.outbound⟩ l).1).slots
    generalize (p.fill t).move su _ l = r at job ⊢
    have placed := slots_put r.1 (congrArg (·.name) job)
      (task_advance_self h task rfl (.ofRun t.job.name r.1.run)
        (({ p.desk with turn := p.desk.turn + 1 }.put r.1).record r.2))
      fun _ other => task_advance_of_ne h task other _ _
    rw [Task.run?_ofRun] at placed
    exact placed
  · rw [moveTask, task_advance_of_ne h task (by simp)]
    rfl

/-- What an act does in the state, it does in the pool. -/
theorem exists_act_of_view (h : p.Orderly) {s : State ω} (act : State.Act su p.view s) :
    ∃ p', Act su p p' ∧ p'.view = s := by
  cases act with
  | deed deed =>
    cases deed with
    | fire reason found => exact exists_fire h reason found
    | refresh after => exact ⟨_, .refresh after, view_eq (slots_refresh p after _).symm rfl rfl⟩
    | mark own => exact ⟨_, .mark own, rfl⟩
  | motion motion =>
    cases motion with
    | move first found live => exact exists_move h _ found live
    | @arrive time idle least =>
      refine ⟨_, .arrive (su.ties.turn (max p.desk.now time) p.desk.turn) (max p.desk.now time),
        view_eq ?_ ?_ rfl⟩
      · show _ = (p.desk.slots.map p.fill).map _
        rw [List.map_map]
        exact List.map_congr_left fun t _ => fill_arrive h _ _ t
      · rw [task_arrive]
        change _ = ((p.task? .loop).bind Task.loop?).map _
        cases task : p.task? .loop with
        | none => rfl
        | some k =>
          obtain ⟨-, -, -, owner, -⟩ := h.exists_of_task task
          obtain ⟨o, progress⟩ := k
          cases owner
          cases progress with
          | run r => cases r <;> rfl
          | loop l => rfl
          | cancelled => rfl
    | @elapse limit idle early => exact ⟨_, .elapse (max p.desk.now limit), rfl⟩
  | openLoop closed =>
    refine ⟨_, .openLoop (filed_loop h closed), view_eq ?_ ?_ rfl⟩
    · refine List.map_congr_left fun t _ => ?_
      rw [fill, task_file_of_ne h (by simp)]
      rfl
    · exact congrArg (·.bind Task.loop?) (task_file_self p ⟨.loop, _⟩ _)
  | turnLoop live =>
    obtain ⟨n, task⟩ := exists_of_loop h live
    refine ⟨_, .turnLoop task, view_eq ?_ ?_ rfl⟩
    · refine List.map_congr_left fun t _ => ?_
      rw [fill, task_advance_of_ne h task (by simp)]
      rfl
    · exact congrArg (·.bind Task.loop?) (task_advance_self h task rfl _ _)
  | noteTick => exact ⟨_, .note _, rfl⟩
  | noteStart =>
    refine ⟨_, .note [.started p.view.names], rfl⟩
  | stop =>
    refine ⟨_, .stop, view_eq ?_ rfl rfl⟩
    change (List.map _ p.desk.slots).map p.stop.fill = (p.desk.slots.map p.fill).map State.stopped
    rw [List.map_map, List.map_map]
    rfl

/-- Whatever the acts of a supervisor without runs lead to, there are acts in a pool without tasks that
lead to a pool that shows it. -/
theorem exists_reached {st s : State ω} (runs : ∀ t ∈ st.slots, t.run = none) (loop : st.loop = none)
    (acts : State.Acts su st s) : ∃ p, Reached su st p ∧ p.view = s := by
  induction acts with
  | refl =>
    refine ⟨_, .refl, view_eq ?_ loop.symm rfl⟩
    refine (List.map_congr_left ?_).trans (List.map_id _)
    intro t mem
    change { t with run := none } = t
    rw [← runs t mem]
  | tail _ act ih =>
    obtain ⟨p, reached, rfl⟩ := ih
    obtain ⟨p', next, shown⟩ := exists_act_of_view (orderly_of_reached reached) act
    exact ⟨p', reached.tail next, shown⟩

end Settler.Supervisor.Pool
