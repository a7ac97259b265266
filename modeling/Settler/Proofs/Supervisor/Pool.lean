import Settler.Proofs.Supervisor.Scripts
import Settler.Proofs.Supervisor.Slots

/-!
The tasks of a supervisor, apart from the table that files them.

A `State` has room for one run of a job and for one schedule loop. Here every run and every loop is a
task of its own: a task stays in the pool whatever becomes of it, and the table says which task is on
file for whom. A trigger files a new task in place of the one before, a stop cancels the tasks that
are on file and empties the table, and any task that is live may make a move, on file or not. So a
task could be left alive where nobody finds it again, or two could be alive for one job.

That does not happen (`Orderly`): a live task is always on file for its owner.
-/

namespace Settler.Supervisor

open Settler.Calendar Relation

variable {ω δ : Type}

/-- How far a task has come. -/
inductive Progress (ω : Type) where
  /-- It supervises a job. -/
  | run (r : Run ω)
  /-- It is a schedule loop. -/
  | loop (l : Loop)
  | cancelled

/-- A task, and for whom it was created. -/
structure Task (ω : Type) where
  owner : Mover
  progress : Progress ω

namespace Task

/-- The task has not come to its end. -/
def isLive (k : Task ω) : Bool :=
  match k.progress with
  | .run (.live _) => true
  | .loop _ => true
  | _ => false

/-- The task has a worker at work. -/
def isAtWork (k : Task ω) : Bool :=
  match k.progress with
  | .run (.live l) => l.phase.isBusy
  | _ => false

/-- The task is of its owner's kind. -/
def fits (k : Task ω) : Bool :=
  match k.owner, k.progress with
  | .loop, .loop _ => true
  | .loop, _ => false
  | .job _, .loop _ => false
  | .job _, _ => true

/-- The task's run, if it supervises a job. -/
def run? (k : Task ω) : Option (Run ω) :=
  match k.progress with
  | .run r => some r
  | _ => none

/-- The schedule loop that the task is, if it is one. -/
def loop? (k : Task ω) : Option Loop :=
  match k.progress with
  | .loop l => some l
  | _ => none

/-- A task that supervises a job and has come as far as a run; without one it is at its end. -/
def ofRun (name : String) (run : Option (Run ω)) : Task ω where
  owner := .job name
  progress := (run.map Progress.run).getD .cancelled

@[simp]
theorem run?_ofRun (name : String) (run : Option (Run ω)) : (ofRun name run).run? = run := by
  cases run <;> rfl

theorem fits_ofRun (name : String) (run : Option (Run ω)) : (ofRun name run).fits := by
  cases run <;> rfl

/-- A task that was due by an instant is ready. -/
def arrive (turn : Mover → Nat → Nat) (now : Instant) (k : Task ω) : Task ω :=
  match k.progress with
  | .run (.live l) => { k with progress := .run (.live { l with wake := l.wake.arrive (turn k.owner) now }) }
  | .loop l => { k with progress := .loop { l with wake := l.wake.arrive (turn k.owner) now } }
  | _ => k

theorem arrive_owner (turn : Mover → Nat → Nat) (now : Instant) (k : Task ω) :
    (k.arrive turn now).owner = k.owner := by
  unfold arrive
  split <;> rfl

theorem arrive_isLive (turn : Mover → Nat → Nat) (now : Instant) (k : Task ω) :
    (k.arrive turn now).isLive = k.isLive := by
  obtain ⟨owner, progress⟩ := k
  cases progress with
  | run r => cases r <;> rfl
  | loop l => rfl
  | cancelled => rfl

theorem arrive_fits (turn : Mover → Nat → Nat) (now : Instant) (k : Task ω) :
    (k.arrive turn now).fits = k.fits := by
  obtain ⟨owner, progress⟩ := k
  cases owner <;> cases progress with
  | run r => cases r <;> rfl
  | loop l => rfl
  | cancelled => rfl

theorem loop_of_fits {k : Task ω} (fits : k.fits) (owner : k.owner = .loop) : k.loop?.isSome := by
  obtain ⟨o, progress⟩ := k
  cases owner
  cases progress with
  | run r => cases fits
  | loop l => rfl
  | cancelled => cases fits

theorem isLive_of_isAtWork {k : Task ω} (h : k.isAtWork) : k.isLive := by
  obtain ⟨owner, progress⟩ := k
  cases progress with
  | run r =>
    cases r with
    | live l => rfl
    | ended result => cases h
  | loop l => cases h
  | cancelled => cases h

end Task

/-- The tasks by number, in the order in which they were created; the table of the tasks that are on
file; and everything else, whose slots hold no runs that count. -/
structure Pool (ω : Type) where
  desk : State ω
  tasks : List (Task ω) := []
  filed : Mover → Option Nat := fun _ => none

namespace Pool

/-- The task that is on file for an owner. -/
def task? (p : Pool ω) (owner : Mover) : Option (Task ω) :=
  (p.filed owner).bind (p.tasks[·]?)

/-- A slot with the run that is on file for its job. -/
def fill (p : Pool ω) (t : Slot ω) : Slot ω :=
  { t with run := (p.task? (.job t.job.name)).bind Task.run? }

/-- The state that shows of a pool what is on file. -/
def view (p : Pool ω) : State ω :=
  { p.desk with
    slots := p.desk.slots.map p.fill
    loop := (p.task? .loop).bind Task.loop? }

/-- A new task is created and filed. -/
def file (p : Pool ω) (k : Task ω) (desk : State ω) : Pool ω where
  desk
  tasks := p.tasks ++ [k]
  filed owner := if owner = k.owner then some p.tasks.length else p.filed owner

/-- A task goes on. -/
def advance (p : Pool ω) (n : Nat) (k : Task ω) (desk : State ω) : Pool ω :=
  { p with desk, tasks := p.tasks.set n k }

/-- The clock comes to an instant, and every task that was due by then is ready. -/
def arrive (p : Pool ω) (turn : Mover → Nat → Nat) (now : Instant) : Pool ω :=
  { p with desk := { p.desk with now }, tasks := p.tasks.map (Task.arrive turn now) }

/-- Every task that is on file is cancelled, and the table is emptied. -/
def stop (p : Pool ω) : Pool ω where
  desk := { p.desk with slots := p.desk.slots.map fun t : Slot ω => { t with health.running := false }
    }.record ((p.view.stopOrder.flatMap State.abandonedNotes).map Event.note ++ [Event.stopped])
  tasks := p.tasks.mapIdx fun n k =>
    if p.filed k.owner = some n then { k with progress := .cancelled } else k

section

variable [Machine ω δ] [Seconds δ] (su : Setup δ)

/-- The task that a trigger creates for a job. -/
def created (p : Pool ω) (name : String) : Task ω :=
  ⟨.job name, .run (.live
    { phase := .created, budget := { limit := su.maxRestarts }, wake := .ready p.desk.turn })⟩

/-- The move of a task that supervises the job of a slot. -/
def moveTask (p : Pool ω) (n present : Nat) (t : Slot ω) (l : Live ω) : Pool ω :=
  let r := { t with run := some (.live l) }.move su
    ⟨p.desk.now, present, p.desk.turn, p.desk.journal.outbound⟩ l
  p.advance n (.ofRun t.job.name r.1.run)
    (({ p.desk with turn := p.desk.turn + 1 }.put r.1).record r.2)

/-- One act in a pool. -/
inductive Act : Pool ω → Pool ω → Prop where
  /-- A live task that supervises a job makes its next move, on file or not. -/
  | move {p : Pool ω} {n : Nat} {name : String} {t : Slot ω} {l : Live ω} (present : Nat)
      (task : p.tasks[n]? = some ⟨.job name, .run (.live l)⟩) (found : p.desk.slot? name = some t) :
      Act p (p.moveTask su n present t l)
  /-- A live schedule loop goes on to wait, on file or not. -/
  | turnLoop {p : Pool ω} {n : Nat} {l : Loop} (task : p.tasks[n]? = some ⟨.loop, .loop l⟩) :
      Act p (p.advance n
        ⟨.loop, .loop ⟨true, .afterPause p.desk.now p.desk.turn su.tickDelay⟩⟩
        { p.desk with turn := p.desk.turn + 1 })
  /-- A trigger whose job has no live task on file creates a new one. -/
  | fire {p : Pool ω} {name : String} {t : Slot ω} (reason : String)
      (found : p.desk.slot? name = some t)
      (idle : ∀ k, p.task? (.job name) = some k → k.isLive = false) :
      Act p (p.file (p.created su name)
        (({ p.desk with turn := p.desk.turn + 1 }.put
          { t with place := if (p.fill t).run.isSome then t.place else p.desk.turn }).record
            [.triggered t.job.name reason true]))
  /-- A trigger whose job has a live task on file is skipped. -/
  | skip {p : Pool ω} {name : String} {t : Slot ω} {k : Task ω} (reason : String)
      (found : p.desk.slot? name = some t) (filed : p.task? (.job name) = some k) (live : k.isLive) :
      Act p { p with
        desk := (p.desk.put { t with health.skippedTriggers := t.health.skippedTriggers + 1 }).record
          [.triggered t.job.name reason false] }
  /-- A start creates a schedule loop if none is on file. -/
  | openLoop {p : Pool ω} (closed : p.filed .loop = none) :
      Act p (p.file ⟨.loop, .loop ⟨false, .ready p.desk.turn⟩⟩ { p.desk with turn := p.desk.turn + 1 })
  /-- The next runs of the jobs are looked up. -/
  | refresh {p : Pool ω} (after : Moment) : Act p { p with desk := (p.desk.refresh after).1 }
  /-- The minute of the last tick is kept. -/
  | mark {p : Pool ω} (own : Moment) : Act p { p with desk := { p.desk with lastTick := some own } }
  | arrive {p : Pool ω} (turn : Mover → Nat → Nat) (now : Instant) : Act p (p.arrive turn now)
  /-- The clock goes on, and nobody was due. -/
  | elapse {p : Pool ω} (now : Instant) : Act p { p with desk := { p.desk with now } }
  /-- Something is noted. -/
  | note {p : Pool ω} (events : List Event) : Act p { p with desk := p.desk.record events }
  | stop {p : Pool ω} : Act p p.stop

/-- The pools that a supervisor comes to, whoever moves when. -/
def Reached (st : State ω) : Pool ω → Prop := ReflTransGen (Act su) { desk := st }

end

/-! ### The table -/

/-- The table is right: what is on file for an owner is its own, and a live task is on file. -/
structure Orderly (p : Pool ω) : Prop where
  owned : ∀ owner n, p.filed owner = some n → ∃ k, p.tasks[n]? = some k ∧ k.owner = owner ∧ k.fits
  onFile : ∀ n k, p.tasks[n]? = some k → k.isLive → p.filed k.owner = some n

namespace Orderly

variable {p : Pool ω}

theorem fresh (st : State ω) : ({ desk := st } : Pool ω).Orderly where
  owned := by
    intro owner n h
    cases h
  onFile := by
    intro n k h
    cases h

/-- The desk does not matter. -/
theorem desk (h : p.Orderly) (d : State ω) : { p with desk := d }.Orderly := ⟨h.owned, h.onFile⟩

theorem exists_of_task (h : p.Orderly) {owner : Mover} {k : Task ω}
    (task : p.task? owner = some k) :
    ∃ n, p.filed owner = some n ∧ p.tasks[n]? = some k ∧ k.owner = owner ∧ k.fits := by
  obtain ⟨n, filed, found⟩ := Option.bind_eq_some_iff.mp task
  obtain ⟨k', found', owned, fits⟩ := h.owned owner n filed
  rw [found] at found'
  cases found'
  exact ⟨n, filed, found, owned, fits⟩

/-- A live task is the one that its owner has on file. -/
theorem task_of_live (h : p.Orderly) {n : Nat} {k : Task ω} (found : p.tasks[n]? = some k)
    (live : k.isLive) : p.task? k.owner = some k := by
  rw [task?, h.onFile n k found live]
  exact found

/-- A new task takes the place of one that has come to its end. -/
theorem file (h : p.Orderly) {k : Task ω} (fits : k.fits)
    (idle : ∀ k', p.task? k.owner = some k' → k'.isLive = false) (d : State ω) :
    (p.file k d).Orderly where
  owned := by
    intro owner n filed
    simp only [Pool.file] at filed ⊢
    split at filed
    · next same =>
      cases filed
      exact ⟨k, by simp, same.symm, fits⟩
    · obtain ⟨k', found, owned⟩ := h.owned owner n filed
      have inside : n < p.tasks.length := (List.getElem?_eq_some_iff.mp found).1
      exact ⟨k', by rw [List.getElem?_append_left inside, found], owned⟩
  onFile := by
    intro n k' found live
    simp only [Pool.file] at found ⊢
    rcases Nat.lt_or_ge n p.tasks.length with inside | beyond
    · rw [List.getElem?_append_left inside] at found
      rw [if_neg, h.onFile n k' found live]
      intro same
      rw [idle k' (same ▸ h.task_of_live found live)] at live
      cases live
    · rw [List.getElem?_append_right beyond] at found
      obtain ⟨first, rfl⟩ : n - p.tasks.length = 0 ∧ k = k' := by
        simpa [List.getElem?_singleton] using found
      rw [if_pos rfl]
      congr 1
      omega

/-- A live task goes on, or comes to its end. -/
theorem advance (h : p.Orderly) {n : Nat} {k k' : Task ω} (found : p.tasks[n]? = some k)
    (live : k.isLive) (fits : k'.fits) (owner : k'.owner = k.owner) (d : State ω) :
    (p.advance n k' d).Orderly where
  owned := by
    intro o m filed
    obtain ⟨k₁, found₁, owned⟩ := h.owned o m filed
    simp only [Pool.advance, List.getElem?_set]
    split
    · next same =>
      subst same
      rw [found] at found₁
      cases found₁
      rw [if_pos (List.getElem?_eq_some_iff.mp found).1]
      exact ⟨k', rfl, owner.trans owned.1, fits⟩
    · exact ⟨k₁, found₁, owned⟩
  onFile := by
    intro m k₁ found₁ live₁
    simp only [Pool.advance, List.getElem?_set] at found₁ ⊢
    split at found₁
    · next same =>
      subst same
      rw [if_pos (List.getElem?_eq_some_iff.mp found).1] at found₁
      cases found₁
      rw [owner]
      exact h.onFile n k found live
    · exact h.onFile m k₁ found₁ live₁

theorem arrive (h : p.Orderly) (turn : Mover → Nat → Nat) (now : Instant) :
    (p.arrive turn now).Orderly where
  owned := by
    intro o n filed
    obtain ⟨k, found, owned, fits⟩ := h.owned o n filed
    refine ⟨k.arrive turn now, by simp [Pool.arrive, found], ?_⟩
    rw [Task.arrive_owner, Task.arrive_fits]
    exact ⟨owned, fits⟩
  onFile := by
    intro n k found live
    obtain ⟨k₁, found₁, rfl⟩ : ∃ k₁, p.tasks[n]? = some k₁ ∧ k₁.arrive turn now = k := by
      simpa [Pool.arrive] using found
    rw [Task.arrive_isLive] at live
    rw [Task.arrive_owner]
    exact h.onFile n k₁ found₁ live

/-- A stop reaches every live task, as all of them are on file. -/
theorem not_live_stop (h : p.Orderly) {n : Nat} {k : Task ω} (found : p.stop.tasks[n]? = some k) :
    k.isLive = false := by
  obtain ⟨k₁, found₁, rfl⟩ : ∃ k₁, p.tasks[n]? = some k₁ ∧
      (if p.filed k₁.owner = some n then { k₁ with progress := .cancelled } else k₁) = k := by
    simpa [Pool.stop] using found
  split
  · rfl
  · next unfiled =>
    by_contra live
    exact unfiled (h.onFile n k₁ found₁ (by simpa using live))

theorem stop (h : p.Orderly) : p.stop.Orderly where
  owned := by
    intro o n filed
    cases filed
  onFile := by
    intro n k found live
    rw [h.not_live_stop found] at live
    cases live

variable [Machine ω δ] [Seconds δ] (su : Setup δ)

/-- Every act keeps the table right. -/
theorem act (h : p.Orderly) {p' : Pool ω} (act : Act su p p') : p'.Orderly := by
  cases act with
  | move present task found =>
    refine h.advance task rfl ?_ ?_ _
    · exact Task.fits_ofRun _ _
    · exact congrArg Mover.job (State.name_of_slot found)
  | turnLoop task =>
    refine h.advance task rfl ?_ ?_ _ <;> rfl
  | fire reason found idle => exact h.file rfl idle _
  | skip reason found filed live => exact h.desk _
  | openLoop closed =>
    refine h.file rfl ?_ _
    intro k task
    rw [task?, closed] at task
    cases task
  | refresh after => exact h.desk _
  | mark own => exact h.desk _
  | arrive turn now => exact h.arrive turn now
  | elapse now => exact h.desk _
  | note events => exact h.desk _
  | stop => exact h.stop

end Orderly

theorem orderly_of_reached [Machine ω δ] [Seconds δ] {su : Setup δ} {st : State ω} {p : Pool ω}
    (h : Reached su st p) : p.Orderly := by
  induction h with
  | refl => exact .fresh st
  | tail _ act ih => exact ih.act su act

/-! ### The jobs that tasks are for -/

section

variable [Machine ω δ] [Seconds δ] {su : Setup δ}

theorem names_act {p p' : Pool ω} (act : Act su p p') : p'.desk.names = p.desk.names := by
  cases act with
  | move present task found => exact State.names_put _ _
  | fire reason found idle => exact State.names_put _ _
  | skip reason found filed live => exact State.names_put _ _
  | refresh after =>
    have jobs := congrArg (List.map Job.name) (State.jobs_refreshSlots after p.desk.slots)
    rwa [List.map_map, List.map_map] at jobs
  | stop => exact List.map_map
  | turnLoop task => rfl
  | openLoop closed => rfl
  | mark own => rfl
  | arrive turn now => rfl
  | elapse now => rfl
  | note events => rfl

/-- Whoever a new task is for was for a task before, or is triggered, or is the schedule loop. -/
theorem owners_act {p p' : Pool ω} (act : Act su p p') {k : Task ω} (mem : k ∈ p'.tasks) :
    k.owner = .loop ∨ (∃ k₁ ∈ p.tasks, k₁.owner = k.owner) ∨
      ∃ name ∈ p.desk.names, k.owner = .job name := by
  cases act with
  | @move n name t l present task found =>
    rcases List.mem_or_eq_of_mem_set mem with old | rfl
    · exact .inr (.inl ⟨k, old, rfl⟩)
    · exact .inr (.inr ⟨_, State.mem_names_iff.mpr ⟨t, (State.name_of_slot found).symm ▸ found⟩, rfl⟩)
  | turnLoop task =>
    rcases List.mem_or_eq_of_mem_set mem with old | rfl
    · exact .inr (.inl ⟨k, old, rfl⟩)
    · exact .inl rfl
  | fire reason found idle =>
    rcases List.mem_append.mp mem with old | new
    · exact .inr (.inl ⟨k, old, rfl⟩)
    · obtain rfl := List.mem_singleton.mp new
      exact .inr (.inr ⟨_, State.mem_names_iff.mpr ⟨_, found⟩, rfl⟩)
  | openLoop closed =>
    rcases List.mem_append.mp mem with old | new
    · exact .inr (.inl ⟨k, old, rfl⟩)
    · obtain rfl := List.mem_singleton.mp new
      exact .inl rfl
  | arrive turn now =>
    obtain ⟨k₁, old, rfl⟩ := List.mem_map.mp mem
    exact .inr (.inl ⟨k₁, old, (Task.arrive_owner turn now k₁).symm⟩)
  | stop =>
    obtain ⟨n, bound, rfl⟩ := List.mem_mapIdx.mp mem
    refine .inr (.inl ⟨p.tasks[n], List.getElem_mem bound, ?_⟩)
    split <;> rfl
  | skip reason found filed live => exact .inr (.inl ⟨k, mem, rfl⟩)
  | refresh after => exact .inr (.inl ⟨k, mem, rfl⟩)
  | mark own => exact .inr (.inl ⟨k, mem, rfl⟩)
  | elapse now => exact .inr (.inl ⟨k, mem, rfl⟩)
  | note events => exact .inr (.inl ⟨k, mem, rfl⟩)

/-- A task that supervises a job supervises one that there is. -/
theorem mem_names_of_reached {st : State ω} {p : Pool ω} (h : Reached su st p) {k : Task ω}
    (mem : k ∈ p.tasks) {name : String} (owner : k.owner = .job name) : name ∈ p.desk.names := by
  induction h generalizing k with
  | refl => cases mem
  | tail _ act ih =>
    rw [names_act act]
    rcases owners_act act mem with loop | ⟨k₁, old, same⟩ | ⟨n, listed, job⟩
    · rw [loop] at owner
      cases owner
    · exact ih old (same.trans owner)
    · rw [job] at owner
      cases owner
      exact listed

end

end Pool

end Settler.Supervisor
