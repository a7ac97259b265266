import Settler.Proofs.Journal.Counters
import Settler.Proofs.Supervisor.Endings
import Settler.Proofs.Supervisor.Scripts
import Settler.Proofs.Supervisor.Ticking

/-!
Accounts of runs, and what an act does to one job.

The journal tells of every run when it was asked for, when its instances began and how they ended
(`Account`). An act moves a slot, gives it a new run, stops it, lets it wait, or leaves its run alone, and
the journal says no more of the job than that (`State.traced_act`).
-/

namespace Settler

/-- What the journal tells of a job since a trigger was accepted: when that was, when instances began and
ended, in order, and how often the run was given up. -/
structure Account where
  since : Instant
  starts : List Instant := []
  ends : List (Instant × Exit) := []
  gaveUps : Nat := 0
  deriving DecidableEq, Repr

/-- The account after a mark; an accepted trigger opens a new one. -/
def Account.note (a : Option Account) (m : Instant × Mark) : Option Account :=
  match m.2 with
  | .fired => some { since := m.1 }
  | .began => a.map fun a => { a with starts := a.starts ++ [m.1] }
  | .ended e => a.map fun a => { a with ends := a.ends ++ [(m.1, e)] }
  | .gaveUp => a.map fun a => { a with gaveUps := a.gaveUps + 1 }

/-- The mark that an event leaves for a job. -/
def Event.markOf? (job : String) (e : Event) : Option Mark :=
  e.mark?.bind fun m => if m.1 = job then some m.2 else none

/-- The marks of a job, the oldest first. -/
def Journal.marks (j : Journal) (job : String) : List (Instant × Mark) :=
  j.reverse.filterMap fun e => (e.event.markOf? job).map (e.time, ·)

theorem Journal.marks_record (j : Journal) (time : Instant) (events : List Event) (job : String) :
    (j.record time events).marks job
      = j.marks job ++ (events.filterMap (Event.markOf? job)).map (time, ·) := by
  unfold marks record
  rw [List.reverse_append, List.reverse_reverse, List.filterMap_append, List.filterMap_map,
    List.map_filterMap]
  rfl

/-- The entries since the last trigger of a job that was accepted. -/
def Journal.lastRun (j : Journal) (job : String) : Journal :=
  j.takeWhile fun e => e.event.markOf? job != some .fired

/-- An event adds to the runs that were given up if its mark says so. -/
theorem History.gaveUps_add (job : String) (h : History) (e : Event) :
    (h.add job e).gaveUps = h.gaveUps + if e.markOf? job = some .gaveUp then 1 else 0 := by
  cases e with
  | triggered name reason accepted =>
    cases accepted <;> by_cases own : name = job <;> simp [add, Event.markOf?, Event.mark?, own]
  | began i => by_cases own : i.job = job <;> simp [add, Event.markOf?, Event.mark?, own]
  | ended i e => by_cases own : i.job = job <;> simp [add, Event.markOf?, Event.mark?, own]
  | gaveUp name limit window => by_cases own : name = job <;> simp [add, Event.markOf?, Event.mark?, own]
  | _ => rfl

/-- And so does the mark in the account of the run. -/
theorem Account.gaveUps_note {m : Mark} (running : m ≠ .fired) (time : Instant) (a : Account) :
    ∃ a', Account.note (some a) (time, m) = some a' ∧
      a'.gaveUps = a.gaveUps + if m = .gaveUp then 1 else 0 := by
  cases m with
  | fired => exact absurd rfl running
  | began => exact ⟨_, rfl, rfl⟩
  | ended e => exact ⟨_, rfl, rfl⟩
  | gaveUp => exact ⟨_, rfl, rfl⟩

/-- The account of the last run has it given up as often as the history of that run. -/
theorem Journal.gaveUps_lastRun {j : Journal} {job : String} {a : Account}
    (opened : (j.marks job).foldl Account.note none = some a) :
    ((j.lastRun job).history job).gaveUps = a.gaveUps := by
  induction j generalizing a with
  | nil => cases opened
  | cons x rest ih =>
    have marks : Journal.marks (x :: rest) job
        = Journal.marks rest job ++ ([x.event].filterMap (Event.markOf? job)).map (x.time, ·) :=
      Journal.marks_record rest x.time [x.event] job
    rw [marks, List.foldl_append] at opened
    by_cases fired : x.event.markOf? job = some .fired
    · rw [List.filterMap_cons_some fired] at opened
      cases opened
      rw [lastRun, List.takeWhile_cons_of_neg (by simp [fired])]
      rfl
    · rw [lastRun, List.takeWhile_cons_of_pos (by simp [fired])]
      show ((Journal.history (Journal.lastRun rest job) job).add job x.event).gaveUps = a.gaveUps
      rw [History.gaveUps_add]
      cases mark : x.event.markOf? job with
      | none =>
        rw [List.filterMap_cons_none mark] at opened
        rw [ih opened, if_neg nofun, Nat.add_zero]
      | some m =>
        have running : m ≠ .fired := fun same => fired (same ▸ mark)
        rw [List.filterMap_cons_some mark] at opened
        cases before : (Journal.marks rest job).foldl Account.note none with
        | none =>
          rw [before] at opened
          cases m <;> first | exact absurd rfl running | cases opened
        | some b =>
          obtain ⟨a', noted, gaveUps⟩ := Account.gaveUps_note running x.time b
          rw [before] at opened
          obtain rfl : a' = a := Option.some.inj (noted.symm.trans opened)
          rw [ih before, gaveUps]
          simp only [Option.some.injEq]

namespace Supervisor

open Calendar

variable {ω δ : Type}

namespace Slot.Leaves

variable {name : String} {events : List Event} {marks : List Mark}

theorem marksOf (h : Leaves name events marks) (job : String) :
    events.filterMap (Event.markOf? job) = if name = job then marks else [] := by
  have both : events.filterMap (Event.markOf? job)
      = (events.filterMap Event.mark?).filterMap fun m => if m.1 = job then some m.2 else none :=
    List.filterMap_filterMap.symm
  rw [both, h, List.filterMap_map]
  split
  · next same =>
    subst same
    simp
  · next other => simp [other]

theorem marks_self (h : Leaves name events marks) (j : Journal) (time : Instant) :
    (j.record time events).marks name = j.marks name ++ marks.map (time, ·) := by
  rw [j.marks_record, h.marksOf, if_pos rfl]

theorem marks_of_ne (h : Leaves name events marks) (j : Journal) (time : Instant) {job : String}
    (other : name ≠ job) : (j.record time events).marks job = j.marks job := by
  rw [j.marks_record, h.marksOf, if_neg other, List.map_nil, List.append_nil]

end Slot.Leaves

theorem Slot.live_iff {t : Slot ω} {l : Live ω} : t.live? = some l ↔ t.run = some (.live l) := by
  unfold live?
  split
  · next k run => simp [run]
  · next other => exact iff_of_false (by simp) (other l)

/-- Events that count for no job. -/
theorem marks_of_silent (j : Journal) (time : Instant) {events : List Event}
    (silent : events.filterMap Event.mark? = []) (job : String) :
    (j.record time events).marks job = j.marks job := by
  have leaves : Slot.Leaves job events [] := silent
  rw [leaves.marks_self, List.map_nil, List.append_nil]

namespace State

/-- The account of a job's last run. -/
def account? (s : State ω) (job : String) : Option Account :=
  (s.journal.marks job).foldl Account.note none

/-! ### One job in an act -/

/-- The look-up of the next runs changes nothing else of a slot. -/
theorem slot_refresh (after : Moment) {s : State ω} {name : String} {t : Slot ω}
    (found : s.slot? name = some t) :
    ∃ nextRun, (s.refresh after).1.slot? name = some { t with health.nextRun := nextRun } := by
  have each : ∀ u u' : Slot ω, refreshSlot after u = .ok u' → ∃ m, u' = { u with health.nextRun := m } := by
    intro u u' h
    unfold refreshSlot at h
    split at h
    · cases h
      exact ⟨_, rfl⟩
    · next schedule _ =>
      cases searched : schedule.nextAfter after with
      | error f =>
        rw [searched] at h
        cases h
      | ok m =>
        rw [searched] at h
        cases h
        exact ⟨m, rfl⟩
  have all : ∀ slots : List (Slot ω), slots.find? (·.job.name == name) = some t →
      ∃ m, (refreshSlots after slots).1.find? (·.job.name == name)
        = some { t with health.nextRun := m } := by
    intro slots
    induction slots with
    | nil =>
      intro h
      cases h
    | cons u rest ih =>
      intro h
      rw [refreshSlots]
      split
      · exact ⟨t.health.nextRun, h⟩
      · next u' ok =>
        obtain ⟨m, rfl⟩ := each u u' ok
        rw [List.find?_cons] at h ⊢
        dsimp only at h ⊢
        cases named : u.job.name == name with
        | true =>
          rw [named] at h
          cases h
          exact ⟨m, rfl⟩
        | false =>
          rw [named] at h
          exact ih h
  exact all s.slots found

variable [Machine ω δ] [Seconds δ] (su : Setup δ)

/-- What an act does to one slot, and the marks of that. -/
inductive Sight (s s' : State ω) (t : Slot ω) : Slot ω → List Mark → Prop where
  /-- Its live run makes its next move. -/
  | moved {l : Live ω} {present : Nat} {t' : Slot ω} {marks : List Mark} (live : t.live? = some l)
      (ready : l.wake.turn? = some present)
      (moved : t.Moved su ⟨s.now, present, s.turn, s.journal.outbound⟩ l t' marks)
      (now : s'.now = s.now) : Sight s s' t t' marks
  /-- It gets a new run. -/
  | fired {t' : Slot ω} {turn : Nat} (idle : t.isRunning = false)
      (run : t'.run = some (.live
        { phase := .created, budget := { limit := su.maxRestarts }, wake := .ready turn }))
      (exit : t'.health.lastExit = t.health.lastExit) (error : t'.health.lastError = t.health.lastError)
      (now : s'.now = s.now) : Sight s s' t t' [.fired]
  /-- Its run is left alone. -/
  | left {t' : Slot ω} (run : t'.run = t.run) (exit : t'.health.lastExit = t.health.lastExit)
      (error : t'.health.lastError = t.health.lastError) (now : s'.now = s.now) : Sight s s' t t' []
  /-- Time passes while it is not ready, and no longer than it waits. -/
  | waited {t' : Slot ω} (idle : ∀ l, t.live? = some l → l.wake.turn? = none) (later : s.now ≤ s'.now)
      (near : ∀ l time turn, t.live? = some l → l.wake = .due time turn → s'.now ≤ max s.now time)
      (arrived : (∃ turns, t' = arriveSlot turns s'.now t) ∨ t' = t) : Sight s s' t t' []
  /-- It is stopped. -/
  | stopped {t' : Slot ω} (run : t'.run = none) (exit : t'.health.lastExit = t.health.lastExit)
      (error : t'.health.lastError = t.health.lastError) (now : s'.now = s.now) : Sight s s' t t' []

/-! ### Who is ready, and what is waited for -/

theorem mem_of_first {l : List (Nat × Mover)} {m : Nat × Mover} (h : first? l = some m) : m ∈ l := by
  induction l generalizing m with
  | nil => cases h
  | cons n rest ih =>
    rw [first?] at h
    split at h
    · cases h
      exact List.mem_cons_self
    · next k found =>
      obtain rfl := Option.some.inj h
      split
      · exact List.mem_cons_of_mem _ (ih found)
      · exact List.mem_cons_self

theorem eq_nil_of_first {l : List (Nat × Mover)} (h : first? l = none) : l = [] := by
  cases l with
  | nil => rfl
  | cons n rest =>
    rw [first?] at h
    split at h <;> cases h

/-- A job that is among those that are ready. -/
theorem ready_of_mem {s : State ω} (distinct : s.names.Nodup) {name : String} {present : Nat}
    (mem : (present, Mover.job name) ∈ s.ready) {t : Slot ω} (found : s.slot? name = some t)
    {l : Live ω} (live : t.live? = some l) : l.wake.turn? = some present := by
  unfold ready at mem
  rcases List.mem_append.mp mem with mem | mem
  · obtain ⟨n, -, other⟩ := List.mem_map.mp mem
    cases other
  · obtain ⟨u, memU, readyU⟩ := List.mem_filterMap.mp mem
    obtain ⟨n, turn, named⟩ := Option.map_eq_some_iff.mp readyU
    cases named
    have same : u = t := Option.some.inj ((slot_of_mem distinct memU).symm.trans found)
    rw [same, live, Option.bind_some] at turn
    exact turn

/-- While nobody is ready, no run is. -/
theorem not_ready {s : State ω} (idle : first? s.ready = none) {t : Slot ω} (mem : t ∈ s.slots)
    {l : Live ω} (live : t.live? = some l) : l.wake.turn? = none := by
  have none_ready := eq_nil_of_first idle
  unfold ready at none_ready
  have each := List.filterMap_eq_nil_iff.mp (List.append_eq_nil_iff.mp none_ready).2 t mem
  rwa [live, Option.bind_some, Option.map_eq_none_iff] at each

theorem mem_times {s : State ω} {t : Slot ω} (mem : t ∈ s.slots) {l : Live ω}
    (live : t.live? = some l) {time : Instant} {turn : Nat} (due : l.wake = .due time turn) :
    time ∈ s.times := by
  unfold times
  refine List.mem_append_right _ (List.mem_filterMap.mpr ⟨t, mem, ?_⟩)
  rw [live, Option.bind_some, due]
  rfl

/-! ### Acts -/

variable {su} {s s' : State ω} {name : String} {t : Slot ω}

/-- The slot of a job after an act, and the marks that the act left for the job. -/
def Traced (su : Setup δ) (s s' : State ω) (name : String) (t : Slot ω) : Prop :=
  ∃ t' ms, s'.slot? name = some t' ∧ t'.job = t.job ∧
    s'.journal.marks name = s.journal.marks name ++ ms.map (s.now, ·) ∧ Sight su s s' t t' ms

/-- An act that says nothing of the job. -/
theorem traced_silent {t' : Slot ω} (found' : s'.slot? name = some t') (job : t'.job = t.job)
    (journal : s'.journal.marks name = s.journal.marks name) (sight : Sight su s s' t t' []) :
    Traced su s s' name t :=
  ⟨t', [], found', job, by rw [journal, List.map_nil, List.append_nil], sight⟩

/-- A slot is put, and events of its job are recorded. -/
theorem traced_put (found : s.slot? name = some t) {t₀ : Slot ω} {name₀ : String}
    (found₀ : s.slot? name₀ = some t₀) (turn : Nat) (t₁ : Slot ω) (job : t₁.job = t₀.job)
    {events : List Event} {marks : List Mark} (left : Slot.Leaves name₀ events marks)
    (sight : Sight su s (({ s with turn }.put t₁).record events) t₀ t₁ marks) :
    Traced su s (({ s with turn }.put t₁).record events) name t := by
  have named₀ := name_of_slot found₀
  by_cases same : name₀ = name
  · subst same
    obtain rfl := Option.some.inj (found₀.symm.trans found)
    refine ⟨t₁, marks, ?_, job, left.marks_self _ _, sight⟩
    exact slot_put_self (s := { s with turn }) found (by rw [job, named₀])
  · have found' : (({ s with turn }.put t₁).record events).slot? name = some t :=
      (slot_put_of_ne (by rwa [job, named₀])).trans found
    exact traced_silent found' rfl (left.marks_of_ne _ _ same) (.left rfl rfl rfl rfl)

theorem traced_deed (found : s.slot? name = some t) (deed : Deed su s s') :
    Traced su s s' name t := by
  cases deed with
  | @fire name₀ t₀ reason found₀ =>
    obtain ⟨t₁, turn, attempted, fired⟩ := fire_spec su reason s t₀
    rw [fired]
    dsimp only
    have named₀ := name_of_slot found₀
    cases attempted with
    | skipped running =>
      have left : Slot.Leaves name₀ [.triggered t₀.job.name reason (!t₀.isRunning)] [] := by
        rw [running]
        rfl
      refine traced_put found found₀ _ _ (by rfl) left ?_
      exact .left rfl rfl rfl rfl
    | started idle turn place =>
      have left : Slot.Leaves name₀ [.triggered t₀.job.name reason (!t₀.isRunning)] [.fired] := by
        rw [idle, named₀]
        rfl
      refine traced_put found found₀ _ _ (by rfl) left ?_
      exact .fired idle rfl rfl rfl rfl
  | refresh after =>
    obtain ⟨nextRun, found'⟩ := slot_refresh after found
    exact traced_silent found' rfl rfl (.left rfl rfl rfl rfl)
  | mark own => exact traced_silent found rfl rfl (.left rfl rfl rfl rfl)

theorem traced_motion (distinct : s.names.Nodup) (found : s.slot? name = some t)
    (motion : Motion su s s') : Traced su s s' name t := by
  have mem := mem_of_slot found
  cases motion with
  | @move name₀ t₀ l present first found₀ live =>
    obtain ⟨marks, left, moved⟩ := Slot.moved_move su ⟨s.now, present, s.turn, s.journal.outbound⟩ t₀ l
    have own := Slot.own_move su ⟨s.now, present, s.turn, s.journal.outbound⟩ t₀ l
    rw [name_of_slot found₀] at left
    refine traced_put found found₀ _ _ own.job left ?_
    exact .moved live (ready_of_mem distinct (mem_of_first first) found₀ live) moved rfl
  | @arrive time idle least =>
    let turns := su.ties.turn (max s.now time) s.turn
    have job := (Slot.alike_arrive turns (max s.now time) t).job
    have found' := slot_map s (fun t => (Slot.alike_arrive turns (max s.now time) t).job) name
    rw [found] at found'
    refine traced_silent found' job rfl ?_
    refine .waited (fun l live => not_ready idle mem live) (Nat.le_max_left _ _) ?_ (.inl ⟨turns, rfl⟩)
    intro l due turn live waits
    have le := (List.min?_eq_some_iff.mp least).2 due (mem_times mem live waits)
    exact Nat.max_le.mpr ⟨Nat.le_max_left _ _, Nat.le_trans le (Nat.le_max_right _ _)⟩
  | @elapse limit idle early =>
    refine traced_silent found rfl rfl ?_
    refine .waited (fun l live => not_ready idle mem live) (Nat.le_max_left _ _) ?_ (.inr rfl)
    intro l due turn live waits
    have le := Nat.le_of_lt (early due (mem_times mem live waits))
    exact Nat.max_le.mpr ⟨Nat.le_max_left _ _, Nat.le_trans le (Nat.le_max_right _ _)⟩

/-- What an act does to one slot is one of few things, and leaves no marks for the job but those of
it. -/
theorem traced_act (distinct : s.names.Nodup) (found : s.slot? name = some t) (act : Act su s s') :
    Traced su s s' name t := by
  cases act with
  | deed deed => exact traced_deed found deed
  | motion motion => exact traced_motion distinct found motion
  | openLoop closed => exact traced_silent found rfl rfl (.left rfl rfl rfl rfl)
  | turnLoop live => exact traced_silent found rfl rfl (.left rfl rfl rfl rfl)
  | noteTick => exact traced_silent found rfl (marks_of_silent _ _ rfl _) (.left rfl rfl rfl rfl)
  | noteStart => exact traced_silent found rfl (marks_of_silent _ _ rfl _) (.left rfl rfl rfl rfl)
  | stop =>
    have found' := slot_map s (fun t => (Slot.alike_stopped t).job) name
    rw [found] at found'
    refine traced_silent found' (Slot.alike_stopped t).job (marks_of_silent _ _ ?_ _)
      (.stopped rfl rfl rfl rfl)
    rw [List.filterMap_append, Event.mark_notes]
    rfl

end State

end Supervisor

end Settler
