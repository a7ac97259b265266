import Settler.Proofs.Journal.Exchange
import Settler.Proofs.Supervisor.Slots

/-!
What a tick does to the jobs.

A tick holds minutes against schedules, one by one. What comes of it is said of the state as it was
before the tick: the jobs whose schedules match one of the minutes are attempted, in the order of their
first matching minutes and then of the jobs (`attempts`), once each (`Fires`).
-/

namespace Settler.Supervisor

open Settler.Calendar

variable {ω δ : Type}

namespace Slot

/-- The job has a schedule that matches a minute. -/
def isDue (t : Slot ω) (c : Moment) : Bool := t.job.schedule.any (·.matchesMoment c)

/-- The first of some minutes in which the job is due. -/
def firstDue (minutes : List Moment) (t : Slot ω) : Option Moment := minutes.find? t.isDue

/-- A trigger of the job: it is skipped while the job has a live run, and else the job gets a new
run. -/
inductive Attempted (su : Setup δ) (t : Slot ω) : Slot ω → Prop where
  | skipped (running : t.isRunning) :
      Attempted su t { t with health.skippedTriggers := t.health.skippedTriggers + 1 }
  | started (idle : t.isRunning = false) (turn place : Nat) :
      Attempted su t
        { t with
          run := some (.live
            { phase := .created, budget := { limit := su.maxRestarts }, wake := .ready turn })
          place }

theorem Attempted.job {su : Setup δ} {t t' : Slot ω} (h : Attempted su t t') : t'.job = t.job := by
  cases h <;> rfl

theorem Attempted.nextRun {su : Setup δ} {t t' : Slot ω} (h : Attempted su t t') :
    t'.health.nextRun = t.health.nextRun := by
  cases h <;> rfl

end Slot

namespace State

/-- The jobs that are due for the first time in one of some minutes, in order. -/
def attemptsAt (minutes : List Moment) (s : State ω) (c : Moment) : List String :=
  (s.slots.filter fun t => t.firstDue minutes = some c).map (·.job.name)

/-- The jobs that are due in one of some minutes, those that are due earlier first. -/
def attempts (minutes : List Moment) (s : State ω) : List String :=
  minutes.flatMap (s.attemptsAt minutes)

/-- The reason that a tick gives for triggering a job. -/
def tickReason (s : State ω) (name : String) : String :=
  "schedule '" ++ ((s.slot? name).map (·.job.scheduleText)).getD "" ++ "'"

/-- What is noted when a tick triggers a job. -/
def attemptNote (s : State ω) (name : String) : Event :=
  .triggered name (s.tickReason name) (!s.isRunning name)

variable (su : Setup δ)

theorem fire_spec (reason : String) (s : State ω) (t : Slot ω) :
    ∃ t' turn, t.Attempted su t' ∧
      s.fire su reason t = (({ s with turn }.put t').record
        [.triggered t.job.name reason (!t.isRunning)], !t.isRunning) := by
  unfold fire
  split
  · next running => exact ⟨_, s.turn, .skipped running, by rw [running]; rfl⟩
  · next idle =>
    have idle : t.isRunning = false := by simpa using idle
    exact ⟨_, s.turn + 1, .started idle s.turn _, by rw [idle]; rfl⟩

/-! ### One job and one minute -/

/-- A tick under way from a state: the jobs that were seen were attempted once each, and nothing else
happened. -/
structure Fires (s : State ω) (f : Firing ω) : Prop where
  distinct : f.seen.Nodup
  fired : f.fired = f.seen.filter fun name => !s.isRunning name
  tried : ∀ name ∈ f.seen, ∃ t t', s.slot? name = some t ∧ t.Attempted su t' ∧
    f.state.slot? name = some t'
  others : ∀ name, name ∉ f.seen → f.state.slot? name = s.slot? name
  names : f.state.names = s.names
  journal : f.state.journal = s.journal.record s.now (f.seen.map s.attemptNote)
  now : f.state.now = s.now
  loop : f.state.loop = s.loop

/-- A job by its name is due in a minute. -/
def isDue (s : State ω) (c : Moment) (name : String) : Bool := (s.slot? name).any (·.isDue c)

variable {su}

theorem fires_refl (s : State ω) : Fires su s { state := s } where
  distinct := List.nodup_nil
  fired := rfl
  tried := by simp
  others := fun _ _ => rfl
  names := rfl
  journal := rfl
  now := rfl
  loop := rfl

namespace Fires

variable {s : State ω} {f : Firing ω}

/-- A job that was seen is not attempted again. -/
theorem consider_of_mem (c : Moment) {name : String} (seen : name ∈ f.seen) :
    consider su c f name = f := by
  unfold consider
  split
  · rfl
  · split
    · rfl
    · rw [if_pos (by simp [seen])]

/-- A job that is not due is not attempted. -/
theorem consider_of_not_due (h : Fires su s f) {c : Moment} {name : String} (new : name ∉ f.seen)
    (due : s.isDue c name = false) : consider su c f name = f := by
  unfold consider
  rw [h.others name new]
  unfold isDue at due
  split
  · rfl
  · next t found =>
    rw [found, Option.any_some, Slot.isDue] at due
    split
    · rfl
    · next schedule scheduled =>
      rw [scheduled, Option.any_some] at due
      rw [if_pos (by simp [due])]

/-- A job that is due, and was not seen, is attempted. -/
theorem consider_of_due (h : Fires su s f) {c : Moment} {name : String} (new : name ∉ f.seen)
    (due : s.isDue c name) :
    Fires su s (consider su c f name) ∧ (consider su c f name).seen = f.seen ++ [name] := by
  obtain ⟨t, found, due⟩ := (Option.any_eq_true _ _).mp due
  obtain ⟨schedule, scheduled, matched⟩ := (Option.any_eq_true _ _).mp due
  obtain ⟨t', turn, tried, fired⟩ :=
    fire_spec su ("schedule '" ++ schedule.expression ++ "'") f.state t
  have found' : f.state.slot? name = some t := (h.others name new).trans found
  have named := name_of_slot found
  have named' : t'.job.name = name := by rw [tried.job, named]
  have running : s.isRunning name = t.isRunning := by rw [isRunning, found, Option.any_some]
  have note : Event.triggered t.job.name ("schedule '" ++ schedule.expression ++ "'") (!t.isRunning)
      = s.attemptNote name := by
    rw [attemptNote, tickReason, running, found, named]
    simp [Job.scheduleText, scheduled]
  have considered : consider su c f name
      = ⟨({ f.state with turn }.put t').record [s.attemptNote name], f.seen ++ [name],
        if !t.isRunning then f.fired ++ [name] else f.fired⟩ := by
    unfold consider
    rw [found']
    dsimp only
    rw [scheduled]
    dsimp only
    rw [if_neg (by simp [new, matched]), fired, note]
  rw [considered]
  refine ⟨⟨?_, ?_, ?_, ?_, ?_, ?_, ?_, ?_⟩, rfl⟩
  · refine List.nodup_append.mpr ⟨h.distinct, List.nodup_singleton name, ?_⟩
    intro a ha b hb
    obtain rfl := List.mem_singleton.mp hb
    exact fun same => new (same ▸ ha)
  · rw [List.filter_append, ← h.fired, List.filter_singleton, running]
    cases t.isRunning <;> simp
  · intro n mem
    rcases List.mem_append.mp mem with old | last
    · obtain ⟨u, u', before, attempted, after⟩ := h.tried n old
      have other : t'.job.name ≠ n := by
        rintro rfl
        exact new (named' ▸ old)
      exact ⟨u, u', before, attempted, (slot_put_of_ne other).trans after⟩
    · obtain rfl := List.mem_singleton.mp last
      exact ⟨t, t', found, tried, slot_put_self found' named'⟩
  · intro n unseen
    rw [List.mem_append, List.mem_singleton, not_or] at unseen
    have other : t'.job.name ≠ n := fun same => unseen.2 (same.symm.trans named')
    exact (slot_put_of_ne other).trans (h.others n unseen.1)
  · exact (names_put _ t').trans h.names
  · rw [List.map_append, Journal.record_append, ← h.journal, ← h.now]
    rfl
  · exact h.now
  · exact h.loop

/-- A job that is due, and was not seen, is attempted; any other is not. -/
theorem consider (h : Fires su s f) (c : Moment) (name : String) :
    Fires su s (State.consider su c f name) ∧ (State.consider su c f name).seen
      = f.seen ++ [name].filter fun n => !f.seen.contains n && s.isDue c n := by
  by_cases seen : name ∈ f.seen
  · rw [consider_of_mem c seen]
    exact ⟨h, by simp [seen]⟩
  · cases due : s.isDue c name with
    | false =>
      rw [h.consider_of_not_due seen due]
      exact ⟨h, by simp [due]⟩
    | true =>
      obtain ⟨fires, considered⟩ := h.consider_of_due seen due
      exact ⟨fires, by rw [considered]; simp [seen, due]⟩

/-! ### All jobs and all minutes -/

/-- A minute is held against the schedules of all jobs. -/
theorem consider_foldl (h : Fires su s f) (c : Moment) {names : List String}
    (distinct : names.Nodup) :
    Fires su s (names.foldl (State.consider su c) f) ∧ (names.foldl (State.consider su c) f).seen
      = f.seen ++ names.filter fun n => !f.seen.contains n && s.isDue c n := by
  induction names generalizing f with
  | nil => exact ⟨h, by simp⟩
  | cons name rest ih =>
    obtain ⟨new, distinct⟩ := List.nodup_cons.mp distinct
    obtain ⟨fires, seen⟩ := h.consider c name
    obtain ⟨firesAll, seenAll⟩ := ih fires distinct
    -- the jobs after this one are seen now if they were seen before it
    have others : rest.filter (fun n => !(State.consider su c f name).seen.contains n && s.isDue c n)
        = rest.filter fun n => !f.seen.contains n && s.isDue c n := by
      refine List.filter_congr ?_
      intro n mem
      have other : n ≠ name := fun same => new (same ▸ mem)
      have same : (State.consider su c f name).seen.contains n = f.seen.contains n := by
        rw [Bool.eq_iff_iff, List.contains_iff_mem, List.contains_iff_mem, seen]
        simp [other]
      rw [same]
    refine ⟨firesAll, ?_⟩
    rw [List.foldl_cons, seenAll, others, seen, List.append_assoc, ← List.filter_append]
    rfl

end Fires

/-- Minutes are held against the schedules of all jobs, one after the other. -/
def hold (su : Setup δ) (minutes : List Moment) (f : Firing ω) : Firing ω :=
  minutes.foldl (fun f c => f.state.names.foldl (consider su c) f) f

/-- To pick names by their slots is to pick slots. -/
theorem filter_names {s : State ω} (distinct : s.names.Nodup) (p : Slot ω → Bool) :
    s.names.filter (fun name => (s.slot? name).any p) = (s.slots.filter p).map (·.job.name) := by
  rw [names, List.filter_map]
  refine congrArg (List.map _) (List.filter_congr ?_)
  intro t mem
  rw [Function.comp_apply, slot_of_mem distinct mem, Option.any_some]

theorem mem_attemptsAt {s : State ω} (distinct : s.names.Nodup) {name : String} {t : Slot ω}
    (found : s.slot? name = some t) (minutes : List Moment) (c : Moment) :
    name ∈ s.attemptsAt minutes c ↔ t.firstDue minutes = some c := by
  rw [attemptsAt, ← filter_names distinct, List.mem_filter, found, Option.any_some, decide_eq_true_eq]
  exact and_iff_right (mem_names_iff.mpr ⟨t, found⟩)

/-- The first of some minutes in which a job is due, as the minutes are gone through. -/
theorem firstDue_eq_some_iff {done rest : List Moment} {c : Moment}
    (distinct : (done ++ c :: rest).Nodup) (t : Slot ω) :
    t.firstDue (done ++ c :: rest) = some c ↔ (∀ b ∈ done, t.isDue b = false) ∧ t.isDue c := by
  have new : c ∉ done := fun mem =>
    (List.nodup_append.mp distinct).2.2 c mem c List.mem_cons_self rfl
  have last : c ∉ rest := (List.nodup_cons.mp (List.nodup_append.mp distinct).2.1).1
  unfold Slot.firstDue
  rw [List.find?_append]
  constructor
  · intro first
    cases early : done.find? t.isDue with
    | some b =>
      rw [early, Option.some_or, Option.some_inj] at first
      exact absurd (first ▸ List.mem_of_find?_eq_some early) new
    | none =>
      rw [early, Option.none_or, List.find?_cons] at first
      refine ⟨by simpa using early, ?_⟩
      cases due : t.isDue c with
      | true => rfl
      | false =>
        rw [due] at first
        exact absurd (List.mem_of_find?_eq_some first) last
  · rintro ⟨early, due⟩
    rw [List.find?_eq_none.mpr (by simpa using early), Option.none_or, List.find?_cons_of_pos due]

/-- What a minute adds to the jobs that were seen is what is due in it for the first time. -/
theorem filter_due_eq {s : State ω} (distinct : s.names.Nodup) {done rest : List Moment} {c : Moment}
    (minutes : (done ++ c :: rest).Nodup) {seen : List String}
    (before : seen = done.flatMap (s.attemptsAt (done ++ c :: rest))) :
    s.names.filter (fun name => !seen.contains name && s.isDue c name)
      = s.attemptsAt (done ++ c :: rest) c := by
  rw [attemptsAt, ← filter_names distinct]
  refine List.filter_congr ?_
  intro name mem
  obtain ⟨t, found⟩ := mem_names_iff.mp mem
  have old : name ∈ seen ↔ ∃ b ∈ done, t.isDue b := by
    rw [before, List.mem_flatMap]
    constructor
    · rintro ⟨b, old, mem⟩
      exact ⟨b, old, List.find?_some ((mem_attemptsAt distinct found _ b).mp mem)⟩
    · intro due
      obtain ⟨b, first⟩ := Option.isSome_iff_exists.mp (List.find?_isSome.mpr due)
      refine ⟨b, List.mem_of_find?_eq_some first, (mem_attemptsAt distinct found _ b).mpr ?_⟩
      rw [Slot.firstDue, List.find?_append, first, Option.some_or]
  rw [isDue, found, Option.any_some, Option.any_some, Bool.eq_iff_iff, decide_eq_true_eq,
    firstDue_eq_some_iff minutes, Bool.and_eq_true, Bool.not_eq_true', ← Bool.not_eq_true,
    List.contains_iff_mem, old]
  simp

/-- As minutes are held against the schedules, those jobs are attempted that are due in one. -/
theorem Fires.hold {s : State ω} (distinct : s.names.Nodup) {done rest : List Moment}
    (minutes : (done ++ rest).Nodup) {f : Firing ω} (h : Fires su s f)
    (seen : f.seen = done.flatMap (s.attemptsAt (done ++ rest))) :
    Fires su s (State.hold su rest f) ∧ (State.hold su rest f).seen = s.attempts (done ++ rest) := by
  induction rest generalizing done f with
  | nil => exact ⟨h, by rw [State.hold, List.foldl_nil, seen, attempts, List.append_nil]⟩
  | cons c rest ih =>
    have split : done ++ c :: rest = (done ++ [c]) ++ rest := by simp
    obtain ⟨fires, next⟩ := h.consider_foldl c distinct
    rw [filter_due_eq distinct minutes seen] at next
    rw [State.hold, List.foldl_cons, h.names, split]
    refine ih (split ▸ minutes) fires ?_
    rw [next, seen, ← split, List.flatMap_append, List.flatMap_singleton]

theorem fires_hold (su : Setup δ) {s : State ω} (distinct : s.names.Nodup) {minutes : List Moment}
    (each : minutes.Nodup) :
    Fires su s (hold su minutes { state := s }) ∧
      (hold su minutes { state := s }).seen = s.attempts minutes :=
  Fires.hold distinct (show ([] ++ minutes).Nodup from each) (fires_refl s) rfl

/-- The jobs that are attempted are those with a schedule that matches one of the minutes. -/
theorem mem_attempts {s : State ω} (distinct : s.names.Nodup) {minutes : List Moment} {name : String} :
    name ∈ s.attempts minutes ↔ ∃ t, s.slot? name = some t ∧ ∃ c ∈ minutes, t.isDue c := by
  rw [attempts, List.mem_flatMap]
  constructor
  · rintro ⟨c, listed, mem⟩
    obtain ⟨u, picked, rfl⟩ := List.mem_map.mp mem
    obtain ⟨memU, first⟩ := List.mem_filter.mp picked
    have first : u.firstDue minutes = some c := by simpa using first
    exact ⟨u, slot_of_mem distinct memU, c, listed, List.find?_some first⟩
  · rintro ⟨t, found, due⟩
    obtain ⟨c, first⟩ := Option.isSome_iff_exists.mp (List.find?_isSome.mpr due)
    exact ⟨c, List.mem_of_find?_eq_some first, (mem_attemptsAt distinct found minutes c).mpr first⟩

end State

end Settler.Supervisor
