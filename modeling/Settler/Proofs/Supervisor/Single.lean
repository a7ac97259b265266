import Settler.Proofs.Supervisor.PoolView
import Settler.Script.Peer
import Settler.Script.Worker
import Settler.Supervisor.Report

/-!
One run of a job at a time, no run that is lost sight of, and nothing left after a stop.

Every live task is the one on file for its owner (`Pool.Sole`), so a trigger is skipped exactly while
the job has a live task, and a stop reaches them all. From then on nobody is ready and nothing is
waited for (`State.Still`), so time passes and nothing happens.
-/

namespace Settler.Supervisor

open Settler.Calendar

variable {ω δ : Type}

/-! ### Live tasks -/

namespace Pool

/-- Every live task is on file for its owner, so no two are for one job; and what the state says is
running is what has a live task. -/
structure Sole (p : Pool ω) : Prop where
  onFile : ∀ (n : Nat) k, p.tasks[n]? = some k → k.isLive → p.filed k.owner = some n
  one : ∀ (n m : Nat) j k, p.tasks[n]? = some j → p.tasks[m]? = some k → j.owner = k.owner →
    j.isLive → k.isLive → n = m
  oneAtWork : ∀ (n m : Nat) j k, p.tasks[n]? = some j → p.tasks[m]? = some k → j.owner = k.owner →
    j.isAtWork → k.isAtWork → n = m
  oneLoop : ∀ (n m : Nat) j k, p.tasks[n]? = some j → p.tasks[m]? = some k → j.loop?.isSome →
    k.loop?.isSome → n = m
  running : ∀ name, p.view.isRunning name ↔ ∃ k ∈ p.tasks, k.owner = .job name ∧ k.isLive
  looping : p.view.isLooping ↔ ∃ k ∈ p.tasks, k.owner = .loop ∧ k.isLive

variable {p : Pool ω}

/-- A live task is on file, and so of its owner's kind. -/
theorem Orderly.fits_of_live (h : p.Orderly) {n : Nat} {k : Task ω} (found : p.tasks[n]? = some k)
    (live : k.isLive) : k.fits := by
  obtain ⟨k', found', -, fits⟩ := h.owned k.owner n (h.onFile n k found live)
  rw [found] at found'
  cases found'
  exact fits

/-- A task that is a schedule loop is live, and on file as such. -/
theorem Orderly.of_loop (h : p.Orderly) {n : Nat} {k : Task ω} (found : p.tasks[n]? = some k)
    (loop : k.loop?.isSome) : k.isLive ∧ k.owner = .loop := by
  obtain ⟨owner, progress⟩ := k
  cases progress with
  | run r => cases loop
  | cancelled => cases loop
  | loop l =>
    have fits := h.fits_of_live found rfl
    cases owner with
    | loop => exact ⟨rfl, rfl⟩
    | job name => cases fits

theorem Orderly.sole (h : p.Orderly)
    (listed : ∀ k ∈ p.tasks, ∀ name, k.owner = .job name → name ∈ p.desk.names) : p.Sole := by
  have one : ∀ (n m : Nat) j k, p.tasks[n]? = some j → p.tasks[m]? = some k → j.owner = k.owner →
      j.isLive → k.isLive → n = m := by
    intro n m j k hj hk same liveJ liveK
    have filed := h.onFile n j hj liveJ
    rw [same, h.onFile m k hk liveK] at filed
    exact (Option.some.inj filed).symm
  refine ⟨h.onFile, one, ?_, ?_, ?_, ?_⟩
  · intro n m j k hj hk same workJ workK
    exact one n m j k hj hk same (Task.isLive_of_isAtWork workJ) (Task.isLive_of_isAtWork workK)
  · intro n m j k hj hk loopJ loopK
    obtain ⟨liveJ, ownerJ⟩ := h.of_loop hj loopJ
    obtain ⟨liveK, ownerK⟩ := h.of_loop hk loopK
    exact one n m j k hj hk (ownerJ.trans ownerK.symm) liveJ liveK
  · intro name
    rw [State.isRunning, slot_view]
    constructor
    · intro runs
      obtain ⟨t, shown, running⟩ := (Option.any_eq_true _ _).mp runs
      obtain ⟨t, found, rfl⟩ := Option.map_eq_some_iff.mp shown
      obtain rfl := State.name_of_slot found
      rw [isRunning_fill h] at running
      obtain ⟨k, task, live⟩ := (Option.any_eq_true _ _).mp running
      obtain ⟨n, -, mem, owner, -⟩ := h.exists_of_task task
      exact ⟨k, List.mem_of_getElem? mem, owner, live⟩
    · rintro ⟨k, mem, owner, live⟩
      obtain ⟨n, found⟩ := List.getElem?_of_mem mem
      obtain ⟨t, slot⟩ := State.mem_names_iff.mp (listed k mem name owner)
      rw [slot, Option.map_some, Option.any_some, isRunning_fill h, State.name_of_slot slot, ← owner,
        h.task_of_live found live, Option.any_some, live]
  · constructor
    · intro looping
      obtain ⟨l, loop⟩ := Option.isSome_iff_exists.mp looping
      obtain ⟨n, found⟩ := exists_of_loop h loop
      exact ⟨_, List.mem_of_getElem? found, rfl, rfl⟩
    · rintro ⟨k, mem, owner, live⟩
      obtain ⟨n, found⟩ := List.getElem?_of_mem mem
      have fits := h.fits_of_live found live
      have task := h.task_of_live found live
      rw [owner] at task
      have loop : k.loop?.isSome := Task.loop_of_fits fits owner
      simpa [State.isLooping, view, task] using loop

end Pool

/-! ### Skipped triggers -/

namespace State

/-- What a skipped trigger changes: one more skip is counted for the job, and that is noted. -/
structure Skipped (name reason : String) (s s' : State ω) : Prop where
  slots : s'.slots = s.slots.map fun t : Slot ω =>
    if t.job.name = name then { t with health.skippedTriggers := t.health.skippedTriggers + 1 } else t
  journal : s'.journal = s.journal.record s.now [.triggered name reason false]
  rest : { s' with slots := s.slots, journal := s.journal } = s

/-- A trigger is refused exactly while the job runs, and then it is skipped. -/
theorem trigger_false (su : Setup δ) {s : State ω} (distinct : s.names.Nodup) (name reason : String) :
    ((s.trigger su name reason).2 = .ok false ↔ s.isRunning name) ∧
      (s.isRunning name → Skipped name reason s (s.trigger su name reason).1) := by
  unfold isRunning trigger
  cases found : s.slot? name with
  | none => simp
  | some t =>
    dsimp only
    rw [Option.any_some]
    unfold fire
    split
    · next running =>
      refine ⟨by simp [running], fun _ => ⟨?_, ?_, rfl⟩⟩
      · exact slots_put_eq_map distinct found (fun t : Slot ω =>
          { t with health.skippedTriggers := t.health.skippedTriggers + 1 }) rfl
      · rw [name_of_slot found]
        rfl
    · next idle => simp [idle]

/-! ### Stillness -/

/-- Nothing is live, and nothing is reported to be. -/
structure Still (s : State ω) : Prop where
  loop : s.loop = none
  runs : ∀ t ∈ s.slots, t.run = none
  reported : ∀ t ∈ s.slots, t.health.running = false

theorem still_stop (s : State ω) : s.stop.Still where
  loop := rfl
  runs := by
    intro t mem
    obtain ⟨u, -, rfl⟩ := List.mem_map.mp mem
    rfl
  reported := by
    intro t mem
    obtain ⟨u, -, rfl⟩ := List.mem_map.mp mem
    rfl

theorem outbound_stop (s : State ω) : s.stop.journal.outbound = s.journal.outbound := by
  have silent : ∀ e ∈ (s.stopOrder.flatMap abandonedNotes).map Event.note ++ [Event.stopped],
      e.speaker? = none := by
    intro e mem
    rcases List.mem_append.mp mem with mem | mem
    · obtain ⟨n, -, rfl⟩ := List.mem_map.mp mem
      rfl
    · obtain rfl := List.mem_singleton.mp mem
      rfl
  have exchanges : s.stop.journal.exchanges = s.journal.exchanges :=
    Journal.exchanges_record_of_silent s.journal s.now silent
  apply List.reverse_injective
  rw [← Journal.exchanges_map_sent, ← Journal.exchanges_map_sent, exchanges]

/-- A command that sets nothing going. -/
def Command.isQuiet : Command δ → Bool
  | .start => false
  | .trigger _ _ => false
  | .tick _ => false
  | _ => true

namespace Still

variable {s : State ω}

theorem live (h : s.Still) {t : Slot ω} (mem : t ∈ s.slots) : t.live? = none := by
  rw [Slot.live?, h.runs t mem]

theorem ready (h : s.Still) : s.ready = [] := by
  rw [State.ready, h.loop, List.filterMap_eq_nil_iff.mpr]
  · rfl
  · intro t mem
    rw [h.live mem]
    rfl

theorem times (h : s.Still) : s.times = [] := by
  rw [State.times, h.loop, List.filterMap_eq_nil_iff.mpr]
  · rfl
  · intro t mem
    rw [h.live mem]
    rfl

theorem isRunning (h : s.Still) (name : String) : s.isRunning name = false := by
  unfold State.isRunning
  cases found : s.slot? name with
  | none => rfl
  | some t => rw [Option.any_some, Slot.isRunning, h.live (mem_of_slot found), Option.isSome_none]

variable [Machine ω δ] [Seconds δ] (su : Setup δ)

/-- Nothing happens by itself. -/
theorem next (h : s.Still) (limit : Option Instant) : s.next? su limit = none := by
  rw [next?, h.ready, h.times]
  rfl

theorem runTo (h : s.Still) (limit : Instant) (fuel : Nat) :
    ∃ now, s.runTo su limit fuel = { s with now } := by
  cases fuel with
  | zero => exact ⟨s.now, rfl⟩
  | succ fuel =>
    rw [State.runTo, h.next]
    exact ⟨_, rfl⟩

theorem advance (h : s.Still) (fuel : Nat) (span : δ) :
    ∃ now, s.advance su fuel span = { s with now } := by
  unfold State.advance
  split
  · split
    · exact h.runTo su _ fuel
    · exact ⟨s.now, rfl⟩
  · cases fuel with
    | zero => exact ⟨s.now, rfl⟩
    | succ fuel =>
      rw [pass, h.ready]
      exact ⟨s.now, rfl⟩

theorem runUntilEnded (h : s.Still) (name : String) (fuel : Nat) :
    s.runUntilEnded su name fuel = s := by
  cases fuel with
  | zero => rfl
  | succ fuel =>
    rw [State.runUntilEnded, h.isRunning, if_neg Bool.false_ne_true]

/-- A command that sets nothing going leaves everything still. -/
theorem perform (h : s.Still) (fuel : Nat) {c : Command δ} (quiet : c.isQuiet) :
    (s.perform su fuel c).1.Still ∧
      (s.perform su fuel c).1.journal.outbound = s.journal.outbound := by
  have passes : ∀ s', (∃ now, s' = { s with now }) →
      s'.Still ∧ s'.journal.outbound = s.journal.outbound := by
    rintro s' ⟨now, rfl⟩
    exact ⟨⟨h.loop, h.runs, h.reported⟩, rfl⟩
  cases c with
  | start => cases quiet
  | trigger name reason => cases quiet
  | tick m => cases quiet
  | stop => exact ⟨still_stop s, outbound_stop s⟩
  | isRunning name => exact ⟨h, rfl⟩
  | wait name => exact passes _ ⟨s.now, h.runUntilEnded su name fuel⟩
  | advance span => exact passes _ (h.advance su fuel span)
  | settle => exact passes _ (h.runTo su s.now fuel)
  | names => exact ⟨h, rfl⟩

theorem drive (h : s.Still) {script : List (Nat × Command δ)}
    (quiet : ∀ c ∈ script, c.2.isQuiet) :
    (s.drive su script).Still ∧ (s.drive su script).journal.outbound = s.journal.outbound := by
  induction script generalizing s with
  | nil => exact ⟨h, rfl⟩
  | cons c rest ih =>
    obtain ⟨still, outbound⟩ := h.perform su c.1 (quiet c List.mem_cons_self)
    obtain ⟨stillEnd, outboundEnd⟩ := ih still fun c mem => quiet c (List.mem_cons_of_mem _ mem)
    exact ⟨stillEnd, outboundEnd.trans outbound⟩

end Still

end State

/-! ### Every script -/

variable [Machine ω δ] [Seconds δ]

/-- After a stop, commands that set nothing going leave everything still. -/
theorem State.still_drive (su : Setup δ) (s : State ω) (fuel : Nat)
    {quiet : List (Nat × State.Command δ)} (silent : ∀ c ∈ quiet, c.2.isQuiet) :
    (s.drive su ((fuel, .stop) :: quiet)).Still ∧
      (s.drive su ((fuel, .stop) :: quiet)).journal.outbound = s.journal.outbound := by
  obtain ⟨still, outbound⟩ := (still_stop s).drive su silent
  exact ⟨still, outbound.trans (outbound_stop s)⟩

/-- In a pool that shows a still state no task is live. -/
theorem Pool.Sole.not_live {p : Pool ω} (h : p.Sole) (still : p.view.Still) {k : Task ω}
    (mem : k ∈ p.tasks) : k.isLive = false := by
  by_contra live
  have live : k.isLive := by simpa using live
  cases owner : k.owner with
  | job name =>
    have running := (h.running name).mpr ⟨k, mem, owner, live⟩
    rw [still.isRunning] at running
    cases running
  | loop =>
    have looping := h.looping.mpr ⟨k, mem, owner, live⟩
    rw [State.isLooping, still.loop] at looping
    cases looping

/-- Whatever a supervisor is told to do, no job ever has two live tasks, and a live task is never lost
sight of. Exactly while a job has one, a trigger of the job is skipped. After a stop there is none, and
nothing goes out until something is set going again. -/
theorem sole_of_script {jobs : List (Job ω)} {st : State ω} (h : State.ofJobs jobs = .ok st)
    (su : Setup δ) :
    (∀ p, Pool.Reached su st p → p.Sole) ∧
      ∀ script,
        let s := st.drive su script
        (∃ p, Pool.Reached su st p ∧ p.view = s) ∧
        (∀ name reason, ((s.trigger su name reason).2 = .ok false ↔ s.isRunning name) ∧
          (s.isRunning name → State.Skipped name reason s (s.trigger su name reason).1)) ∧
        ∀ fuel quiet, (∀ c ∈ quiet, c.2.isQuiet) →
          let e := s.drive su ((fuel, .stop) :: quiet)
          e.Still ∧ Json.lookup "running" e.report = some (.bool false) ∧
            e.journal.outbound = s.journal.outbound ∧
            ∀ p, Pool.Reached su st p → p.view = e → ∀ k ∈ p.tasks, k.isLive = false := by
  have fresh : (∀ t ∈ st.slots, t.run = none) ∧ st.loop = none := by
    unfold State.ofJobs at h
    split at h
    · cases h
    · cases h
      simp
  have sole : ∀ p, Pool.Reached su st p → p.Sole := fun p reached =>
    (Pool.orderly_of_reached reached).sole fun _ mem _ => Pool.mem_names_of_reached reached mem
  refine ⟨sole, fun script => ⟨?_, ?_, ?_⟩⟩
  · exact Pool.exists_reached fresh.1 fresh.2 (State.acts_drive su script st)
  · exact State.trigger_false su (State.documented_drive su h script).nodup_slots
  · intro fuel quiet silent
    obtain ⟨still, outbound⟩ := State.still_drive su (st.drive su script) fuel silent
    refine ⟨still, ?_, outbound, ?_⟩
    · unfold State.report State.isLooping
      rw [still.loop]
      rfl
    · intro p reached shown k mem
      exact (sole p reached).not_live (shown ▸ still) mem

/-- A job whose every instance crashes at once. -/
def Job.flaky : Job (Script.Part Micros) where
  name := "flaky"
  build := Script.instances [.ok { ending := .fail .notImplemented }]

/-- One restart in a window of ten seconds, a second after the crash, and a tick every second. -/
def Setup.rehearsal : Setup Micros where
  maxRestarts := 1
  window := ⟨10 * second⟩
  restartDelay := ⟨second⟩
  tickDelay := ⟨second⟩
  origin := ⟨0, some 0⟩
  services := ⟨Script.settle [], Script.post (.ok ())⟩

/-- The job is triggered and crashes. While it waits for its restart another trigger is skipped; a stop
comes before the restart, and ten seconds later nothing is live. -/
theorem sole_of_script_backingOff :
    ∃ st, State.ofJobs [Job.flaky] = .ok st ∧
      let s := st.drive Setup.rehearsal [(9, .trigger "flaky" "manual"), (9, .settle)]
      (s.slot? "flaky").map (fun t => (t.health.running, t.health.restarts)) = some (false, 1) ∧
        (s.trigger Setup.rehearsal "flaky" "manual").2 = .ok false ∧
        (s.drive Setup.rehearsal [(9, .stop), (9, .advance ⟨10 * second⟩)]).Still := by
  obtain ⟨-, driven⟩ :=
    sole_of_script (rfl : State.ofJobs [Job.flaky] = .ok _) Setup.rehearsal
  obtain ⟨-, trigger, stop⟩ := driven [(9, .trigger "flaky" "manual"), (9, .settle)]
  exact ⟨_, rfl, by decide +kernel, (trigger "flaky" "manual").1.mpr (by decide +kernel),
    (stop 9 [(9, .advance ⟨10 * second⟩)] (by decide)).1⟩

end Settler.Supervisor
