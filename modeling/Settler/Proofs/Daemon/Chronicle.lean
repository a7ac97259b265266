import Settler.Daemon.Jobs
import Settler.Proofs.Supervisor.Scripts
import Settler.Proofs.Worker.Senders

/-!
The record of the daemon's workers, kind by kind.

Whatever a supervisor for settings is told to do, the words of each kind of worker come in blocks,
one for each instance of that kind, and each block is a conversation of the worker that the settings
ask for (`Chronicle`).
-/

namespace Settler

open Settler.Supervisor Settler.Calendar

/-- The exchanges over the words of a kind of worker, whoever said them. -/
def Journal.exchangesBy (j : Journal) (kind : String) : List Exchange :=
  j.exchanges.filter fun x => x.sent.sender = kind

/-- The words of one kind of worker come in blocks of its instances, and each block is a conversation
that begins with the same turn. -/
structure Chronicle (j : Journal) (name : String) (first : Turn (Worker Number) Number) : Prop where
  distinct : (j.instances name).Nodup
  blocks : j.exchangesBy name = (j.instances name).flatMap j.exchangesOf
  conversations : ∀ i ∈ j.instances name, Conversation i first (j.exchangesOf i)

/-- Every worker that the job builds bears the job's name. -/
def Supervisor.Job.Names {δ : Type} (job : Job (Worker δ)) : Prop :=
  ∀ n w, job.build n = .ok w → w.name = job.name

/-- Every word on record belongs to the kind of worker that its job runs. -/
theorem Supervisor.State.Documented.sender_eq_job {δ : Type} {jobs : List (Job (Worker δ))}
    {s : State (Worker δ)} (documented : s.Documented jobs) (names : ∀ job ∈ jobs, job.Names) :
    ∀ x ∈ s.journal.exchanges, x.sent.sender = x.owner.job := by
  intro x listed
  obtain ⟨job, mem, named⟩ := List.mem_map.mp (documented.owners x listed)
  have inOrder := mem
  rw [← documented.inOrder] at inOrder
  obtain ⟨t, slot, rfl⟩ := List.mem_map.mp inOrder
  have recorded := (documented.slots t slot).recorded
  have own : x ∈ s.journal.exchangesFor t.job.name :=
    List.mem_filter.mpr ⟨listed, by simpa using named.symm⟩
  obtain ⟨w, build, conversation⟩ := recorded.conversations x.owner (recorded.blocks.owner_mem own)
  calc
    x.sent.sender = w.name :=
      Worker.sender_of_conversation conversation x (List.mem_filter.mpr ⟨listed, by simp⟩)
    _ = x.owner.job := (names _ mem _ _ build).trans named

namespace Settings

/-- Settings under which jobs run only when they are triggered, and sweeps do not pause. -/
def manual : Settings where
  payOnStartup := false
  stepDelayMillis := 0
  paySchedule := ""
  initializeSchedule := ""
  calculateSchedule := ""

variable {settings : Settings} {jobs : List (Job (Worker Number))} {st : State (Worker Number)}

/-! ### Jobs -/

theorem exists_of_bind {α β ε : Type} {x : Except ε α} {f : α → Except ε β} {b : β}
    (h : x.bind f = .ok b) : ∃ a, x = .ok a ∧ f a = .ok b := by
  cases x with
  | error e => cases h
  | ok a => exact ⟨a, rfl, h⟩

/-- What the jobs of settings are made of. -/
theorem exists_of_jobs (h : settings.jobs = .ok jobs) :
    ∃ delay pay opening calculate collect, settings.stepDelay = .ok delay ∧
      jobs = [{ workerJob Sweep.name (.sweep (.fresh settings.genesisEpoch (.real delay))) pay with
            runsOnStartup := settings.payOnStartup },
          workerJob Initializer.name (.initializer {}) opening,
          workerJob Calculator.name (.calculator .resolving) calculate]
        ++ (if collect.isSome then [workerJob Collector.name (.collector {}) collect] else []) := by
  obtain ⟨delay, paused, h⟩ := exists_of_bind h
  obtain ⟨pay, -, h⟩ := exists_of_bind h
  obtain ⟨opening, -, h⟩ := exists_of_bind h
  obtain ⟨calculate, -, h⟩ := exists_of_bind h
  obtain ⟨collect, -, h⟩ := exists_of_bind h
  cases h
  exact ⟨delay, pay, opening, calculate, collect, paused, rfl⟩

/-- Every job builds workers of its own name. -/
theorem builds_of_jobs (h : settings.jobs = .ok jobs) :
    ∀ job ∈ jobs, ∃ w : Worker Number, w.name = job.name ∧ ∀ n, job.build n = .ok w := by
  obtain ⟨delay, pay, opening, calculate, collect, -, rfl⟩ := exists_of_jobs h
  intro job hjob
  rcases List.mem_append.mp hjob with hjob | hjob
  · simp only [List.mem_cons, List.not_mem_nil, or_false] at hjob
    rcases hjob with rfl | rfl | rfl
    · exact ⟨_, rfl, fun _ => rfl⟩
    · exact ⟨_, rfl, fun _ => rfl⟩
    · exact ⟨_, rfl, fun _ => rfl⟩
  · split at hjob
    · obtain rfl := List.mem_singleton.mp hjob
      exact ⟨_, rfl, fun _ => rfl⟩
    · cases hjob

theorem names_of_jobs (h : settings.jobs = .ok jobs) : ∀ job ∈ jobs, job.Names := by
  intro job mem n w build
  obtain ⟨w', named, builds⟩ := builds_of_jobs h job mem
  cases (builds n).symm.trans build
  exact named

theorem exists_of_supervisor (h : settings.supervisor = .ok st) :
    ∃ jobs, settings.jobs = .ok jobs ∧ State.ofJobs jobs = .ok st :=
  exists_of_bind h

/-! ### The record -/

/-- The record of a kind of worker whose job is one of the settings' jobs. -/
theorem chronicle_of_job (h : settings.jobs = .ok jobs) {s : State (Worker Number)}
    (documented : s.Documented jobs) {job : Job (Worker Number)} (mem : job ∈ jobs)
    {w : Worker Number} (build : ∀ n, job.build n = .ok w) :
    Chronicle s.journal job.name (Machine.begin w) := by
  have hslot := mem
  rw [← documented.inOrder] at hslot
  obtain ⟨t, ht, rfl⟩ := List.mem_map.mp hslot
  have recorded := (documented.slots t ht).recorded
  refine ⟨recorded.blocks.distinct, ?_, ?_⟩
  · have same : s.journal.exchangesBy t.job.name = s.journal.exchangesFor t.job.name := by
      apply List.filter_congr
      intro x hx
      rw [documented.sender_eq_job (names_of_jobs h) x hx]
    rw [same, recorded.blocks.split]
    refine List.flatMap_congr fun i hi => ?_
    rw [Journal.exchangesOf_eq_filter, (recorded.numbers i hi).1]
  · intro i hi
    obtain ⟨w', build', conversation⟩ := recorded.conversations i hi
    rw [build] at build'
    cases build'
    exact conversation

variable (h : settings.supervisor = .ok st) (origin : Moment) (services : Services Number)
  (ties : Ties) (script : List (Nat × State.Command Number))

include h

/-- The record of the calculators after any script. -/
theorem chronicle_calculator :
    Chronicle (st.drive (settings.setup origin services ties) script).journal Calculator.name
      (Machine.begin (Worker.calculator .resolving)) := by
  obtain ⟨jobs, listed, made⟩ := exists_of_supervisor h
  obtain ⟨delay, pay, opening, calculate, collect, -, shape⟩ := exists_of_jobs listed
  have mem : workerJob Calculator.name (.calculator .resolving) calculate ∈ jobs := by
    simp [shape]
  exact chronicle_of_job listed (State.documented_drive _ made script) mem fun _ => rfl

/-- The record of the sweeps after any script. -/
theorem chronicle_sweep :
    ∃ delay, Chronicle (st.drive (settings.setup origin services ties) script).journal Sweep.name
      (Machine.begin (Worker.sweep (.fresh settings.genesisEpoch delay))) := by
  obtain ⟨jobs, listed, made⟩ := exists_of_supervisor h
  obtain ⟨delay, pay, opening, calculate, collect, -, shape⟩ := exists_of_jobs listed
  have mem : { workerJob Sweep.name (.sweep (.fresh settings.genesisEpoch (.real delay))) pay with
      runsOnStartup := settings.payOnStartup } ∈ jobs := by
    simp [shape]
  exact ⟨_, chronicle_of_job listed (State.documented_drive _ made script) mem fun _ => rfl⟩

end Settings

end Settler
