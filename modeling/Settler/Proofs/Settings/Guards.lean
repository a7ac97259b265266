import Settler.Proofs.Daemon.Chronicle
import Settler.Proofs.Decimal.Values
import Settler.Proofs.Text.Strings
import Settler.Settings.Load
import Settler.Settings.Names

/-!
The guard rails, and what settings that pass them are good for.

Settings whose values have the form of their fields are refused for the first rule that they violate
(`Settings.Refuses`), and for nothing else. The schedules are read once more when the jobs are made, after
the guard rails: settings that passed them always have their jobs (`Settings.Staffed`), and a supervisor of
these.
-/

namespace Settler.Settings

open Settler.Text Settler.Supervisor Settler.Validation

variable {s : Settings}

/-! ### Schedule settings -/

/-- The schedule setting is blank, or it can be parsed. -/
def IsReadable (text : String) : Prop := isBlankText text ∨ ∃ c, Cron.Schedule.parse text = .ok c

theorem isReadable_iff {text : String} :
    IsReadable text ↔ ∃ c, Cron.Schedule.parseOptional text = .ok c := by
  unfold IsReadable Cron.Schedule.parseOptional
  split
  · next blank => simp [blank]
  · next full => cases Cron.Schedule.parse text <;> simp [full, Except.map]

theorem parseOptional_eq_error_iff {text : String} {err : SchedulerError} :
    Cron.Schedule.parseOptional text = .error err ↔
      isBlankText text = false ∧ Cron.Schedule.parse text = .error err := by
  unfold Cron.Schedule.parseOptional
  split
  · next blank => simp [blank]
  · next full => cases Cron.Schedule.parse text <;> simp [full, Except.map]

instance (text : String) : Decidable (IsReadable text) :=
  match read : Cron.Schedule.parseOptional text with
  | .ok c => .isTrue (isReadable_iff.mpr ⟨c, read⟩)
  | .error _ => .isFalse fun readable => by
    obtain ⟨c, read'⟩ := isReadable_iff.mp readable
    cases read.symm.trans read'

/-- A schedule setting that cannot be parsed, in words. -/
def problemText (p : (String × String) × SchedulerError) : Str :=
  p.1.1 ++ " (" ++ p.2.message ++ ")"

/-- The problems are the schedule settings that cannot be parsed, in order, each with what is wrong with
it. -/
structure Lists (entries : List (String × String)) (problems : List ((String × String) × SchedulerError)) :
    Prop where
  inOrder : (problems.map (·.1)).Sublist entries
  sound : ∀ p ∈ problems, isBlankText p.1.2 = false ∧ Cron.Schedule.parse p.1.2 = .error p.2
  complete : ∀ e ∈ entries, ¬ IsReadable e.2 → e ∈ problems.map (·.1)

/-- The guard rails word every problem, and nothing else. -/
theorem exists_lists (entries : List (String × String)) :
    ∃ problems, Lists entries problems ∧
      entries.filterMap scheduleProblem? = problems.map problemText := by
  induction entries with
  | nil => exact ⟨[], ⟨.slnil, by simp, by simp⟩, rfl⟩
  | cons e entries ih =>
    obtain ⟨problems, ⟨inOrder, sound, complete⟩, worded⟩ := ih
    cases read : Cron.Schedule.parseOptional e.2 with
    | ok c =>
      have readable : IsReadable e.2 := isReadable_iff.mpr ⟨c, read⟩
      refine ⟨problems, ⟨inOrder.cons e, sound, ?_⟩, ?_⟩
      · exact List.forall_mem_cons.mpr ⟨fun problem => absurd readable problem, complete⟩
      · rw [List.filterMap_cons_none (by rw [scheduleProblem?, read]), worded]
    | error err =>
      have fault := parseOptional_eq_error_iff.mp read
      refine ⟨(e, err) :: problems, ⟨inOrder.cons_cons e, ?_, ?_⟩, ?_⟩
      · exact List.forall_mem_cons.mpr ⟨fault, sound⟩
      · refine List.forall_mem_cons.mpr ⟨fun _ => List.mem_cons_self, fun e' mem problem => ?_⟩
        exact List.mem_cons_of_mem _ (complete e' mem problem)
      · rw [List.filterMap_cons_some (b := problemText (e, err)) (by rw [scheduleProblem?, read]; rfl),
          worded, List.map_cons]

/-- There is no problem exactly if every schedule setting can be read. -/
theorem Lists.eq_nil_iff {entries : List (String × String)}
    {problems : List ((String × String) × SchedulerError)} (lists : Lists entries problems) :
    problems = [] ↔ ∀ e ∈ entries, IsReadable e.2 := by
  constructor
  · rintro rfl e mem
    by_contra problem
    simpa using lists.complete e mem problem
  · intro readable
    refine List.eq_nil_iff_forall_not_mem.mpr fun p mem => ?_
    have entry := lists.inOrder.subset (List.mem_map.mpr ⟨p, mem, rfl⟩)
    obtain ⟨full, fault⟩ := lists.sound p mem
    rcases readable p.1 entry with blank | ⟨c, parsed⟩
    · rw [full] at blank
      cases blank
    · rw [fault] at parsed
      cases parsed

/-! ### Guard rails -/

/-- The rules for settings. -/
structure IsSound (s : Settings) : Prop where
  genesis : 0 ≤ s.genesisEpoch
  schedules : ∀ e ∈ s.schedules, IsReadable e.2
  endpoints : lower (trimmed s.environment) ∈ safeEnvironments ∨
    isBlankText s.ledgerRpc = false ∧ isBlankText s.solanaRpc = false

instance (s : Settings) : Decidable s.IsSound :=
  decidable_of_iff
    (0 ≤ s.genesisEpoch ∧ (∀ e ∈ s.schedules, IsReadable e.2) ∧
      (lower (trimmed s.environment) ∈ safeEnvironments ∨
        isBlankText s.ledgerRpc = false ∧ isBlankText s.solanaRpc = false))
    ⟨fun ⟨genesis, schedules, endpoints⟩ => ⟨genesis, schedules, endpoints⟩,
      fun ⟨genesis, schedules, endpoints⟩ => ⟨genesis, schedules, endpoints⟩⟩

/-- The text is what the settings are refused with: it names the first rule that they violate, and for the
schedules every one that cannot be parsed. -/
inductive Refuses (s : Settings) : Str → Prop where
  | genesis (negative : s.genesisEpoch < 0) :
      Refuses s ("GENESIS_EPOCH must be non-negative, got " ++ toString s.genesisEpoch)
  | schedules (genesis : 0 ≤ s.genesisEpoch) {problems : List ((String × String) × SchedulerError)}
      (lists : Lists s.schedules problems) (some : problems ≠ []) :
      Refuses s ("Invalid schedule expression(s): " ++ .intercalate "; " (problems.map problemText))
  | endpoints (genesis : 0 ≤ s.genesisEpoch) (schedules : ∀ e ∈ s.schedules, IsReadable e.2)
      (exposed : lower (trimmed s.environment) ∉ safeEnvironments)
      (missing : isBlankText s.ledgerRpc ∨ isBlankText s.solanaRpc) :
      Refuses s ("Refusing to start without RPC endpoints outside dev/test: "
        ++ ", ".intercalate s.missingEndpoints ++ ". Got ENV=" ++ quoted s.environment
        ++ ". Set them via environment variables (LEDGER_RPC / SOLANA_RPC), or run with ENV=dev/test.")

theorem Refuses.not_isSound {message : Str} (h : s.Refuses message) : ¬ s.IsSound := by
  rintro ⟨genesis, schedules, endpoints⟩
  cases h with
  | genesis negative => omega
  | schedules _ lists some => exact some (lists.eq_nil_iff.mpr schedules)
  | endpoints _ _ exposed missing =>
    rcases endpoints with safe | ⟨ledger, solana⟩
    · exact exposed safe
    · simp [ledger, solana] at missing

theorem missingEndpoints_eq_nil_iff :
    s.missingEndpoints = [] ↔ isBlankText s.ledgerRpc = false ∧ isBlankText s.solanaRpc = false := by
  simp [missingEndpoints, List.filter_eq_nil_iff]

/-- The guard rails object to the first rule that is violated, if one is. -/
theorem objection_spec (s : Settings) :
    (s.objection? = none ∧ s.IsSound) ∨ ∃ o, s.objection? = some o ∧ s.Refuses o.message := by
  obtain ⟨problems, lists, worded⟩ := exists_lists s.schedules
  have worded_nil : s.schedules.filterMap scheduleProblem? = [] ↔ problems = [] := by
    rw [worded, List.map_eq_nil_iff]
  unfold objection?
  dsimp only
  split
  · next negative => exact .inr ⟨_, rfl, .genesis negative⟩
  · next nonneg =>
    have genesis : 0 ≤ s.genesisEpoch := Int.not_lt.mp nonneg
    split
    · next some =>
      have some : problems ≠ [] := by simpa [worded_nil] using some
      refine .inr ⟨_, rfl, ?_⟩
      rw [worded]
      exact .schedules genesis lists some
    · next none =>
      have schedules := lists.eq_nil_iff.mp (worded_nil.mp (by simpa using none))
      split
      · next exposed =>
        simp only [Bool.and_eq_true, Bool.not_eq_true', List.isEmpty_eq_false_iff] at exposed
        obtain ⟨exposed, missing⟩ := exposed
        refine .inr ⟨_, rfl, .endpoints genesis schedules ?_ ?_⟩
        · simpa [isSafe] using exposed
        · rw [ne_eq, missingEndpoints_eq_nil_iff, not_and_or, Bool.not_eq_false, Bool.not_eq_false]
            at missing
          exact missing
      · next guarded =>
        refine .inl ⟨rfl, genesis, schedules, ?_⟩
        rw [← missingEndpoints_eq_nil_iff]
        simpa [isSafe, or_iff_not_imp_left] using guarded

/-- Every setting that is no schedule is named. -/
example : ({ calculateSchedule := "every hour", collectSchedule := "60 * * * *" } : Settings).objection? =
    some (.badSchedules
      ["CALCULATE_DISTRIBUTION_SCHEDULE (Cron expression 'every hour' must have 5 fields, got 2)",
        "COLLECT_ALL_DEBT_SCHEDULE (minute range 60-60 outside 0-59 in cron expression '60 * * * *')"]) := by
  decide +kernel

/-- Settings that have the form of their fields are loaded if they are sound, and otherwise refused for the
first rule that they violate. -/
theorem load_spec {src : Sources} (typed : src.settings.result "Settings" = .ok s) :
    (load src = .ok s ∧ s.IsSound) ∨
      ∃ message, load src = .error (.scheduler ⟨.configuration, .configuration, message, []⟩) ∧
        s.Refuses message := by
  have loaded : load src = s.guarded.mapError .scheduler := by
    rw [load, typed]
    rfl
  rw [loaded, guarded]
  rcases objection_spec s with ⟨none, sound⟩ | ⟨o, some, refuses⟩
  · exact .inl ⟨by rw [none]; rfl, sound⟩
  · exact .inr ⟨o.message, by rw [some]; rfl, refuses⟩

/-- Settings that were loaded have the form of their fields, and are sound. -/
theorem isSound_of_load {src : Sources} (loaded : load src = .ok s) : s.IsSound := by
  cases typed : src.settings.result "Settings" with
  | error report =>
    rw [load, typed] at loaded
    cases loaded
  | ok s' =>
    rcases load_spec typed with ⟨loaded', sound⟩ | ⟨message, refused, -⟩
    · cases loaded'.symm.trans loaded
      exact sound
    · cases refused.symm.trans loaded

/-! ### Values given outright -/

/-- The spans of time are binary numbers, as a setting reads them. -/
def HasSpans (s : Settings) : Prop :=
  ∃ tick window delay, s.tickSeconds = .real tick ∧ s.restartWindow = .real window ∧
    s.restartDelay = .real delay

/-- A name that is not given twice has the value that it is given. -/
theorem lookup_eq_some_of_mem {α : Type} {l : List (String × α)} (nodup : (l.map (·.1)).Nodup)
    {e : String × α} (mem : e ∈ l) : l.lookup e.1 = some e.2 := by
  induction l with
  | nil => cases mem
  | cons d l ih =>
    rw [List.map_cons, List.nodup_cons] at nodup
    rcases List.mem_cons.mp mem with rfl | mem
    · rw [List.lookup_cons_self]
    · have other : e.1 ≠ d.1 := fun same => nodup.1 (List.mem_map.mpr ⟨e, mem, same⟩)
      rw [List.lookup_cons, beq_false_of_ne other]
      exact ih nodup.2 mem

/-- A string is read as it stands. -/
theorem ofString_string {α : Type} (read : String → Except Complaint α) (text : String) :
    ofString read text = read text := by
  rw [ofString, Str.string?_ofString]

/-- Every assignment of values to the settings can be given outright, whatever the environment has. -/
theorem settings_given (spans : s.HasSpans) (environment : List (String × String)) :
    (Sources.mk s.entries environment).settings.result "Settings" = .ok s := by
  obtain ⟨tick, window, delay, ticks, windows, delays⟩ := spans
  have nodup : (s.entries.map (·.1)).Nodup := by
    -- The names are those of any other settings.
    show (({} : Settings).entries.map (·.1)).Nodup
    decide +kernel
  obtain ⟨given, same⟩ : ∃ given, given = s.entries := ⟨_, rfl⟩
  have found : ∀ e ∈ s.entries, given.lookup e.1 = some e.2 := fun e mem => by
    rw [same, lookup_eq_some_of_mem nodup mem]
  simp only [entries, List.forall_mem_cons, ticks, windows, delays, number] at found
  rw [← same, Sources.settings]
  simp only [Sources.read, Sources.find?, List.findSome?_cons, found, text, ofString_string, integer, truth,
    real, seconds]
  simp [Checked.ofField, Checked.result, Except.map, bind, pure, ← ticks, ← windows, ← delays]

/-! ### Jobs -/

/-- The names of the jobs, each with the schedule setting that is its own. -/
def ownSchedules (s : Settings) : List (String × String) :=
  [(Sweep.name, s.paySchedule), (Initializer.name, s.initializeSchedule),
    (Calculator.name, s.calculateSchedule), (Collector.name, s.collectSchedule)]

/-- The jobs are those that the settings ask for. -/
structure Staffed (s : Settings) (jobs : List (Job (Worker Number))) : Prop where
  distinct : (jobs.map (·.name)).Nodup
  always : ∀ name ∈ [Sweep.name, Initializer.name, Calculator.name], name ∈ jobs.map (·.name)
  collector : Collector.name ∈ jobs.map (·.name) ↔ isBlankText s.collectSchedule = false
  schedules : ∀ job ∈ jobs, ∃ text, (job.name, text) ∈ s.ownSchedules ∧
    Cron.Schedule.parseOptional text = .ok job.schedule
  sweeps : ∀ job ∈ jobs, job.name = Sweep.name → ∀ n, ∃ sweep, job.build n = .ok (.sweep sweep) ∧
    sweep.progress = { genesis := s.genesisEpoch, epoch := s.genesisEpoch, totalDebt := 0, totalPaid := 0,
                       insufficientFunds := 0 }

theorem isSome_of_parseOptional {text : String} {c : Option Cron.Schedule}
    (h : Cron.Schedule.parseOptional text = .ok c) : c.isSome = !isBlankText text := by
  unfold Cron.Schedule.parseOptional at h
  split at h
  · next blank =>
    cases h
    simp [blank]
  · next full =>
    cases parsed : Cron.Schedule.parse text with
    | error err =>
      rw [parsed] at h
      cases h
    | ok c =>
      rw [parsed] at h
      cases h
      simp [full]

/-- A pause of no more than 1023 bits of milliseconds is a binary number of seconds. -/
theorem exists_stepDelay {bits : Nat} (small : s.stepDelayMillis < 2 ^ bits) (few : bits ≤ 1023) :
    ∃ delay, s.stepDelay = .ok delay := by
  have bound : (max 0 s.stepDelayMillis).natAbs < 2 ^ bits := by
    have cast : ((2 ^ bits : Nat) : Int) = 2 ^ bits := Nat.cast_pow 2 bits
    have positive : 0 < 2 ^ bits := Nat.two_pow_pos bits
    omega
  obtain ⟨x, read⟩ := Binary64.exists_ofInt? bound few
  exact ⟨x.divNat 1000, by rw [stepDelay, read]⟩

/-- The jobs of settings with a pause and the schedules that were read. -/
def staff (s : Settings) (delay : Binary64) (pay opening calculate collect : Option Cron.Schedule) :
    List (Job (Worker Number)) :=
  [{ workerJob Sweep.name (.sweep (.fresh s.genesisEpoch (.real delay))) pay with
      runsOnStartup := s.payOnStartup },
    workerJob Initializer.name (.initializer {}) opening,
    workerJob Calculator.name (.calculator .resolving) calculate]
  ++ (if collect.isSome then [workerJob Collector.name (.collector {}) collect] else [])

section Staff

variable {pay opening calculate collect : Option Cron.Schedule}
  (pays : Cron.Schedule.parseOptional s.paySchedule = .ok pay)
  (opens : Cron.Schedule.parseOptional s.initializeSchedule = .ok opening)
  (calculates : Cron.Schedule.parseOptional s.calculateSchedule = .ok calculate)
  (collects : Cron.Schedule.parseOptional s.collectSchedule = .ok collect)

include pays opens calculates collects

theorem jobs_eq_staff {delay : Binary64} (paused : s.stepDelay = .ok delay) :
    s.jobs = .ok (s.staff delay pay opening calculate collect) := by
  rw [jobs, paused, readSchedule, pays, readSchedule, opens, readSchedule, calculates, readSchedule,
    collects]
  rfl

theorem staffed_staff (delay : Binary64) : s.Staffed (s.staff delay pay opening calculate collect) := by
  have names : (s.staff delay pay opening calculate collect).map (·.name) =
      [Sweep.name, Initializer.name, Calculator.name] ++
        if isBlankText s.collectSchedule then [] else [Collector.name] := by
    rw [staff, isSome_of_parseOptional collects]
    cases isBlankText s.collectSchedule <;> rfl
  have own : ∀ job ∈ s.staff delay pay opening calculate collect, ∃ text,
      (job.name, text) ∈ s.ownSchedules ∧ Cron.Schedule.parseOptional text = .ok job.schedule := by
    refine List.forall_mem_append.mpr ⟨?_, ?_⟩
    · simp only [List.forall_mem_cons]
      exact ⟨⟨_, .head _, pays⟩, ⟨_, .tail _ (.head _), opens⟩,
        ⟨_, .tail _ (.tail _ (.head _)), calculates⟩, by simp⟩
    · split
      · exact List.forall_mem_singleton.mpr ⟨_, by simp [ownSchedules, workerJob], collects⟩
      · simp
  refine ⟨?_, ?_, ?_, own, ?_⟩
  · rw [names]
    cases isBlankText s.collectSchedule <;> decide
  · rw [names]
    exact fun name mem => List.mem_append_left _ mem
  · rw [names]
    cases isBlankText s.collectSchedule <;> decide
  · intro job mem named n
    rcases List.mem_append.mp mem with mem | mem
    · simp only [List.mem_cons, List.not_mem_nil, or_false] at mem
      rcases mem with rfl | rfl | rfl
      · exact ⟨_, rfl, rfl⟩
      · exact absurd named (show Initializer.name ≠ Sweep.name by decide)
      · exact absurd named (show Calculator.name ≠ Sweep.name by decide)
    · split at mem
      · obtain rfl := List.mem_singleton.mp mem
        exact absurd named (show Collector.name ≠ Sweep.name by decide)
      · cases mem

end Staff

/-- Settings whose schedules can be read have their jobs. -/
theorem exists_jobs (schedules : ∀ e ∈ s.schedules, IsReadable e.2) {bits : Nat}
    (small : s.stepDelayMillis < 2 ^ bits) (few : bits ≤ 1023) :
    ∃ jobs, s.jobs = .ok jobs ∧ s.Staffed jobs := by
  obtain ⟨delay, paused⟩ := exists_stepDelay small few
  simp only [Settings.schedules, List.forall_mem_cons, isReadable_iff] at schedules
  obtain ⟨⟨pay, pays⟩, ⟨opening, opens⟩, ⟨calculate, calculates⟩, ⟨collect, collects⟩, -⟩ := schedules
  exact ⟨_, jobs_eq_staff pays opens calculates collects paused,
    staffed_staff pays opens calculates collects delay⟩

/-- Distinct jobs have a supervisor, and each waits for its first instance in it. -/
theorem Staffed.supervisor_eq {jobs : List (Job (Worker Number))} (made : s.jobs = .ok jobs)
    (staffed : s.Staffed jobs) : s.supervisor = .ok { slots := jobs.map fun j => { job := j } } := by
  rw [supervisor, made]
  show State.ofJobs jobs = _
  rw [State.ofJobs, State.repeated_eq_none_of_nodup staffed.distinct (by simp)]

/-- Sources whose values have the form of their fields give settings exactly if the settings are sound,
and otherwise the error for the first rule that is violated; every assignment of values has such sources.
Settings from any sources have a supervisor of the jobs that they ask for, and whatever that is told to
do, each of its sweeps begins at the genesis epoch with nothing paid. -/
theorem load_staffed (s : Settings) :
    (s.HasSpans → ∀ environment, (Sources.mk s.entries environment).settings.result "Settings" = .ok s) ∧
    (∀ src : Sources, src.settings.result "Settings" = .ok s →
      (load src = .ok s ↔ s.IsSound) ∧
      (¬ s.IsSound →
        ∃ message, s.Refuses message ∧
          load src = .error (.scheduler ⟨.configuration, .configuration, message, []⟩))) ∧
    ∀ src : Sources, load src = .ok s → s.stepDelayMillis < 2 ^ 1023 →
      ∃ jobs st, s.jobs = .ok jobs ∧ s.supervisor = .ok st ∧ st.slots.map (·.job) = jobs ∧ s.Staffed jobs ∧
        ∀ origin services ties script, ∃ sweep : Sweep Number, sweep.progress = .startingAt s.genesisEpoch ∧
          Chronicle (st.drive (s.setup origin services ties) script).journal Sweep.name
            (Machine.begin (Worker.sweep sweep)) := by
  refine ⟨settings_given, fun src typed => ?_, fun src loaded small => ?_⟩
  · rcases load_spec typed with ⟨loaded, sound⟩ | ⟨message, refused, refuses⟩
    · exact ⟨iff_of_true loaded sound, fun unsound => absurd sound unsound⟩
    · refine ⟨iff_of_false ?_ refuses.not_isSound, fun _ => ⟨message, refuses, refused⟩⟩
      rw [refused]
      exact nofun
  · obtain ⟨jobs, made, staffed⟩ := exists_jobs (isSound_of_load loaded).schedules small le_rfl
    have supervised := staffed.supervisor_eq made
    refine ⟨jobs, _, made, supervised, by simp [Function.comp_def], staffed, ?_⟩
    intro origin services ties script
    obtain ⟨delay, chronicle⟩ := chronicle_sweep supervised origin services ties script
    exact ⟨_, rfl, chronicle⟩

/-- Settings for the main network, with a schedule for the collector. -/
def hosted : Settings where
  environment := "prod"
  ledgerRpc := "https://ledger.example"
  solanaRpc := "https://solana.example"
  collectSchedule := "0 4 * * 1"

/-- The same with two settings that are no schedules, and without an endpoint. -/
def misspelt : Settings where
  environment := "prod"
  ledgerRpc := "https://ledger.example"
  calculateSchedule := "every hour"
  collectSchedule := "60 * * * *"

/-- Settings for the main network have their supervisor; the others are refused for their schedules. -/
theorem load_staffed_hosted :
    load ⟨hosted.entries, [("ENV", "dev")]⟩ = .ok hosted ∧
      (∃ st, hosted.supervisor = .ok st ∧ Collector.name ∈ st.names) ∧
      ∃ message, misspelt.Refuses message ∧
        load ⟨misspelt.entries, []⟩ = .error (.scheduler ⟨.configuration, .configuration, message, []⟩) := by
  obtain ⟨given, guard, staff⟩ := load_staffed hosted
  obtain ⟨given', guard', -⟩ := load_staffed misspelt
  have spans : hosted.HasSpans := ⟨_, _, _, rfl, rfl, rfl⟩
  have spans' : misspelt.HasSpans := ⟨_, _, _, rfl, rfl, rfl⟩
  have loaded := (guard _ (given spans [("ENV", "dev")])).1.mpr (by decide +kernel)
  obtain ⟨jobs, st, -, supervised, slots, staffed, -⟩ := staff _ loaded (by decide +kernel)
  have names : st.names = jobs.map (·.name) := by
    rw [← slots, List.map_map]
    rfl
  refine ⟨loaded, ⟨st, supervised, ?_⟩, (guard' _ (given' spans' [])).2 (by decide +kernel)⟩
  rw [names]
  exact staffed.collector.mpr (by decide +kernel)

end Settler.Settings
