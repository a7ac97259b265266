import Settler.Proofs.Supervisor.Health
import Settler.Supervisor.Report

/-!
What the running flag of a job tells.

The flag is raised when an instance begins and lowered when the instance ends, but for one way to end: an
instance that is told to stop takes its run with it and leaves the flag as it is (`Slot.Shows.left`).
A stop lowers all flags afterwards. So the flag of a job is up exactly while an instance is at work, or
while one that ended as told has left it up (`State.Strayed`).
-/

namespace Settler.Supervisor

open Settler.Calendar Relation

variable {ω δ : Type}

namespace Slot

/-- The slot has an instance at work. -/
def isAtWork (t : Slot ω) : Bool := t.live?.any fun l => l.phase.isBusy

/-- What the flag of a slot can tell after a move of its run. -/
inductive Shows (t : Slot ω) : Prop where
  | works (busy : t.isAtWork) (flag : t.health.running)
  | clear (idle : t.isAtWork = false) (flag : t.health.running = false)
      (untold : t.run ≠ some (.ended (.error .cancelled)))
  /-- The instance ended as told to stop, and left the flag up. -/
  | left (idle : t.isAtWork = false) (flag : t.health.running)
      (told : t.run = some (.ended (.error .cancelled)))

theorem isAtWork_of_live {t : Slot ω} {l : Live ω} (live : t.live? = some l) :
    t.isAtWork = l.phase.isBusy := by
  rw [isAtWork, live, Option.any_some]

theorem isAtWork_of_not_running {t : Slot ω} (idle : t.isRunning = false) : t.isAtWork = false := by
  have dead : t.live? = none := by simpa [isRunning] using idle
  rw [isAtWork, dead, Option.any_none]

variable {s s' : Slot ω} {l : Live ω} {events : List Event}

theorem build_ne_error (builds : ∀ n, ∃ w, s.job.build n = .ok w) {f : Fault} :
    s.job.build s.built ≠ .error f := by
  obtain ⟨w, built⟩ := builds s.built
  rw [built]
  exact nofun

theorem Hears.isBusy {w : ω} {r : Reply} (hears : s.Hears l w r events) : l.phase.isBusy := by
  cases hears with
  | rested phase => rw [phase]; rfl
  | heard phase => rw [phase]; rfl

theorem Hears.ending_eq [Machine ω δ] {w : ω} {r : Reply} (hears : s.Hears l w r events) :
    s.ending? l = Supervisor.ending? (Machine.resume w r) := by
  cases hears with
  | rested phase => simp only [ending?, phase]
  | heard phase => simp only [ending?, phase]

theorem ending_eq_of_fresh [Machine ω δ] {w : ω} (fresh : l.phase.isBusy = false)
    (build : s.job.build s.built = .ok w) : s.ending? l = Supervisor.ending? (Machine.begin w) := by
  cases phase : l.phase with
  | created => simp only [ending?, phase, build]
  | backingOff => simp only [ending?, phase, build]
  | _ => rw [phase] at fresh; cases fresh

section

variable [Seconds δ] {su : Setup δ} {o : Occasion} {m : Moment}

theorem Closes.shows {ending : Ending} (flag : s.health.running)
    (closes : Closes su o m s l ending s' events) : s'.Shows := by
  cases closes with
  | told => exact .left rfl flag rfl
  | exits => exact .clear rfl rfl nofun
  | restarts => exact .clear rfl rfl nofun
  | givesUp => exact .clear rfl rfl nofun

theorem Closes.runs {ending : Ending} (closes : Closes su o m s l ending s' events) :
    s'.health.runs = s.health.runs := by
  cases closes <;> rfl

theorem Closes.cause {ending : Ending} (closes : Closes su o m s l ending s' events)
    (told : s'.run = some (.ended (.error .cancelled))) : ending = .fault .cancelled := by
  cases closes with
  | told => rfl
  | _ => cases told

theorem Goes.shows {t : Turn ω δ} (flag : s.health.running) (goes : Goes su o m s l t s' events) :
    s'.Shows := by
  cases goes with
  | rests => exact .works rfl flag
  | awaits => exact .works rfl flag
  | ends _ closes => exact closes.shows flag

theorem Goes.runs {t : Turn ω δ} (goes : Goes su o m s l t s' events) :
    s'.health.runs = s.health.runs := by
  cases goes with
  | rests => rfl
  | awaits => rfl
  | ends _ closes => exact closes.runs

theorem Goes.cause {t : Turn ω δ} (goes : Goes su o m s l t s' events)
    (told : s'.run = some (.ended (.error .cancelled))) :
    Supervisor.ending? t = some (.fault .cancelled) := by
  cases goes with
  | ends ends closes => rw [ends, closes.cause told]
  | _ => cases told

variable [Machine ω δ] (builds : ∀ n, ∃ w, s.job.build n = .ok w) (live : s.live? = some l)
include builds live

/-- While the flag is up for an instance at work, a move leaves it right, or as one that was told to stop
left it. -/
theorem Moves.shows (honest : s.isAtWork → s.health.running) (moves : Moves su o m s l s' events) :
    s'.Shows := by
  cases moves with
  | unbuilt _ build => exact absurd build (build_ne_error builds)
  | launched _ _ goes => exact goes.shows rfl
  | resumed hears goes => exact goes.shows (honest ((isAtWork_of_live live).trans hears.isBusy))
  | failed phase closes =>
    have busy : s.isAtWork := by rw [isAtWork_of_live live, phase]; rfl
    exact closes.shows (honest busy)

/-- Where no instance is at work, a move begins one. -/
theorem Moves.begins (idle : s.isAtWork = false) (moves : Moves su o m s l s' events) :
    s'.health.runs = s.health.runs + 1 := by
  rw [isAtWork_of_live live] at idle
  cases moves with
  | unbuilt _ build => exact absurd build (build_ne_error builds)
  | launched _ _ goes => exact goes.runs
  | resumed hears _ => rw [hears.isBusy] at idle; cases idle
  | failed phase _ => rw [phase] at idle; cases idle

omit live in
/-- Where the run ends as told to stop, it is the instance that ends so. -/
theorem Moves.cause (moves : Moves su o m s l s' events)
    (told : s'.run = some (.ended (.error .cancelled))) : s.ending? l = some (.fault .cancelled) := by
  cases moves with
  | unbuilt _ build => exact absurd build (build_ne_error builds)
  | launched fresh build goes => exact (ending_eq_of_fresh fresh build).trans (goes.cause told)
  | resumed hears goes => exact hears.ending_eq.trans (goes.cause told)
  | failed phase closes => simpa only [ending?, phase] using congrArg some (closes.cause told)

end

/-! ### Slots -/

/-- What an act other than a stop can do to the flag of a job: nothing, or its run makes a move. -/
inductive Shift [Machine ω δ] (t t' : Slot ω) : Prop where
  | same (flag : t'.health.running = t.health.running) (work : t'.isAtWork = t.isAtWork)
      (runs : t'.health.runs = t.health.runs) (live : t.isRunning → t'.isRunning)
  | moved {l : Live ω} (live : t.live? = some l)
      (begins : t.isAtWork = false → t'.health.runs = t.health.runs + 1) (shows : t'.Shows)
      (cause : t'.run = some (.ended (.error .cancelled)) → t.ending? l = some (.fault .cancelled))

/-- A run that was live and has ended as told to stop made a move in which its instance ended so. -/
theorem Shift.of_told [Machine ω δ] {t t' : Slot ω} (shift : t.Shift (δ := δ) t') (running : t.isRunning)
    (told : t'.run = some (.ended (.error .cancelled))) :
    ∃ l, t.live? = some l ∧ t.ending? l = some (.fault .cancelled) ∧ t'.health.running := by
  cases shift with
  | same flag work runs live =>
    have live' := live running
    rw [isRunning, live?, told] at live'
    cases live'
  | moved live begins shows cause =>
    cases shows with
    | works busy flag => exact ⟨_, live, cause told, flag⟩
    | clear _ _ untold => exact absurd told untold
    | left _ flag => exact ⟨_, live, cause told, flag⟩

end Slot

namespace State

variable [Machine ω δ] [Seconds δ] {su : Setup δ} {m : Moment} {s s' : State ω} {t t' : Slot ω}

theorem Fate.shift {events : List Event} (fate : Fate su m s t t' events)
    (builds : ∀ n, ∃ w, t.job.build n = .ok w) (honest : t.isAtWork → t.health.running) :
    t.Shift (δ := δ) t' := by
  cases fate with
  | moved live moves =>
    exact .moved live (moves.begins builds live) (moves.shows builds live honest) (moves.cause builds)
  | other => exact .same rfl rfl rfl id
  | attempted tried =>
    cases tried with
    | skipped => exact .same rfl rfl rfl id
    | started idle => exact .same rfl (Slot.isAtWork_of_not_running idle).symm rfl fun _ => rfl
  | otherAttempted => exact .same rfl rfl rfl id
  | refreshed => exact .same rfl rfl rfl id
  | arrived turn now =>
    unfold arriveSlot
    split
    · next run =>
      have live := Slot.live_iff.mpr run
      exact .same rfl (Slot.isAtWork_of_live live).symm rfl fun _ => rfl
    · exact .same rfl rfl rfl id
  | left => exact .same rfl rfl rfl id
  | noteTick => exact .same rfl rfl rfl id
  | noteStart => exact .same rfl rfl rfl id

/-! ### Flags that are left up -/

/-- An instance of the job ended as told to stop, although nothing was stopped; and since then nothing
was, and no instance of the job began. -/
inductive Strayed (su : Setup δ) (st : State ω) (name : String) : State ω → Prop where
  | told {s s' : State ω} {t : Slot ω} (acts : Acts su st s) (live : s.isRunning name)
      (going : Going su s s') (found : s'.slot? name = some t)
      (ended : t.run = some (.ended (.error .cancelled))) : Strayed su st name s'
  | kept {s s' : State ω} (before : Strayed su st name s) (going : Going su s s')
      (runs : (s'.slot? name).map (·.health.runs) = (s.slot? name).map (·.health.runs)) :
      Strayed su st name s'

variable {jobs : List (Job ω)} {st : State ω} {name : String}

theorem Strayed.acts (h : Strayed su st name s) : Acts su st s := by
  induction h with
  | told acts _ going _ _ => exact acts.tail (going.act su)
  | kept _ going _ ih => exact ih.tail (going.act su)

section

variable (made : ofJobs jobs = .ok st) (builds : ∀ job ∈ jobs, ∀ n, ∃ w, job.build n = .ok w)
include made builds

/-- What an act other than a stop does to the flag of a job, if flags are up while instances are at work. -/
theorem exists_shift (acts : Acts su st s) (clock : su.moment s.now = .ok m)
    (honest : ∀ t ∈ s.slots, t.isAtWork → t.health.running) (going : Going su s s')
    (found' : s'.slot? name = some t') : ∃ t, s.slot? name = some t ∧ t.Shift (δ := δ) t' := by
  have documented := documented_acts made acts
  have named : name ∈ s.names := by
    rw [← documented.names_act (going.act su)]
    exact mem_names_iff.mpr ⟨t', found'⟩
  obtain ⟨t, found⟩ := mem_names_iff.mp named
  have mem := mem_of_slot found
  have job : t.job ∈ jobs := documented.inOrder ▸ List.mem_map.mpr ⟨t, mem, rfl⟩
  obtain ⟨t₁, events, found₁, -, fate⟩ := fated_going found clock going
  obtain rfl := Option.some.inj (found'.symm.trans found₁)
  exact ⟨t, found, fate.shift (builds t.job job) (honest t mem)⟩

/-- While an instance is at work, the flag of its job is up. -/
theorem running_of_atWork (acts : Acts su st s) (clock : su.moment s.now = .ok m) :
    ∀ t ∈ s.slots, t.isAtWork → t.health.running := by
  induction acts generalizing m with
  | refl =>
    have fresh : ∀ job ∈ jobs, Slot.isAtWork { job } → Health.running {} := fun _ _ work => nomatch work
    exact forall_slots_ofJobs (P := fun _ t => t.isAtWork → t.health.running) made fresh
  | @tail s s' before act ih =>
    intro t' mem' work
    obtain ⟨m₀, clock₀⟩ := Setup.moment_of_later (now_le_of_act act) clock
    rcases act.going_or_stop with going | rfl
    · have distinct := (documented_acts made (before.tail act)).nodup_slots
      obtain ⟨t, found, shift⟩ :=
        exists_shift made builds before clock₀ (ih clock₀) going (slot_of_mem distinct mem')
      cases shift with
      | same flag same => exact flag.trans (ih clock₀ t (mem_of_slot found) (same ▸ work))
      | moved live begins shows =>
        cases shows with
        | works busy flag => exact flag
        | clear idle => rw [idle] at work; cases work
        | left idle flag => exact flag
    · obtain ⟨t, -, rfl⟩ := List.mem_map.mp mem'
      cases work

/-- What an act other than a stop did to the flag of a job. -/
theorem shift_of_going (acts : Acts su st s) (going : Going su s s') (clock : su.moment s'.now = .ok m)
    (found' : s'.slot? name = some t') : ∃ t, s.slot? name = some t ∧ t.Shift (δ := δ) t' := by
  obtain ⟨m₀, clock₀⟩ := Setup.moment_of_later (now_le_of_going going) clock
  exact exists_shift made builds acts clock₀ (running_of_atWork made builds acts clock₀) going found'

/-- A flag that is up without an instance at work was left up. -/
theorem strayed_of_running (acts : Acts su st s) (clock : su.moment s.now = .ok m) :
    ∀ t ∈ s.slots, t.health.running → t.isAtWork ∨ Strayed su st t.job.name s := by
  induction acts generalizing m with
  | refl =>
    have fresh : ∀ job ∈ jobs, Health.running {} → Slot.isAtWork { job } ∨ Strayed su st job.name st :=
      fun _ _ flag => nomatch flag
    exact forall_slots_ofJobs
      (P := fun _ t => t.health.running → t.isAtWork ∨ Strayed su st t.job.name st) made fresh
  | @tail s s' before act ih =>
    intro t' mem' flag'
    obtain ⟨m₀, clock₀⟩ := Setup.moment_of_later (now_le_of_act act) clock
    rcases act.going_or_stop with going | rfl
    · have distinct := (documented_acts made (before.tail act)).nodup_slots
      have found' := slot_of_mem distinct mem'
      obtain ⟨t, found, shift⟩ := shift_of_going made builds before going clock found'
      cases shift with
      | same flag work runs =>
        rcases ih clock₀ t (mem_of_slot found) (flag ▸ flag') with busy | strayed
        · exact .inl (work.trans busy)
        · rw [name_of_slot found] at strayed
          exact .inr (.kept strayed going (by rw [found, found', Option.map_some, Option.map_some, runs]))
      | moved live begins shows =>
        cases shows with
        | works busy => exact .inl busy
        | clear idle flag => rw [flag] at flag'; cases flag'
        | left idle flag told =>
          have running : s.isRunning t'.job.name := by
            rw [isRunning, found, Option.any_some, Slot.isRunning, live, Option.isSome_some]
          exact .inr (.told before running going found' told)
    · obtain ⟨t, -, rfl⟩ := List.mem_map.mp mem'
      cases flag'

/-- While a flag is left up, it is up and no instance of the job is at work. -/
theorem Strayed.left (strayed : Strayed su st name s) (clock : su.moment s.now = .ok m)
    (found : s.slot? name = some t) : t.health.running ∧ t.isAtWork = false := by
  induction strayed generalizing m t with
  | @told s s' t' acts running going found' ended =>
    obtain rfl := Option.some.inj (found'.symm.trans found)
    obtain ⟨t₀, found₀, shift⟩ := shift_of_going made builds acts going clock found
    rw [isRunning, found₀, Option.any_some] at running
    obtain ⟨-, -, -, flag⟩ := shift.of_told running ended
    exact ⟨flag, by rw [Slot.isAtWork, Slot.live?, ended]; rfl⟩
  | @kept s s' before going runs ih =>
    obtain ⟨m₀, clock₀⟩ := Setup.moment_of_later (now_le_of_going going) clock
    obtain ⟨t₀, found₀, shift⟩ := shift_of_going made builds before.acts going clock found
    obtain ⟨flag₀, idle₀⟩ := ih clock₀ found₀
    cases shift with
    | same flag work => exact ⟨flag.trans flag₀, work.trans idle₀⟩
    | moved live begins =>
      rw [found, found₀, Option.map_some, Option.map_some, begins idle₀] at runs
      simp at runs

end

end State

/-! ### Workers that only a stop tells to stop -/

/-- The job's workers never end by themselves as if they were told to stop. -/
def Job.NeverTold [Machine ω δ] (job : Job ω) : Prop :=
  ∀ (n : Nat) (w : ω) (i : Instance) (xs : List Exchange) (t : Turn ω δ), job.build n = .ok w →
    Talk i (Machine.begin w) xs t → t.next ≠ .fail .cancelled

/-- The services never end a worker as if it was told to stop. -/
def Setup.NeverTells (su : Setup δ) : Prop :=
  ∀ earlier out, (su.echo earlier out).outcome ≠ .error .cancelled

theorem next_of_told {t : Turn ω δ} (told : ending? t = some (.fault .cancelled)) :
    t.next = .fail .cancelled := by
  unfold ending? at told
  split at told
  · cases told
  · next next => cases told; exact next
  · cases told

/-- No instance ends as told to stop if neither its worker nor the services ever make it. -/
theorem Slot.ending_ne_told [Machine ω δ] {su : Setup δ} {j : Journal} {s : Slot ω} {l : Live ω}
    (builds : ∀ n, ∃ w, s.job.build n = .ok w) (documented : s.Documented j) (echoed : s.Echoed su)
    (live : s.live? = some l) (worker : s.job.NeverTold (δ := δ)) (services : su.NeverTells) :
    s.ending? l ≠ some (.fault .cancelled) := by
  intro told
  have fresh : l.phase.isBusy = false → False := fun idle => by
    obtain ⟨w, build⟩ := builds s.built
    rw [ending_eq_of_fresh idle build] at told
    exact worker _ _ s.current _ _ build .begin (next_of_told told)
  have talks : ∀ {w r events}, s.Hears l w r events → False := fun hears => by
    obtain ⟨w₀, i, xs, build, talk⟩ := documented.talk_hears live hears
    rw [hears.ending_eq] at told
    exact worker _ _ _ _ _ build talk (next_of_told told)
  cases phase : l.phase with
  | created => exact fresh (by rw [phase]; rfl)
  | backingOff => exact fresh (by rw [phase]; rfl)
  | resting w => exact talks (.rested phase)
  | awaiting w outcome notes abandoned =>
    cases outcome with
    | ok reply => exact talks (.heard phase)
    | error f =>
      obtain rfl : f = .cancelled := by simpa [ending?, phase] using told
      have echoes := echoed l live
      rw [phase] at echoes
      obtain ⟨earlier, out, outcome, -⟩ := echoes
      exact services earlier out outcome.symm

namespace State

variable [Machine ω δ] [Seconds δ] {su : Setup δ} {m : Moment} {s : State ω} {jobs : List (Job ω)}
  {st : State ω}

/-- Where only a stop tells workers to stop, no flag is left up. -/
theorem not_strayed (made : ofJobs jobs = .ok st) (builds : ∀ job ∈ jobs, ∀ n, ∃ w, job.build n = .ok w)
    (workers : ∀ job ∈ jobs, job.NeverTold (δ := δ)) (services : su.NeverTells) {name : String}
    (clock : su.moment s.now = .ok m) : ¬ Strayed su st name s := by
  intro strayed
  induction strayed generalizing m with
  | @told s s' t' acts running going found ended =>
    obtain ⟨m₀, clock₀⟩ := Setup.moment_of_later (now_le_of_going going) clock
    obtain ⟨t, found₀, shift⟩ := shift_of_going made builds acts going clock found
    rw [isRunning, found₀, Option.any_some] at running
    obtain ⟨l, live, told, -⟩ := shift.of_told running ended
    have documented := documented_acts made acts
    have mem := mem_of_slot found₀
    have job : t.job ∈ jobs := documented.inOrder ▸ List.mem_map.mpr ⟨t, mem, rfl⟩
    have echoed : ∀ t ∈ s.slots, t.Echoed su :=
      keeps_echoed.acts made (fun _ _ => Slot.echoed_of_not_live rfl)
        (fun _ _ _ => Slot.echoed_of_not_live rfl) acts clock₀
    exact Slot.ending_ne_told (builds t.job job) (documented.slots t mem) (echoed t mem) live
      (workers t.job job) services told
  | kept before going _ ih =>
    obtain ⟨m₀, clock₀⟩ := Setup.moment_of_later (now_le_of_going going) clock
    exact ih clock₀

/-! ### In the midst of a stop -/

/-- The jobs whose runs are the first that a stop tells to stop. -/
def told (s : State ω) (count : Nat) : List String := (s.stopOrder.take count).map (·.job.name)

/-- A stop that has come so far: the schedule loop and the first of the live runs have ended as told. The
health of the jobs is seen to at the end. -/
def halting (s : State ω) (count : Nat) : State ω :=
  let notes := (s.stopOrder.take count).flatMap abandonedNotes
  State.record { s with
    loop := none
    slots := s.slots.map fun t =>
      if t.job.name ∈ s.told count then t.ended (.error .cancelled) else t } (notes.map Event.note)

/-- A stop tells all live runs to stop, and then sees to the health of the jobs. -/
theorem stop_eq_halting (s : State ω) :
    s.stop = State.record { s.halting s.stopOrder.length with
      slots := (s.halting s.stopOrder.length).slots.map stopped } [.stopped] := by
  have slots : (s.halting s.stopOrder.length).slots.map stopped = s.slots.map stopped := by
    simp only [halting, record, List.map_map]
    refine List.map_congr_left fun t _ => ?_
    rw [Function.comp_apply]
    split <;> rfl
  rw [slots]
  simp only [stop, halting, record, List.take_length, Journal.record_append]

/-- In the midst of a stop the flag of a job is as before, and an instance is at work in what is not yet
told to stop. -/
theorem exists_of_halting {count : Nat} {t' : Slot ω} (mem' : t' ∈ (s.halting count).slots) :
    ∃ t ∈ s.slots, t'.job = t.job ∧ t'.health = t.health ∧
      (t'.isAtWork ↔ t.isAtWork ∧ t.job.name ∉ s.told count) := by
  obtain ⟨t, mem, rfl⟩ := List.mem_map.mp mem'
  refine ⟨t, mem, ?_⟩
  split
  · next told => exact ⟨rfl, rfl, by simp [told, Slot.isAtWork, Slot.live?, Slot.ended]⟩
  · next untold => exact ⟨rfl, rfl, by simp [untold]⟩

/-! ### Every run -/

/-- What the flags of the jobs tell, now and in the midst of a stop. -/
structure Flagged (su : Setup δ) (st s : State ω) : Prop where
  /-- A flag is up while an instance is at work, or as one has left it that ended as told to stop. -/
  running : ∀ t ∈ s.slots, t.health.running ↔ t.isAtWork ∨ Strayed su st t.job.name s
  apart : ∀ t ∈ s.slots, t.isAtWork → ¬ Strayed su st t.job.name s
  /-- Until a stop is over, the flags of those that it has told to stop are up, too. -/
  halting : ∀ count, ∀ t ∈ (s.halting count).slots, t.health.running ↔
    t.isAtWork ∨ Strayed su st t.job.name s ∨
      ∃ u ∈ s.stopOrder.take count, u.job.name = t.job.name ∧ u.isAtWork
  /-- When it has told all of them, the stop sees to the health of the jobs and is over. -/
  halted : s.stop = State.record { s.halting s.stopOrder.length with
    slots := (s.halting s.stopOrder.length).slots.map State.stopped } [.stopped]
  /-- Then none is up. -/
  stopped : ∀ t ∈ s.stop.slots, t.health.running = false ∧ t.isAtWork = false

theorem flagged (made : ofJobs jobs = .ok st) (builds : ∀ job ∈ jobs, ∀ n, ∃ w, job.build n = .ok w)
    (acts : Acts su st s) (clock : su.moment s.now = .ok m) : Flagged su st s := by
  have distinct := (documented_acts made acts).nodup_slots
  have running : ∀ t ∈ s.slots, t.health.running ↔ t.isAtWork ∨ Strayed su st t.job.name s := by
    intro t mem
    constructor
    · exact strayed_of_running made builds acts clock t mem
    · rintro (work | strayed)
      · exact running_of_atWork made builds acts clock t mem work
      · exact (strayed.left made builds clock (slot_of_mem distinct mem)).1
  refine ⟨running, ?_, ?_, s.stop_eq_halting, ?_⟩
  · intro t mem work strayed
    have idle := (strayed.left made builds clock (slot_of_mem distinct mem)).2
    rw [idle] at work
    cases work
  · intro count t' mem'
    obtain ⟨t, mem, job, health, work⟩ := exists_of_halting mem'
    have told : (∃ u ∈ s.stopOrder.take count, u.job.name = t.job.name ∧ u.isAtWork) ↔
        t.isAtWork ∧ t.job.name ∈ s.told count := by
      constructor
      · rintro ⟨u, listed, same, busy⟩
        have there := mem_of_stopOrder (List.mem_of_mem_take listed)
        obtain rfl : u = t := List.inj_on_of_nodup_map distinct there mem same
        exact ⟨busy, List.mem_map.mpr ⟨u, listed, rfl⟩⟩
      · rintro ⟨busy, listed⟩
        obtain ⟨u, first, same⟩ := List.mem_map.mp listed
        have there := mem_of_stopOrder (List.mem_of_mem_take first)
        obtain rfl : u = t := List.inj_on_of_nodup_map distinct there mem same
        exact ⟨u, first, rfl, busy⟩
    rw [health, job, running t mem, work, told]
    tauto
  · intro t' mem'
    obtain ⟨t, -, rfl⟩ := List.mem_map.mp mem'
    exact ⟨rfl, rfl⟩

/-- Whatever a supervisor is told to do, the flag of a job is up exactly while an instance is at work, or as
one has left it that ended as told to stop, in every state between moves and in the midst of a stop: jobs
whose workers can always be built, on a clock that has not left the calendar. Where only a stop tells
workers to stop, a job without a live run has its flag down. -/
theorem flagged_of_script {st : State ω} (h : ofJobs jobs = .ok st)
    (builds : ∀ job ∈ jobs, ∀ n, ∃ w, job.build n = .ok w) (su : Setup δ) :
    (∀ script : List (Nat × Command δ), Acts su st (st.drive su script)) ∧
      ∀ s, Acts su st s → (∃ m, su.moment s.now = .ok m) →
        Flagged su st s ∧
          ((∀ job ∈ jobs, job.NeverTold (δ := δ)) → su.NeverTells → ∀ t ∈ s.slots,
            (t.health.running ↔ t.isAtWork) ∧ (t.isRunning = false → t.health.running = false)) := by
  refine ⟨fun script => acts_drive su script st, ?_⟩
  rintro s acts ⟨m, clock⟩
  have flags := flagged h builds acts clock
  refine ⟨flags, fun workers services t mem => ?_⟩
  have exact : t.health.running ↔ t.isAtWork :=
    (flags.running t mem).trans (or_iff_left (not_strayed h builds workers services clock))
  refine ⟨exact, fun idle => ?_⟩
  rwa [← Bool.not_eq_true, exact, Bool.not_eq_true, Slot.isAtWork_of_not_running]

end State

/-- A job whose every instance ends at once as if it was told to stop. -/
def Job.quitting : Job (Script.Part Micros) where
  name := "quitting"
  build _ := .ok { ending := .fail .cancelled }

/-- The job is triggered and ends at once: it has no live run, and its flag is up until a stop. A job that
crashes and is restarted has its flag down while it waits for that. -/
theorem State.flagged_of_script_quitting :
    (∃ st, State.ofJobs [Job.quitting] = .ok st ∧
      let s := st.drive Setup.rehearsal [(9, .trigger "quitting" "manual"), (9, .settle)]
      Strayed Setup.rehearsal st "quitting" s ∧ ∀ t ∈ s.stop.slots, t.health.running = false) ∧
    ∃ st, State.ofJobs [Job.mending] = .ok st ∧
      let s := st.drive Setup.rehearsal [(9, .trigger "mending" "manual"), (9, .settle)]
      ∀ t ∈ s.slots, t.health.running ↔ t.isAtWork := by
  refine ⟨⟨_, rfl, ?_⟩, _, rfl, ?_⟩
  · intro s
    have made : State.ofJobs [Job.quitting] = .ok _ := rfl
    have builds : ∀ job ∈ [Job.quitting], ∀ n, ∃ w, job.build n = .ok w :=
      List.forall_mem_singleton.mpr fun _ => ⟨_, rfl⟩
    obtain ⟨driven, all⟩ := State.flagged_of_script made builds Setup.rehearsal
    have clock : ∃ m, Setup.rehearsal.moment s.now = .ok m := ⟨_, rfl⟩
    obtain ⟨flags, -⟩ := all s (driven _) clock
    have told : (s.slot? "quitting").map (fun t => (t.health.running, t.isAtWork)) =
        some (true, false) := by
      decide +kernel
    obtain ⟨t, found, both⟩ := Option.map_eq_some_iff.mp told
    obtain ⟨running, idle⟩ := Prod.mk.inj both
    have left := (flags.running t (mem_of_slot found)).mp running
    rw [idle, name_of_slot found] at left
    exact ⟨left.resolve_left Bool.false_ne_true, fun t mem => (flags.stopped t mem).1⟩
  · intro s
    have made : State.ofJobs [Job.mending] = .ok _ := rfl
    obtain ⟨driven, all⟩ := State.flagged_of_script made
      (List.forall_mem_singleton.mpr isTame_mending.builds) Setup.rehearsal
    have clock : ∃ m, Setup.rehearsal.moment s.now = .ok m := ⟨_, rfl⟩
    have workers : ∀ job ∈ [Job.mending], job.NeverTold (δ := Micros) :=
      List.forall_mem_singleton.mpr fun _ _ _ _ _ build talk => (isTame_mending.turns build talk).fault
    exact fun t mem => ((all s (driven _) clock).2 workers isTame_rehearsal.outcome t mem).1

/-- The instance is dead, and the report says that it is running. -/
theorem State.quitting_reported :
    ∃ st, State.ofJobs [Job.quitting] = .ok st ∧
      let s := st.drive Setup.rehearsal [(9, .trigger "quitting" "manual"), (9, .settle)]
      s.isRunning "quitting" = false ∧
        s.slots.map (fun t => (t.isAtWork, t.health.running)) = [(false, true)] ∧
        s.slots.map (fun t => t.report.get? "running") = [some (.bool true)] := by
  refine ⟨_, rfl, by decide +kernel, by decide +kernel, rfl⟩

end Settler.Supervisor
