import Settler.Proofs.Supervisor.Fates
import Settler.Proofs.Supervisor.Single
import Settler.Proofs.Text.Strings
import Settler.Script.Worker

/-!
What health, counters and triggers tell of a job's runs.

As long as nothing is stopped they agree at every moment between moves (`Reconciled`). The books are kept
by stages: a job is idle, an instance is due, or one is at work (`Reckoned`); and whatever happens takes
books that balance to books that balance.
-/

namespace Settler

variable {ω δ : Type}

/-- A turn of a worker that ends by a crash only if a fault escapes from it, and not as if it was told to
stop; and its notes leave to the supervisor what the supervisor counts. -/
structure Turn.IsTame (t : Turn ω δ) : Prop where
  exit : t.next ≠ .exit .crashed
  fault : t.next ≠ .fail .cancelled
  notes : ∀ n ∈ t.notes, (Event.note n).isPlain

namespace Supervisor

open Calendar

/-- A job whose workers can always be built, and whose turns are tame whatever they are told. -/
structure Job.IsTame [Machine ω δ] (job : Job ω) : Prop where
  builds : ∀ n, ∃ w, job.build n = .ok w
  turns : ∀ {n : Nat} {w : ω} {i : Instance} {xs : List Exchange} {t : Turn ω δ},
    job.build n = .ok w → Talk i (Machine.begin w) xs t → t.IsTame

/-- Services that never tell a worker to stop, and whose notes are plain. -/
structure Setup.IsTame (su : Setup δ) : Prop where
  outcome : ∀ earlier out, (su.echo earlier out).outcome ≠ .error .cancelled
  notes : ∀ earlier out, ∀ n ∈ (su.echo earlier out).notes, (Event.note n).isPlain

/-- An instance exits normally or on a failure that it knows, or a fault other than a stop escapes. -/
def Ending.IsTame (ending : Ending) : Prop := ending ≠ .exit .crashed ∧ ending ≠ .fault .cancelled

theorem Ending.isTame_of_turn {t : Turn ω δ} (tame : t.IsTame) {ending : Ending}
    (ends : ending? t = some ending) : ending.IsTame := by
  unfold ending? at ends
  split at ends
  · next e next =>
    cases ends
    exact ⟨fun same => tame.exit (Ending.exit.inj same ▸ next), nofun⟩
  · next f next =>
    cases ends
    exact ⟨nofun, fun same => tame.fault (Ending.fault.inj same ▸ next)⟩
  · cases ends

theorem Ending.error_eq_iff {ending : Ending} (tame : ending.IsTame) :
    ending.error = "" ↔ ending.toExit ≠ .crashed := by
  cases ending with
  | exit e =>
    have final : e ≠ .crashed := fun crash => tame.1 (congrArg Ending.exit crash)
    simp [error, toExit, final]
  | fault f => simp [error, toExit, Fault.describe]

/-! ### Books -/

/-- A history and a health that agree, while so many instances are at work and so many are due. -/
structure Balanced (h : History) (x : Health) (working due : Nat) : Prop where
  triggers : h.accepted + x.skippedTriggers = h.triggers.length
  starts : h.starts = x.runs
  runs : x.runs + due = h.accepted + x.restarts
  exits : h.exits.length + working = x.runs
  crashes : h.exits.count .crashed = x.restarts + h.gaveUps
  last : ∀ e, h.exits.head? = some e → x.lastExit = some e ∧ (x.lastError = "" ↔ e ≠ .crashed)

/-- The books of a slot, by the stage of its run. -/
inductive Slot.Reckoned (h : History) (t : Slot ω) : Prop where
  | idle (dead : t.live? = none) (still : t.health.running = false) (books : Balanced h t.health 0 0)
  | due {l : Live ω} (live : t.live? = some l) (fresh : l.phase.isBusy = false)
      (still : t.health.running = false) (books : Balanced h t.health 0 1)
  | working {l : Live ω} (live : t.live? = some l) (busy : l.phase.isBusy)
      (running : t.health.running) (books : Balanced h t.health 1 0)

/-- While an instance is at work, its books are kept. -/
theorem Slot.Reckoned.of_busy {h : History} {t : Slot ω} (reckoned : t.Reckoned h) {l : Live ω}
    (live : t.live? = some l) (busy : l.phase.isBusy) : Balanced h t.health 1 0 ∧ t.health.running := by
  cases reckoned with
  | idle dead =>
    rw [live] at dead
    cases dead
  | due live' fresh =>
    cases live.symm.trans live'
    rw [busy] at fresh
    cases fresh
  | working live' busy' running books => exact ⟨books, running⟩

/-- While a run is live and none is at work, one is due. -/
theorem Slot.Reckoned.of_fresh {h : History} {t : Slot ω} (reckoned : t.Reckoned h) {l : Live ω}
    (live : t.live? = some l) (fresh : l.phase.isBusy = false) : Balanced h t.health 0 1 := by
  cases reckoned with
  | idle dead =>
    rw [live] at dead
    cases dead
  | due live' fresh' still books => exact books
  | working live' busy =>
    cases live.symm.trans live'
    rw [busy] at fresh
    cases fresh

namespace Balanced

variable {h : History} {x : Health} {due : Nat}

/-- An instance that is due begins. -/
theorem begun (books : Balanced h x 0 1) (m : Moment) :
    Balanced { h with starts := h.starts + 1 }
      { x with running := true, runs := x.runs + 1, lastStarted := some m } 1 0 where
  triggers := books.triggers
  starts := congrArg Nat.succ books.starts
  runs := books.runs
  exits := congrArg Nat.succ books.exits
  crashes := books.crashes
  last := books.last

/-- The instance at work ends, and another one is due if it crashed and its run is not given up. -/
theorem closed (books : Balanced h x 1 0) {ending : Ending} (tame : ending.IsTame) (m : Moment)
    (restarts gaveUps : Nat)
    (counted : restarts + gaveUps = if ending.toExit = .crashed then 1 else 0) :
    Balanced { h with exits := ending.toExit :: h.exits, gaveUps := h.gaveUps + gaveUps }
      { x with
        running := false
        restarts := x.restarts + restarts
        lastExit := some ending.toExit
        lastError := ending.error
        lastFinished := some m } 0 restarts where
  triggers := books.triggers
  starts := books.starts
  runs := by
    have runs := books.runs
    show x.runs + restarts = h.accepted + (x.restarts + restarts)
    omega
  exits := books.exits
  crashes := by
    have crashes := books.crashes
    rw [List.count_cons, crashes]
    simp only [beq_iff_eq]
    rw [← counted]
    omega
  last := by
    rintro e ⟨⟩
    exact ⟨rfl, Ending.error_eq_iff tame⟩

/-- Another trigger is skipped. -/
theorem skipped {working : Nat} (books : Balanced h x working due) :
    Balanced { h with triggers := false :: h.triggers }
      { x with skippedTriggers := x.skippedTriggers + 1 } working due where
  triggers := congrArg Nat.succ books.triggers
  starts := books.starts
  runs := books.runs
  exits := books.exits
  crashes := books.crashes
  last := books.last

/-- A trigger is accepted. -/
theorem accepted (books : Balanced h x 0 0) : Balanced { h with triggers := true :: h.triggers } x 0 1 where
  triggers := by
    have triggers := books.triggers
    simp only [History.accepted, List.count_cons_self, List.length_cons] at triggers ⊢
    omega
  starts := books.starts
  runs := by
    have runs := books.runs
    simp only [History.accepted, List.count_cons_self] at runs ⊢
    omega
  exits := books.exits
  crashes := books.crashes
  last := books.last

end Balanced

/-! ### Moves keep the books -/

namespace Slot

variable [Seconds δ] {su : Setup δ} {o : Occasion} {m : Moment} {h : History} {s s' : Slot ω}
  {l : Live ω} {events : List Event}

theorem foldl_cry (ending : Ending) (i : Instance) (job : String) (h : History) :
    (ending.cry i).foldl (·.add job) h = h := by
  cases ending <;> rfl

/-- The instance at work ends. -/
theorem Closes.reckoned (books : Balanced h s.health 1 0) {ending : Ending} (tame : ending.IsTame)
    (closes : Closes su o m s l ending s' events) :
    Reckoned (events.foldl (·.add s.job.name) h) s' := by
  cases closes with
  | told => exact absurd rfl tame.2
  | @exits e final =>
    have closed := books.closed tame m 0 0 (by simp [Ending.toExit, final])
    refine .idle rfl rfl ?_
    simpa [History.add, current, Slot.ended, Slot.closed, Ending.toExit] using closed
  | restarts untold crash granted =>
    have closed := books.closed tame m 1 0 (by simp [crash])
    refine .due rfl rfl rfl ?_
    rw [List.foldl_append, foldl_cry]
    simpa [History.add, current, Slot.waiting, Slot.closed, crash] using closed
  | givesUp untold crash refused =>
    have closed := books.closed tame m 0 1 (by simp [crash])
    refine .idle rfl rfl ?_
    rw [List.foldl_append, foldl_cry]
    simpa [History.add, current, Slot.ended, Slot.closed, crash] using closed

/-- A turn of the worker at work. -/
theorem Goes.reckoned (books : Balanced h s.health 1 0) (running : s.health.running) {t : Turn ω δ}
    (tame : t.IsTame) (goes : Goes su o m s l t s' events) :
    Reckoned (events.foldl (·.add s.job.name) h) s' := by
  cases goes with
  | rests rest => exact .working rfl rfl running books
  | awaits wants => exact .working rfl rfl running books
  | ends ends closes => exact closes.reckoned books (Ending.isTame_of_turn tame ends)

variable [Machine ω δ]

/-- A move of a live run. -/
theorem Moves.reckoned {j : Journal} (reckoned : Reckoned h s) (live : s.live? = some l)
    (documented : s.Documented j) (echoed : s.Echoed su) (tame : s.job.IsTame) (services : su.IsTame)
    (moves : Moves su o m s l s' events) : Reckoned (events.foldl (·.add s.job.name) h) s' := by
  cases moves with
  | unbuilt fresh build =>
    obtain ⟨w, built⟩ := tame.builds s.built
    rw [built] at build
    cases build
  | @launched w s' events fresh build goes =>
    have due := reckoned.of_fresh live fresh
    have gone := goes.reckoned (due.begun m) rfl (tame.turns (i := s.current) build .begin)
    have began : h.add s.job.name (.began (s.begun m).current) = { h with starts := h.starts + 1 } :=
      if_pos rfl
    rw [List.foldl_append, List.foldl_cons, List.foldl_nil, began, List.foldl_append,
      History.foldl_notes]
    exact gone
  | @resumed w r s' before events hears goes =>
    obtain ⟨w₀, i, xs, build, talk⟩ := documented.talk_hears live hears
    have busy : l.phase.isBusy ∧ before.foldl (·.add s.job.name) h = h := by
      cases hears with
      | rested phase => exact ⟨by rw [phase]; rfl, rfl⟩
      | heard phase =>
        refine ⟨by rw [phase]; rfl, ?_⟩
        rw [List.foldl_append, History.foldl_notes]
        rfl
    obtain ⟨books, running⟩ := reckoned.of_busy live busy.1
    rw [List.foldl_append, busy.2, List.foldl_append, History.foldl_notes]
    exact goes.reckoned books running (tame.turns build talk)
  | @failed w f notes abandoned s' events phase closes =>
    obtain ⟨books, -⟩ := reckoned.of_busy live (by rw [phase]; rfl)
    have echoes := echoed l live
    rw [phase] at echoes
    obtain ⟨earlier, out, outcome, -⟩ := echoes
    have told : f ≠ .cancelled := fun same =>
      services.outcome earlier out (outcome.symm.trans (congrArg Except.error same))
    have tame : Ending.IsTame (.fault f) := ⟨nofun, fun same => told (Ending.fault.inj same)⟩
    rw [List.foldl_append, History.foldl_notes, List.foldl_cons]
    exact closes.reckoned books tame

end Slot

/-! ### Triggers and waits keep the books -/

namespace Slot.Reckoned

variable {h : History} {t t' : Slot ω}

theorem attempted {su : Setup δ} (reckoned : t.Reckoned h) {reason : String}
    (tried : t.Attempted su t') :
    t'.Reckoned ([Event.triggered t.job.name reason (!t.isRunning)].foldl (·.add t.job.name) h) := by
  have noted : ∀ accepted, h.add t.job.name (.triggered t.job.name reason accepted)
      = { h with triggers := accepted :: h.triggers } := fun accepted => if_pos rfl
  rw [List.foldl_cons, List.foldl_nil, noted]
  cases tried with
  | skipped running =>
    rw [running]
    cases reckoned with
    | idle dead =>
      rw [isRunning, dead] at running
      cases running
    | due live fresh still books => exact .due live fresh still books.skipped
    | working live busy atWork books => exact .working live busy atWork books.skipped
  | started idle turn place =>
    rw [idle]
    cases reckoned with
    | idle dead still books => exact .due rfl rfl still books.accepted
    | due live =>
      rw [isRunning, live] at idle
      cases idle
    | working live =>
      rw [isRunning, live] at idle
      cases idle

theorem refreshed (reckoned : t.Reckoned h) (nextRun : Option Moment) :
    Reckoned h { t with health.nextRun := nextRun } := by
  have same : ∀ {working due : Nat}, Balanced h t.health working due →
      Balanced h { t.health with nextRun } working due :=
    fun books => ⟨books.triggers, books.starts, books.runs, books.exits, books.crashes, books.last⟩
  cases reckoned with
  | idle dead still books => exact .idle dead still (same books)
  | due live fresh still books => exact .due live fresh still (same books)
  | working live busy atWork books => exact .working live busy atWork (same books)

theorem arrived (reckoned : t.Reckoned h) (turn : Mover → Nat → Nat) (now : Instant) :
    (State.arriveSlot turn now t).Reckoned h := by
  unfold State.arriveSlot
  split
  · next l run =>
    have live : t.live? = some l := live_iff.mpr run
    cases reckoned with
    | idle dead =>
      rw [live] at dead
      cases dead
    | due live' fresh still books =>
      cases live.symm.trans live'
      exact .due rfl fresh still books
    | working live' busy atWork books =>
      cases live.symm.trans live'
      exact .working rfl busy atWork books
  · exact reckoned

/-- Which books are kept is told by whether the job has a live run and an instance at work. -/
theorem balanced (reckoned : t.Reckoned h) :
    Balanced h t.health (if t.health.running then 1 else 0)
        (if t.isRunning ∧ ¬ t.health.running then 1 else 0) ∧
      (t.health.running → t.isRunning) := by
  cases reckoned with
  | idle dead still books => simpa [still, isRunning, dead] using books
  | due live fresh still books => simpa [still, isRunning, live] using books
  | working live busy atWork books => simpa [atWork, isRunning, live] using books

end Slot.Reckoned

/-! ### Every run -/

namespace State

/-- The books of a job, while every note is plain. -/
def Booked (su : Setup δ) (j : Journal) (t : Slot ω) : Prop :=
  t.Echoed su ∧ t.Reckoned (j.history t.job.name) ∧ ∀ x ∈ j, x.event.isPlain

theorem booked_fresh (su : Setup δ) (job : Job ω) : Booked su [] { job } :=
  ⟨Slot.echoed_of_not_live rfl, .idle rfl rfl ⟨rfl, rfl, rfl, rfl, rfl, nofun⟩, List.forall_mem_nil _⟩

/-- The health of a job, its counters and its triggers agree. -/
structure Reconciled (s : State ω) (name : String) (x : Health) : Prop where
  triggers : (s.journal.history name).accepted + x.skippedTriggers
    = (s.journal.history name).triggers.length
  /-- Every accepted trigger and every restart made a run, but for one that is due. -/
  runs : x.runs + (if s.isRunning name ∧ ¬ x.running then 1 else 0)
    = (s.journal.history name).accepted + x.restarts
  starts : s.journal.counter name "start" = x.runs
  exits : s.journal.counter name "exit_normal" + s.journal.counter name "exit_faulted"
    + s.journal.counter name "exit_crashed" + (if x.running then 1 else 0) = x.runs
  crashes : s.journal.counter name "exit_crashed" = x.restarts + s.journal.counter name "gave_up"
  running : x.running → s.isRunning name
  last : ∀ e, (s.journal.history name).exits.head? = some e →
    x.lastExit = some e ∧ (x.lastError = "" ↔ e ≠ .crashed)

/-- Books that are kept reconcile. -/
theorem reconciled_of_booked {su : Setup δ} {s : State ω} {t : Slot ω} {name : String}
    (found : s.slot? name = some t) (booked : Booked su s.journal t) : Reconciled s name t.health := by
  obtain ⟨-, reckoned, plain⟩ := booked
  rw [name_of_slot found] at reckoned
  have counter : ∀ event : String, event ∈ milestones →
      s.journal.counter name event = (s.journal.history name).counted event :=
    fun event own => Journal.counter_of_plain plain name own
  have start := counter "start" (by decide)
  have normal := counter "exit_normal" (by decide)
  have faulted := counter "exit_faulted" (by decide)
  have crashed := counter "exit_crashed" (by decide)
  have gaveUp := counter "gave_up" (by decide)
  have running : s.isRunning name = t.isRunning := by
    rw [isRunning, found]
    rfl
  obtain ⟨books, live⟩ := reckoned.balanced
  refine ⟨books.triggers, ?_, start.trans books.starts, ?_, ?_, running ▸ live, books.last⟩
  · rw [running]
    exact books.runs
  · rw [normal, faulted, crashed]
    exact (congrArg (· + _) (History.count_exits _)).trans books.exits
  · rw [crashed, gaveUp]
    exact books.crashes

variable [Machine ω δ] [Seconds δ] {su : Setup δ} {m : Moment} {jobs : List (Job ω)} {s : State ω}
  {t t' : Slot ω} {events : List Event}

/-- What happens to the slot of a job keeps its books. -/
theorem Fate.reckoned (fate : Fate su m s t t' events) (mem : t ∈ s.slots)
    (documented : s.Documented jobs) (echoed : ∀ u ∈ s.slots, u.Echoed su)
    (tame : ∀ job ∈ jobs, job.IsTame) (services : su.IsTame)
    (reckoned : t.Reckoned (s.journal.history t.job.name)) :
    t'.Reckoned ((s.journal.record s.now events).history t.job.name) := by
  have own : t.job.IsTame := tame t.job (documented.inOrder ▸ List.mem_map.mpr ⟨t, mem, rfl⟩)
  rw [Journal.history_record]
  cases fate with
  | moved live moves =>
    exact moves.reckoned reckoned live (documented.slots t mem) (echoed t mem) own services
  | @other u u' l present events listed ne live moves =>
    rw [History.foldl_of_ne]
    · exact reckoned
    · intro e recorded same
      rcases moves.records (documented.slots u listed) (echoed u listed) live e recorded with
        own | ⟨n, rfl, -⟩
      · exact ne (own.subject _ same).symm
      · cases same
  | attempted tried => exact reckoned.attempted tried
  | @otherAttempted name reason accepted ne =>
    have other : (Event.triggered name reason accepted).subject? ≠ some t.job.name :=
      fun same => ne (Option.some.inj same)
    rw [History.foldl_of_ne (List.forall_mem_singleton.mpr other)]
    exact reckoned
  | refreshed nextRun => exact reckoned.refreshed nextRun
  | arrived turn now => exact reckoned.arrived turn now
  | left => exact reckoned
  | noteTick => exact reckoned
  | noteStart => exact reckoned

theorem keeps_booked (tame : ∀ job ∈ jobs, job.IsTame) (services : su.IsTame) :
    Keeps su jobs (Booked su) := by
  intro s t t' m events documented all mem fate
  have echoed : ∀ u ∈ s.slots, u.Echoed su := fun u listed => (all u listed).1
  obtain ⟨-, reckoned, plain⟩ := all t mem
  refine ⟨keeps_echoed documented echoed mem fate, ?_, ?_⟩
  · rw [fate.job]
    exact fate.reckoned mem documented echoed tame services reckoned
  · intro x recorded
    rcases List.mem_append.mp recorded with new | old
    · rw [List.mem_reverse] at new
      obtain ⟨e, listed, rfl⟩ := List.mem_map.mp new
      rcases fate.records mem documented echoed e listed with
        silent | ⟨n, rfl, ⟨job, known, number, w, i, xs, t, build, talk, left⟩ | ⟨earlier, out, left⟩⟩
      · intro worker event token
        rw [silent] at token
        cases token
      · exact ((tame job known).turns build talk).notes n left
      · exact services.notes earlier out n left
    · exact plain x old

/-- While no job is stopped, the health, the counters and the triggers of every job agree, at every
moment between moves: jobs whose workers can always be built, and which keep what the supervisor counts
to the supervisor, on a clock that has not left the calendar. -/
theorem reconciled_of_script {st : State ω} (h : ofJobs jobs = .ok st) (tame : ∀ job ∈ jobs, job.IsTame)
    (services : su.IsTame) :
    (∀ script : List (Nat × Command δ), (∀ c ∈ script, c.2 ≠ .stop) →
        Goings su st (st.drive su script)) ∧
      ∀ s, Goings su st s → (∃ m, su.moment s.now = .ok m) → ∀ job ∈ jobs,
        ∃ t, s.slot? job.name = some t ∧ t.job = job ∧ Reconciled s job.name t.health := by
  refine ⟨fun script going => goings_drive su going st, ?_⟩
  rintro s goings ⟨m, clock⟩ job mem
  have documented := documented_acts h (acts_of_goings su goings)
  have booked := (keeps_booked tame services).goings h (fun job _ => booked_fresh su job) goings clock
  rw [← documented.inOrder] at mem
  obtain ⟨t, listed, rfl⟩ := List.mem_map.mp mem
  have found := slot_of_mem documented.nodup_slots listed
  exact ⟨t, found, rfl, reconciled_of_booked found (booked t listed)⟩

end State

/-- A job whose first instance crashes at once; the others exit normally after a second. -/
def Job.mending : Job (Script.Part Micros) where
  name := "mending"
  build n := .ok (if n = 0 then { ending := .fail .notImplemented } else { delay := some ⟨second⟩ })

theorem isTame_mending : Job.mending.IsTame where
  builds n := ⟨_, rfl⟩
  turns := by
    rintro n w i xs t ⟨⟩ talk
    generalize made : (if n = 0 then _ else _ : Script.Part Micros) = p at talk
    have mild : p.ending = .fail .notImplemented ∨ p.ending = .exit .normal := by
      rw [← made]
      split
      · exact .inl rfl
      · exact .inr rfl
    have close : p.close.IsTame := by
      unfold Script.Part.close
      rcases mild with fault | exit
      · rw [fault]
        exact ⟨nofun, nofun, List.forall_mem_nil _⟩
      · rw [exit]
        exact ⟨nofun, nofun, List.forall_mem_nil _⟩
    -- the run says the same at its end, whatever it hears
    have same : t.worker = p ∧ t.IsTame := by
      induction talk with
      | begin =>
        show (Script.Part.begin p).worker = p ∧ (Script.Part.begin p).IsTame
        unfold Script.Part.begin
        split
        · exact ⟨rfl, nofun, nofun, List.forall_mem_nil _⟩
        · exact ⟨rfl, close⟩
      | rested talk rest ih => exact ⟨ih.1, ih.1.symm ▸ close⟩
      | replied talk wants fits ih => exact ⟨ih.1, ih.1.symm ▸ close⟩
    exact same.2

theorem isTame_rehearsal : Setup.rehearsal.IsTame where
  outcome := by
    intro earlier out
    cases out <;> exact nofun
  notes := by
    intro earlier out
    cases out <;> exact List.forall_mem_nil _

/-- The first instance crashes, a trigger is skipped before the restart, and then the second instance is
at work. -/
theorem State.reconciled_of_script_mending :
    ∃ st, State.ofJobs [Job.mending] = .ok st ∧ Job.mending.IsTame ∧ Setup.rehearsal.IsTame ∧
      let s := st.drive Setup.rehearsal [(9, .trigger "mending" "manual"), (9, .settle),
        (9, .trigger "mending" "again"), (9, .advance ⟨3 * second / 2⟩)]
      ∃ t, s.slot? "mending" = some t ∧ Reconciled s "mending" t.health ∧
        (t.health.running, t.health.runs, t.health.restarts, t.health.skippedTriggers)
          = (true, 2, 1, 1) := by
  refine ⟨_, rfl, isTame_mending, isTame_rehearsal, ?_⟩
  intro s
  have made : State.ofJobs [Job.mending] = .ok _ := rfl
  obtain ⟨driven, reconciled⟩ := State.reconciled_of_script made
    (List.forall_mem_singleton.mpr isTame_mending) isTame_rehearsal
  have now : s.now = 3 * second / 2 := by decide +kernel
  have clock : ∃ m, Setup.rehearsal.moment s.now = .ok m := by
    rw [now]
    exact ⟨_, rfl⟩
  obtain ⟨t, found, -, books⟩ := reconciled s (driven _ (by simp)) clock _ List.mem_cons_self
  have told : (s.slot? "mending").map (fun t => (t.health.running, t.health.runs, t.health.restarts,
      t.health.skippedTriggers)) = some (true, 2, 1, 1) := by decide +kernel
  exact ⟨t, found, books, Option.some.inj ((congrArg (Option.map _) found).symm.trans told)⟩

end Supervisor

end Settler
