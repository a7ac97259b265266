import Settler.Proofs.Daemon.Paying
import Settler.Proofs.Daemon.Tallies

/-!
The counters of the daemon's workers agree with how they end and with what went out.

A sweep is counted as exhausted as often as sweeps exit normally, a collection as failed as often as
collectors exit on a failure, and so on for each kind of worker (`Agreed`); initializers and collectors
each ask once (`Once`). It is so for any settings and services, at every moment between moves.
-/

namespace Settler

open Settler.Supervisor Settler.Calendar Settler.Settlement

/-! ### Far sides count no worker events -/

theorem Settlement.Wire.token_conclude (op : Operation) (came : Except Fault Http.Received) :
    ∀ n ∈ (conclude op came).2, n.token? = none := by
  unfold conclude
  split
  · split <;> exact List.forall_mem_cons.mpr ⟨rfl, List.forall_mem_singleton.mpr rfl⟩
  · split
    · exact List.forall_mem_cons.mpr ⟨rfl, List.forall_mem_cons.mpr
        ⟨rfl, List.forall_mem_singleton.mpr rfl⟩⟩
    · exact List.forall_mem_singleton.mpr rfl

theorem Webhook.token_posted (header : String) (delivery : Except Fault Unit) :
    ∀ n ∈ (posted header delivery).2, n.token? = none := by
  unfold posted
  split
  · exact List.forall_mem_nil _
  · split
    · exact List.forall_mem_singleton.mpr rfl
    · exact List.forall_mem_nil _
  · exact List.forall_mem_nil _

theorem Webhook.isMute_postTable {δ : Type} (lib : Http.Library) (w : Webhook)
    (exchange : Http.Request → Pending δ Http.Response) (t : Table) :
    (w.postTable lib exchange t).IsMute := by
  unfold postTable
  split
  · exact ⟨token_posted t.header _, List.forall_mem_nil _⟩
  · exact ⟨token_posted t.header _, List.forall_mem_nil _⟩

theorem Webhook.isMute_postSummary {δ : Type} (lib : Http.Library) (w : Webhook)
    (exchange : Http.Request → Pending δ Http.Response) (s : Summary) :
    (w.postSummary lib exchange s).IsMute := by
  have table := w.isMute_postTable lib exchange (.ofSummary s)
  unfold postSummary
  dsimp only
  split
  · next delivered outcome =>
    refine ⟨List.forall_mem_append.mpr ⟨table.notes, ?_⟩, List.forall_mem_nil _⟩
    cases delivered with
    | true => exact List.forall_mem_singleton.mpr rfl
    | false => exact List.forall_mem_nil _
  · exact ⟨table.notes, List.forall_mem_nil _⟩

/-- The far sides behind HTTP count no worker events. -/
theorem Remote.isMute_services {δ : Type} (remote : Remote δ) : remote.services.IsMute where
  settle := fun _ op => ⟨Wire.token_conclude op _, List.forall_mem_singleton.mpr rfl⟩
  post := fun _ totals => remote.webhook.isMute_postSummary _ _ totals

/-! ### Counters -/

/-- The counter of an event that the supervisor does not count stands at how often it was left. -/
theorem Journal.counter_of_not_milestone (j : Journal) (job : String) {event : String}
    (other : event ∉ milestones) : j.counter job event = j.tokens.count (job, event) := by
  have uncounted : (j.history job).counted event = 0 := by
    simp only [milestones, List.mem_cons, List.not_mem_nil, not_or] at other
    simp [History.counted, other]
  rw [j.counter_eq, uncounted, Nat.add_zero]

/-- What may be tried again is a payment, and only sweeps ask for these. -/
theorem Journal.retried_sweep {j : Journal} (own : ∀ x ∈ j.exchanges, x.sent.sender = x.owner.job) :
    j.retried Sweep.name = j.exchanges.countP Exchange.isRetried := by
  rw [retried, exchangesFor, List.countP_filter]
  refine List.countP_congr fun x mem => ?_
  have sweeps : x.isRetried → x.owner.job = Sweep.name := by
    intro retried
    rw [← own x mem]
    unfold Exchange.isRetried at retried
    split at retried
    · exact Worker.sender_of_retries retried
    · cases retried
  simpa using sweeps

namespace Tallied

variable {j : Journal} {job : String} (h : Tallied j job)
include h

/-- The counter of an exit stands at how often instances ended in it. -/
theorem counter_exit {e : Exit} (final : e ≠ .crashed) :
    j.counter job ("exit_" ++ e.label) = (j.history job).exits.count e := by
  have own : "exit_" ++ e.label ∈ milestones := by cases e <;> decide
  have none_left : (job, "exit_" ++ e.label) ∉ j.tokens := fun mem => h.own _ mem own
  rw [j.counter_eq, List.count_eq_zero_of_not_mem none_left, Nat.zero_add]
  cases e with
  | normal => rfl
  | faulted => rfl
  | crashed => exact absurd rfl final

/-- The counters of the events that stand for an exit add up to the counter of the exit. -/
theorem counter_verdicts {e : Exit} (final : e ≠ .crashed) :
    ((Worker.verdicts job e).map (j.counter job)).sum = j.counter job ("exit_" ++ e.label) := by
  rw [h.counter_exit final, ← h.verdicts e final]
  refine congrArg List.sum (List.map_congr_left fun event listed => ?_)
  exact j.counter_of_not_milestone job (Worker.verdicts_distinct job e e event listed).2.2

end Tallied

/-! ### Single questions -/

/-- An initializer is done with whatever it hears. -/
theorem Initializer.isOver_resume {δ : Type} (w : Initializer) (r : Reply) :
    (Machine.resume (Worker.initializer w : Worker δ) r).isOver := by
  show ((w.resume r).map Worker.initializer).isOver
  unfold Initializer.resume
  split <;> exact ⟨rfl, rfl⟩

/-- A collector is done with whatever it hears. -/
theorem Collector.isOver_resume {δ : Type} (w : Collector) (r : Reply) :
    (Machine.resume (Worker.collector w : Worker δ) r).isOver := by
  show ((w.resume r).map Worker.collector).isOver
  unfold Collector.resume
  split <;> exact ⟨rfl, rfl⟩

/-- Every instance of a job that began sent one thing out, and no other one sent anything. -/
structure Once (j : Journal) (job : String) (o : Outbound) : Prop where
  began : ∀ i ∈ j.instances job, (j.exchangesOf i).map (·.sent) = [o]
  unbegun : ∀ i, i.job = job → i ∉ j.instances job → j.exchangesOf i = []

/-! ### Agreement -/

/-- The counters of the workers agree with the ends of their instances and with what went out. -/
structure Agreed (j : Journal) : Prop where
  exhausted : j.counter Sweep.name "exhausted" = j.counter Sweep.name "exit_normal"
  unexpected : j.counter Sweep.name "unexpected_error" = j.counter Sweep.name "exit_faulted"
  retried : j.counter Sweep.name "retry" = j.exchanges.countP Exchange.isRetried
  finalized : j.counter Calculator.name "finalized" + j.counter Calculator.name "finalize_failed"
    = j.counter Calculator.name "exit_normal"
  unfinalized : j.counter Calculator.name "epoch_unavailable"
      + j.counter Calculator.name "no_closed_epoch" + j.counter Calculator.name "calculation_failed"
    = j.counter Calculator.name "exit_faulted"
  initialized : j.counter Initializer.name "completed" + j.counter Initializer.name "idempotent_noop"
    = j.counter Initializer.name "exit_normal"
  unfaulted : j.counter Initializer.name "exit_faulted" = 0
  collected : j.counter Collector.name "completed" = j.counter Collector.name "exit_normal"
  uncollected : j.counter Collector.name "error" = j.counter Collector.name "exit_faulted"
  initializers : Once j Initializer.name (.asked .initializeDistribution)
  collectors : Once j Collector.name (.asked .collectAllDebt)

namespace Settings

variable {settings : Settings} {jobs : List (Job (Worker Number))} {s : State (Worker Number)}

/-- The job of a worker that has one word, and is done with whatever comes of it. -/
theorem once_of_job (documented : s.Documented jobs) {job : Job (Worker Number)} (mem : job ∈ jobs)
    (opened : Opened s.journal job) {w : Worker Number} (build : ∀ n, job.build n = .ok w) {o : Outbound}
    (word : (Machine.begin w).next.outbound? = some o)
    (last : ∀ r, o.admits r → (Machine.resume (Machine.begin w).worker r).isOver) :
    Once s.journal job.name o := by
  have listed := mem
  rw [← documented.inOrder] at listed
  obtain ⟨t, slot, rfl⟩ := List.mem_map.mp listed
  have recorded := (documented.slots t slot).recorded
  refine ⟨?_, fun i same new => recorded.exchangesOf_eq_nil same new⟩
  intro i began
  obtain ⟨w', build', conversation⟩ := recorded.conversations i began
  rw [build] at build'
  cases build'
  exact conversation.once word last (opened i began w o (build _) word)

theorem once_of_absent (documented : s.Documented jobs) {job : String} (absent : job ∉ jobs.map (·.name))
    (none_began : s.journal.instances job = []) (o : Outbound) : Once s.journal job o where
  began := by
    rw [none_began]
    exact List.forall_mem_nil _
  unbegun := by
    intro i same new
    refine List.filter_eq_nil_iff.mpr fun x mem owner => absent ?_
    have known := documented.owners x mem
    rwa [of_decide_eq_true owner, same] at known

theorem agreed_of_kept {su : Setup Number} (listed : settings.jobs = .ok jobs)
    (documented : s.Documented jobs) (kept : ∀ t ∈ s.slots, State.Kept su jobs s.journal t) :
    Agreed s.journal := by
  obtain ⟨delay, pay, opening, calculate, collect, -, shape⟩ := exists_of_jobs listed
  have opened : ∀ job ∈ jobs, Opened s.journal job := by
    intro job mem
    rw [← documented.inOrder] at mem
    obtain ⟨t, slot, rfl⟩ := List.mem_map.mp mem
    exact (kept t slot).opened
  have opener : workerJob Initializer.name (.initializer {}) opening ∈ jobs := by simp [shape]
  obtain ⟨t, slot, -⟩ := List.mem_map.mp (documented.inOrder.symm ▸ opener)
  have tallied := (kept t slot).tallied
  have normal : ∀ name, ((Worker.verdicts name .normal).map (s.journal.counter name)).sum
      = s.journal.counter name "exit_normal" :=
    fun name => (tallied name).counter_verdicts (e := .normal) nofun
  have faulted : ∀ name, ((Worker.verdicts name .faulted).map (s.journal.counter name)).sum
      = s.journal.counter name "exit_faulted" :=
    fun name => (tallied name).counter_verdicts (e := .faulted) nofun
  exact {
    exhausted := by simpa [Sweep.verdicts] using normal Sweep.name
    unexpected := by simpa [Sweep.verdicts] using faulted Sweep.name
    retried := by
      rw [Journal.counter_of_not_milestone _ _ (by decide), (tallied Sweep.name).retries,
        Journal.retried_sweep (documented.sender_eq_job (names_of_jobs listed))]
    finalized := by simpa [Calculator.verdicts] using normal Calculator.name
    unfinalized := by simpa [Calculator.verdicts, Nat.add_assoc] using faulted Calculator.name
    initialized := by simpa [Initializer.verdicts] using normal Initializer.name
    unfaulted := by simpa [Initializer.verdicts] using (faulted Initializer.name).symm
    collected := by simpa [Collector.verdicts] using normal Collector.name
    uncollected := by simpa [Collector.verdicts] using faulted Collector.name
    initializers :=
      once_of_job documented opener (opened _ opener) (fun _ => rfl) rfl
        fun r _ => Initializer.isOver_resume _ r
    collectors := by
      by_cases scheduled : collect.isSome
      · have collector : workerJob Collector.name (.collector {}) collect ∈ jobs := by simp [shape, scheduled]
        exact once_of_job documented collector (opened _ collector) (fun _ => rfl) rfl
          fun r _ => Collector.isOver_resume _ r
      · have absent : Collector.name ∉ jobs.map (·.name) := by
          rw [shape, if_neg scheduled]
          show Collector.name ∉ [Sweep.name, Initializer.name, Calculator.name]
          decide
        exact once_of_absent documented absent ((kept t slot).listed _ absent) _ }

end Settings

/-- Whatever a supervisor for settings is told to do and whatever its services do, the counters of
the workers agree with the ends of their instances and with what went out, at every moment between
moves: for services that count no worker events, and none behind HTTP does, on a clock that has not
left the calendar. -/
theorem agreed_of_script {settings : Settings} {st : State (Worker Number)}
    (h : settings.supervisor = .ok st) (origin : Moment) (ties : Ties) :
    (∀ remote : Remote Number, remote.services.IsMute) ∧
      ∀ services : Services Number, services.IsMute →
        (∀ script, State.Acts (settings.setup origin services ties) st
          (st.drive (settings.setup origin services ties) script)) ∧
        ∀ s, State.Acts (settings.setup origin services ties) st s →
          (∃ m, (settings.setup origin services ties).moment s.now = .ok m) → Agreed s.journal := by
  refine ⟨Remote.isMute_services, fun services mute => ⟨fun script => State.acts_drive _ script st, ?_⟩⟩
  rintro s acts ⟨m, clock⟩
  obtain ⟨jobs, listed, made⟩ := Settings.exists_of_supervisor h
  exact Settings.agreed_of_kept listed (State.documented_acts made acts)
    (State.kept_acts made (Settings.names_of_jobs listed) mute acts clock)

theorem Services.isMute_exhausting : Services.exhausting.IsMute where
  settle := fun _ _ => ⟨List.forall_mem_nil _, List.forall_mem_nil _⟩
  post := fun _ _ => ⟨List.forall_mem_nil _, List.forall_mem_nil _⟩

/-- A sweep that tries a payment again and comes to its end, and an initializer that is refused. -/
theorem agreed_of_script_exhausting :
    ∃ st, Settings.manual.supervisor = .ok st ∧ Services.exhausting.IsMute ∧
      let s := st.drive (Settings.manual.setup ⟨0, none⟩ .exhausting)
        [(1, .trigger Sweep.name "manual"), (9, .settle), (1, .trigger Initializer.name "manual"),
          (9, .settle)]
      (s.journal.counter Sweep.name "retry", s.journal.counter Sweep.name "exhausted",
        s.journal.counter Initializer.name "idempotent_noop") = (1, 1, 1) ∧ Agreed s.journal := by
  refine ⟨_, rfl, Services.isMute_exhausting, ?_⟩
  intro s
  have made : Settings.manual.supervisor = .ok _ := rfl
  obtain ⟨driven, agreed⟩ :=
    (agreed_of_script made ⟨0, none⟩ .setOrder).2 .exhausting Services.isMute_exhausting
  have told : (s.now, s.journal.counter Sweep.name "retry", s.journal.counter Sweep.name "exhausted",
      s.journal.counter Initializer.name "idempotent_noop") = (0, 1, 1, 1) := by decide +kernel
  have clock : ∃ m, (Settings.manual.setup ⟨0, none⟩ .exhausting).moment s.now = .ok m := by
    rw [(Prod.mk.inj told).1]
    exact ⟨_, rfl⟩
  exact ⟨(Prod.mk.inj told).2, agreed s (driven _) clock⟩

end Settler
