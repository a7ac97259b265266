import Mathlib.Algebra.BigOperators.Group.List.Basic
import Settler.Proofs.Daemon.Chronicle
import Settler.Proofs.Supervisor.FirstWords
import Settler.Proofs.Worker.Tokens

/-!
What workers count, and what is recorded of them.

Workers and supervisor count outcomes apart from each other: a worker counts its verdict and then exits,
and the supervisor counts the exit. For every job the two agree between any two moves, and as many retries
are counted as payments came back with a refusal that may be tried again (`Tallied`).
-/

namespace Settler

open Settler.Supervisor Settler.Calendar

/-! ### Retries on record -/

/-- The exchange came back with a refusal of a payment that may be tried again. -/
def Exchange.isRetried (x : Exchange) : Bool :=
  match x.reply with
  | some (.ok r) => x.sent.retries r
  | _ => false

namespace Journal

/-- How many payments of a job came back with a refusal that may be tried again. -/
def retried (j : Journal) (job : String) : Nat := (j.exchangesFor job).countP Exchange.isRetried

theorem retried_of_silent (j : Journal) (time : Instant) {events : List Event}
    (silent : ∀ e ∈ events, e.speaker? = none) (job : String) :
    (j.record time events).retried job = j.retried job := by
  rw [retried, exchangesFor, exchanges_record_of_silent j time silent, ← exchangesFor, ← retried]

theorem retried_notes (j : Journal) (time : Instant) (notes : List Note) (job : String) :
    (j.record time (notes.map Event.note)).retried job = j.retried job :=
  retried_of_silent j time (by simp [Event.speaker?]) job

theorem retried_began (j : Journal) (time : Instant) (i : Instance) (job : String) :
    (j.record time [.began i]).retried job = j.retried job := by
  rw [retried, exchangesFor, exchanges_began, ← exchangesFor, ← retried]

theorem retried_sent (j : Journal) (time : Instant) (i : Instance) (o : Outbound) :
    (j.record time [.sent i o]).retried i.job = j.retried i.job := by
  rw [retried, exchangesFor_sent, List.countP_append, ← retried]
  rfl

/-- What an instance hears is the reply to its last word, and nothing else changes. -/
theorem retried_heard (j : Journal) (time : Instant) {i : Instance} {o : Outbound} {ys : List Exchange}
    {outcome : Except Fault Reply} (split : j.exchangesOf i = ys ++ [⟨i, o, none⟩])
    (replied : (ys ++ [(⟨i, o, none⟩ : Exchange)]).map (·.hear i outcome)
      = ys ++ [⟨i, o, some outcome⟩]) :
    (j.record time [.heard i outcome]).retried i.job
      = j.retried i.job + if Exchange.isRetried ⟨i, o, some outcome⟩ then 1 else 0 := by
  -- only the exchanges of the instance change, so those of the job are counted by their owners
  have apart : ∀ xs : List Exchange, xs.countP Exchange.isRetried
      = (xs.filter fun x => decide (x.owner = i)).countP Exchange.isRetried
        + (xs.filter fun x => !decide (x.owner = i)).countP Exchange.isRetried :=
    fun xs => List.countP_eq_countP_filter_add xs _ _
  have own : (j.exchangesFor i.job).filter (fun x => decide (x.owner = i)) = ys ++ [⟨i, o, none⟩] :=
    (j.exchangesOf_eq_filter i).symm.trans split
  have others : ((j.exchangesFor i.job).filter fun x => !decide (x.owner = i)).map (·.hear i outcome)
      = (j.exchangesFor i.job).filter fun x => !decide (x.owner = i) := by
    refine map_hear_of_forall_ne fun x mem same => ?_
    have ne := (List.mem_filter.mp mem).2
    simp [same] at ne
  have unanswered : Exchange.isRetried ⟨i, o, none⟩ = false := rfl
  rw [retried, retried, exchangesFor_heard, apart, apart (j.exchangesFor i.job),
    filter_map_hear (fun k => decide (k = i)), filter_map_hear (fun k => !decide (k = i)), own, others,
    replied, List.countP_append, List.countP_append, List.countP_singleton, List.countP_singleton,
    unanswered, if_neg Bool.false_ne_true]
  omega

end Journal

/-! ### Tallies -/

/-- What workers counted for a job leaves the supervisor's part to it, and it agrees with how the job's
instances ended and with what they were told. -/
structure Tallied (j : Journal) (job : String) : Prop where
  own : ∀ event, (job, event) ∈ j.tokens → event ∉ milestones
  verdicts : ∀ e ≠ Exit.crashed,
    ((Worker.verdicts job e).map fun event => j.tokens.count (job, event)).sum
      = (j.history job).exits.count e
  retries : j.tokens.count (job, "retry") = j.retried job

/-- An event that adds nothing to what is told of a job. -/
structure Event.Spares (job : String) (e : Event) : Prop where
  token : ∀ event, e.token? ≠ some (job, event)
  exit : e.exit? job = none
  speaker : ∀ i, e.speaker? = some i → i.job ≠ job

namespace Tallied

variable {j : Journal} {job : String} (h : Tallied j job) (time : Instant) {events : List Event}
include h

/-- Events that add as many verdicts as exits, and as many retries as they tell of. -/
theorem record (own : ∀ event, (job, event) ∈ events.filterMap Event.token? → event ∉ milestones)
    (verdicts : ∀ e ≠ Exit.crashed, ((Worker.verdicts job e).map fun event =>
        (events.filterMap Event.token?).count (job, event)).sum
      = (events.filterMap (Event.exit? job)).count e)
    (retries : (j.record time events).retried job
      = j.retried job + (events.filterMap Event.token?).count (job, "retry")) :
    Tallied (j.record time events) job where
  own := by
    intro event mem
    rw [Journal.tokens_record] at mem
    rcases List.mem_append.mp mem with new | old
    · exact own event (List.mem_reverse.mp new)
    · exact h.own event old
  verdicts := by
    intro e final
    simp only [Journal.count_tokens_record]
    rw [List.sum_map_add, h.verdicts e final, verdicts e final, Journal.exits_record, List.count_append,
      List.count_reverse, Nat.add_comm]
  retries := by rw [Journal.count_tokens_record, h.retries, retries]

/-- Events that spare the job. -/
theorem frame (spares : ∀ e ∈ events, e.Spares job) : Tallied (j.record time events) job := by
  have none_counted : ∀ event, (job, event) ∉ events.filterMap Event.token? := by
    intro event mem
    obtain ⟨e, listed, token⟩ := List.mem_filterMap.mp mem
    exact (spares e listed).token event token
  have none_ended : events.filterMap (Event.exit? job) = [] :=
    List.filterMap_eq_nil_iff.mpr fun e listed => (spares e listed).exit
  have same : (j.record time events).exchangesFor job = j.exchangesFor job :=
    Journal.filter_exchanges_record (fun i => decide (i.job = job)) j time
      fun e listed i speaker => decide_eq_false ((spares e listed).speaker i speaker)
  refine h.record time ?_ ?_ ?_
  · exact fun event mem => absurd mem (none_counted event)
  · intro e final
    simp [none_ended, List.count_eq_zero_of_not_mem (none_counted _)]
  · rw [Journal.retried, same, List.count_eq_zero_of_not_mem (none_counted _)]
    rfl

end Tallied

/-- No note counts a worker event, be it on an outcome that comes in or on one that is given up. -/
structure Pending.IsMute {α δ : Type} (p : Pending δ α) : Prop where
  notes : ∀ n ∈ p.notes, n.token? = none
  abandoned : ∀ n ∈ p.abandoned, n.token? = none

/-- Services that count no worker events. -/
structure Services.IsMute {δ : Type} (services : Services δ) : Prop where
  settle : ∀ earlier op, (services.settle earlier op).IsMute
  post : ∀ earlier totals, (services.post earlier totals).IsMute

namespace Supervisor

variable {δ : Type}

/-! ### Exits -/

/-- The exit that an ending is, if it is no fault. -/
def Ending.exits : Ending → List Exit
  | .exit e => [e]
  | .fault _ => []

theorem exits_of_ending {ω : Type} {t : Turn ω δ} {ending : Ending} (ends : ending? t = some ending) :
    t.exits = ending.exits := by
  unfold ending? at ends
  unfold Turn.exits
  split at ends
  · next e next =>
    cases ends
    rw [next]
    rfl
  · next f next =>
    cases ends
    rw [next]
    rfl
  · cases ends

namespace Slot

variable {ω : Type} [Seconds δ] {su : Setup δ} {o : Occasion} {m : Moment} {s s' : Slot ω} {l : Live ω}
  {events : List Event}

theorem Closes.count_exits {ending : Ending} (closes : Closes su o m s l ending s' events) {e : Exit}
    (final : e ≠ .crashed) :
    (events.filterMap (Event.exit? s.job.name)).count e = ending.exits.count e := by
  have crashed : ∀ after : Event, after.exit? s.job.name = none →
      (ending.cry s.current ++ [.ended s.current .crashed, after]).filterMap (Event.exit? s.job.name)
        = [.crashed] := by
    intro after other
    have own : (Event.ended s.current .crashed).exit? s.job.name = some .crashed := if_pos rfl
    have cried : (ending.cry s.current).filterMap (Event.exit? s.job.name) = [] := by cases ending <;> rfl
    rw [List.filterMap_append, cried, List.filterMap_cons_some own, List.filterMap_cons_none other]
    rfl
  have apart : [Exit.crashed].count e = 0 := List.count_eq_zero_of_not_mem (by simpa using final)
  have uncounted : ending.toExit = .crashed → ending.exits.count e = 0 := by
    intro crash
    cases ending with
    | exit e' =>
      cases crash
      exact apart
    | fault f => rfl
  cases closes with
  | told => rfl
  | exits other => simp [Event.exit?, Ending.exits, current]
  | restarts untold crash granted => rw [crashed _ rfl, apart, uncounted crash]
  | givesUp untold crash refused => rw [crashed _ rfl, apart, uncounted crash]

/-- A turn that ends in an exit is recorded as one. -/
theorem Goes.count_exits {t : Turn ω δ} (goes : Goes su o m s l t s' events) {e : Exit}
    (final : e ≠ .crashed) :
    (events.filterMap (Event.exit? s.job.name)).count e = t.exits.count e := by
  cases goes with
  | rests rest =>
    have stays : t.exits = [] := by
      unfold Turn.exits
      split
      · next next =>
        rw [next] at rest
        cases rest
      · rfl
    rw [stays]
    rfl
  | awaits wants =>
    have stays : t.exits = [] := by
      unfold Turn.exits
      split
      · next next =>
        rw [next] at wants
        cases wants
      · rfl
    rw [stays]
    rfl
  | ends ends closes => rw [exits_of_ending ends, closes.count_exits final]

theorem Goes.retried {t : Turn ω δ} (goes : Goes su o m s l t s' events) (j : Journal) (time : Instant) :
    (j.record time events).retried s.job.name = j.retried s.job.name := by
  cases goes with
  | rests rest => rfl
  | awaits wants => exact j.retried_sent time s.current _
  | ends ends closes => exact j.retried_of_silent time closes.silent _

end Slot

theorem IsOwn.spares {job other : String} {e : Event} (own : IsOwn job e) (ne : job ≠ other) :
    e.Spares other where
  token := by
    rw [own.token]
    exact nofun
  exit := by
    cases e with
    | ended i e => exact if_neg fun same => ne ((own.subject i.job rfl).symm.trans same)
    | _ => rfl
  speaker := fun i speaker same => ne ((own.speaker i speaker).symm.trans same)

/-! ### Moves -/

theorem Setup.isMute_echo {su : Setup δ} (mute : su.services.IsMute) (earlier : List Outbound)
    (out : Outbound) : (su.echo earlier out).IsMute := by
  cases out with
  | asked op =>
    have p := mute.settle earlier op
    exact ⟨p.notes, p.abandoned⟩
  | posted totals =>
    have p := mute.post earlier totals
    exact ⟨p.notes, p.abandoned⟩

namespace Slot

variable {su : Setup δ} {j : Journal} {s : Slot (Worker δ)} {l : Live (Worker δ)}

/-- The notes on what the instance at work waits for count nothing. -/
theorem Echoed.noted (echoed : s.Echoed su) (live : s.live? = some l) (mute : su.services.IsMute)
    {w : Worker δ} {outcome : Except Fault Reply} {notes abandoned : List Note}
    (phase : l.phase = .awaiting w outcome notes abandoned) :
    ∀ e ∈ notes.map Event.note, e.token? = none ∧ e.exit? s.job.name = none := by
  intro e mem
  obtain ⟨n, listed, rfl⟩ := List.mem_map.mp mem
  obtain ⟨earlier, out, left⟩ := echoed.leaves live phase n listed
  exact ⟨(Setup.isMute_echo mute earlier out).notes n left, rfl⟩

/-- What the instance at work hears is the reply to its last word, and that is a word of its own. -/
theorem Documented.hears (documented : s.Documented j) (live : s.live? = some l) (names : s.job.Names)
    {w : Worker δ} {outcome : Except Fault Reply} {notes abandoned : List Note}
    (phase : l.phase = .awaiting w outcome notes abandoned) (time : Instant) :
    ∃ out : Outbound, out.sender = w.name ∧ w.name = s.job.name ∧
      (∀ r, outcome = .ok r → out.admits r) ∧
      (j.record time (notes.map Event.note ++ [.heard s.current outcome])).retried s.job.name
        = j.retried s.job.name + if Exchange.isRetried ⟨s.current, out, some outcome⟩ then 1 else 0 := by
  obtain ⟨-, w₀, build, fits⟩ := documented.atWork l live (by rw [phase]; rfl)
  rw [phase] at fits
  cases fits with
  | @awaiting ys t out _ _ _ talk wants split fits =>
    have minding := Worker.minding_of_talk talk
    have own : out.sender = t.worker.name := (minding.words out wants).trans minding.worker.symm
    refine ⟨out, own, minding.worker.trans (names _ _ build), fits, ?_⟩
    have quiet : ∀ e ∈ notes.map Event.note, e.speaker? = none := by simp [Event.speaker?]
    have split' : (j.record time (notes.map Event.note)).exchangesOf s.current
        = ys ++ [⟨s.current, out, none⟩] := by
      rw [Journal.exchangesOf, Journal.exchanges_record_of_silent j time quiet, ← Journal.exchangesOf,
        split]
    have retried := Journal.retried_heard _ time split' (talk.map_hear_open out outcome)
    rw [Journal.record_append]
    exact retried.trans (congrArg (· + _) (j.retried_notes time notes _))

variable [Seconds δ] {o : Occasion} {m : Moment} {s' : Slot (Worker δ)} {events : List Event}

/-- A turn of the worker at work, after events that tell of the retry that it counts. -/
theorem Goes.tallied {t : Turn (Worker δ) δ} (goes : Goes su o m s l t s' events)
    (h : Tallied j s.job.name) (counts : Worker.Counts s.job.name t) (time : Instant)
    {before : List Event} (silent : ∀ e ∈ before, e.token? = none ∧ e.exit? s.job.name = none)
    (retried : (j.record time before).retried s.job.name
      = j.retried s.job.name + t.tokens.count (s.job.name, "retry")) :
    Tallied (j.record time (before ++ (t.notes.map Event.note ++ events))) s.job.name := by
  -- all that is counted the turn counts itself, and all that ends it is in what follows its notes
  have tokens : (before ++ (t.notes.map Event.note ++ events)).filterMap Event.token? = t.tokens := by
    rw [List.filterMap_append, List.filterMap_append,
      List.filterMap_eq_nil_iff.mpr fun e mem => (silent e mem).1,
      List.filterMap_eq_nil_iff.mpr fun e mem => (goes.own e mem).token, List.nil_append,
      List.append_nil, List.filterMap_map]
    rfl
  have exits : (before ++ (t.notes.map Event.note ++ events)).filterMap (Event.exit? s.job.name)
      = events.filterMap (Event.exit? s.job.name) := by
    have noted : ∀ e ∈ t.notes.map Event.note, e.exit? s.job.name = none := by
      intro e mem
      obtain ⟨n, -, rfl⟩ := List.mem_map.mp mem
      rfl
    rw [List.filterMap_append, List.filterMap_append,
      List.filterMap_eq_nil_iff.mpr fun e mem => (silent e mem).2, List.filterMap_eq_nil_iff.mpr noted,
      List.nil_append, List.nil_append]
  refine h.record time ?_ ?_ ?_
  · rw [tokens]
    exact fun event mem => (counts.own _ mem).2
  · intro e final
    rw [tokens, exits, counts.sum_verdicts, goes.count_exits final]
  · rw [tokens, Journal.record_append, Journal.record_append, goes.retried, Journal.retried_notes, retried]

/-- A fault cuts the instance at work short, after events that tell of no retry. -/
theorem Closes.tallied {f : Fault} (closes : Closes su o m s l (.fault f) s' events)
    (h : Tallied j s.job.name) (time : Instant) {before : List Event}
    (silent : ∀ e ∈ before, e.token? = none ∧ e.exit? s.job.name = none)
    (retried : (j.record time before).retried s.job.name = j.retried s.job.name) :
    Tallied (j.record time (before ++ events)) s.job.name := by
  have tokens : (before ++ events).filterMap Event.token? = [] :=
    List.filterMap_eq_nil_iff.mpr <| List.forall_mem_append.mpr
      ⟨fun e mem => (silent e mem).1, fun e mem => (closes.own e mem).token⟩
  have exits : (before ++ events).filterMap (Event.exit? s.job.name)
      = events.filterMap (Event.exit? s.job.name) := by
    rw [List.filterMap_append, List.filterMap_eq_nil_iff.mpr fun e mem => (silent e mem).2,
      List.nil_append]
  refine h.record time ?_ ?_ ?_
  · rw [tokens]
    exact fun event mem => absurd mem List.not_mem_nil
  · intro e final
    rw [tokens, exits, closes.count_exits final]
    simp [Ending.exits]
  · rw [tokens, Journal.record_append, Journal.retried_of_silent _ _ closes.silent, retried]
    rfl

/-- A move keeps the tallies of its own job. -/
theorem Moves.tallied_self (moves : Moves su o m s l s' events) (h : Tallied j s.job.name)
    (documented : s.Documented j) (echoed : s.Echoed su) (live : s.live? = some l)
    (names : s.job.Names) (mute : su.services.IsMute) (time : Instant) :
    Tallied (j.record time events) s.job.name := by
  cases moves with
  | unbuilt fresh build => exact h
  | @launched w s' events fresh build goes =>
    have named := names _ _ build
    have counts : Worker.Counts s.job.name (Machine.begin w) := named ▸ Worker.counts_begin w
    have none_tried : (Machine.begin w).tokens.count (s.job.name, "retry") = 0 :=
      named ▸ Worker.retries_begin w
    refine goes.tallied h counts time (List.forall_mem_singleton.mpr ⟨rfl, rfl⟩) ?_
    rw [j.retried_began]
    exact (congrArg (j.retried s.job.name + ·) none_tried).symm
  | @resumed w r s' before events hears goes =>
    cases hears with
    | rested phase =>
      obtain ⟨-, w₀, build, fits⟩ := documented.atWork l live (by rw [phase]; rfl)
      rw [phase] at fits
      cases fits with
      | @resting t talk rest =>
        have named := (Worker.minding_of_talk talk).worker.trans (names _ _ build)
        have counts : Worker.Counts s.job.name (Machine.resume t.worker .rested) :=
          named ▸ Worker.counts_resume t.worker .rested
        have none_tried : (Machine.resume t.worker .rested).tokens.count (s.job.name, "retry") = 0 :=
          named ▸ Worker.retries_rested t.worker
        refine goes.tallied h counts time (List.forall_mem_nil _) ?_
        exact (congrArg (j.retried s.job.name + ·) none_tried).symm
    | @heard _ notes abandoned phase =>
      obtain ⟨out, own, named, fits, retried⟩ := documented.hears live names phase time
      have counts : Worker.Counts s.job.name (Machine.resume w r) := named ▸ Worker.counts_resume w r
      have tried := Worker.retries_resume w own (fits r rfl)
      rw [named] at tried
      refine goes.tallied h counts time ?_ ?_
      · exact List.forall_mem_append.mpr
          ⟨echoed.noted live mute phase, List.forall_mem_singleton.mpr ⟨rfl, rfl⟩⟩
      · exact retried.trans (congrArg (j.retried s.job.name + ·) tried.symm)
  | @failed w f notes abandoned s' events phase closes =>
    obtain ⟨out, own, named, fits, retried⟩ := documented.hears live names phase time
    rw [← List.singleton_append, ← List.append_assoc]
    refine closes.tallied h time ?_ retried
    exact List.forall_mem_append.mpr
      ⟨echoed.noted live mute phase, List.forall_mem_singleton.mpr ⟨rfl, rfl⟩⟩

/-- A move keeps the tallies of every job. -/
theorem Moves.tallied (moves : Moves su o m s l s' events) (h : ∀ job, Tallied j job)
    (documented : s.Documented j) (echoed : s.Echoed su) (live : s.live? = some l)
    (names : s.job.Names) (mute : su.services.IsMute) (time : Instant) (job : String) :
    Tallied (j.record time events) job := by
  by_cases own : s.job.name = job
  · subst own
    exact moves.tallied_self (h _) documented echoed live names mute time
  · refine (h job).frame time fun e recorded => ?_
    rcases moves.records documented echoed live e recorded with mine | ⟨n, rfl, left⟩
    · exact mine.spares own
    · refine ⟨?_, rfl, nofun⟩
      intro event token
      rcases left with ⟨number, w, i, xs, t, build, talk, listed⟩ | ⟨earlier, out, listed⟩
      · have counted := (Worker.counts_of_talk talk).own _ (List.mem_filterMap.mpr ⟨n, listed, token⟩)
        exact own ((names _ _ build).symm.trans counted.1.symm)
      · have silent := (Setup.isMute_echo mute earlier out).notes n listed
        cases silent.symm.trans token

end Slot

/-! ### Runs -/

namespace State

variable {su : Setup δ} {jobs : List (Job (Worker δ))} {s : State (Worker δ)}

/-- What always holds of the slot of a job, and of the journal. -/
structure Kept (su : Setup δ) (jobs : List (Job (Worker δ))) (j : Journal) (t : Slot (Worker δ)) :
    Prop where
  echoed : t.Echoed su
  opened : Opened j t.job
  tallied : ∀ job, Tallied j job
  /-- No instance began but of the jobs. -/
  listed : ∀ job ∉ jobs.map (·.name), j.instances job = []

theorem kept_fresh (su : Setup δ) (jobs : List (Job (Worker δ))) (job : Job (Worker δ)) :
    Kept su jobs [] { job } where
  echoed := Slot.echoed_of_not_live rfl
  opened := nofun
  tallied := fun job => ⟨nofun, by simp [Journal.tokens, Journal.history], rfl⟩
  listed := fun _ _ => rfl

/-- What is noted when runs are given up counts no worker event. -/
theorem token_abandoned {ω : Type} {t : Slot ω} (echoed : t.Echoed su) (mute : su.services.IsMute) :
    ∀ n ∈ abandonedNotes t, n.token? = none := by
  unfold abandonedNotes
  split
  · exact List.forall_mem_nil _
  · next l live =>
    have echoes := echoed l live
    split
    · next phase =>
      rw [phase] at echoes
      obtain ⟨earlier, out, -, -, same⟩ := echoes
      exact fun n mem => (Setup.isMute_echo mute earlier out).abandoned n (same ▸ mem)
    · exact List.forall_mem_nil _

theorem kept_stop (mute : su.services.IsMute) (all : ∀ t ∈ s.slots, Kept su jobs s.journal t) :
    ∀ t ∈ s.slots, Kept su jobs s.stop.journal (stopped t) := by
  have quiet : ∀ e ∈ (s.stopOrder.flatMap abandonedNotes).map Event.note ++ [Event.stopped],
      e.token? = none ∧ e.speaker? = none ∧ ∀ job, e.exit? job = none := by
    refine List.forall_mem_append.mpr ⟨?_, List.forall_mem_singleton.mpr ⟨rfl, rfl, fun _ => rfl⟩⟩
    intro e recorded
    obtain ⟨n, left, rfl⟩ := List.mem_map.mp recorded
    obtain ⟨u, told, mem⟩ := List.mem_flatMap.mp left
    exact ⟨token_abandoned (all u (mem_of_stopOrder told)).echoed mute n mem, rfl, fun _ => rfl⟩
  intro t mem
  obtain ⟨-, opened, tallied, listed⟩ := all t mem
  refine ⟨Slot.echoed_of_not_live rfl, ?_, ?_, ?_⟩
  · exact opened.record s.now fun e recorded => Event.began_of_speaker_none (quiet e recorded).2.1 _
  · intro job
    refine (tallied job).frame s.now fun e recorded => ⟨?_, (quiet e recorded).2.2 job, ?_⟩
    · rw [(quiet e recorded).1]
      exact nofun
    · rw [(quiet e recorded).2.1]
      exact nofun
  · intro job absent
    have same := Journal.instances_record_of_silent s.journal s.now (fun e recorded => (quiet e recorded).2.1)
      job
    exact same.trans (listed job absent)

variable [Seconds δ] {m : Moment} {t t' : Slot (Worker δ)} {events : List Event}

/-- What happens to a slot keeps the tallies of every job. -/
theorem Fate.tallied (fate : Fate su m s t t' events) (mem : t ∈ s.slots) (documented : s.Documented jobs)
    (echoed : ∀ u ∈ s.slots, u.Echoed su) (names : ∀ job ∈ jobs, job.Names) (mute : su.services.IsMute)
    (h : ∀ job, Tallied s.journal job) (job : String) : Tallied (s.journal.record s.now events) job := by
  have moved : ∀ {u u' : Slot (Worker δ)} {o : Slot.Occasion} {l : Live (Worker δ)}, u ∈ s.slots →
      u.live? = some l → u.Moves su o m l u' events → Tallied (s.journal.record s.now events) job := by
    intro u u' o l listed live moves
    have own : u.job.Names := names u.job (documented.inOrder ▸ List.mem_map.mpr ⟨u, listed, rfl⟩)
    exact moves.tallied h (documented.slots u listed) (echoed u listed) live own mute s.now job
  have spared : (∀ e ∈ events, e.Spares job) → Tallied (s.journal.record s.now events) job :=
    fun spares => (h job).frame s.now spares
  cases fate with
  | moved live moves => exact moved mem live moves
  | other listed ne live moves => exact moved listed live moves
  | attempted tried => exact spared (List.forall_mem_singleton.mpr ⟨nofun, rfl, nofun⟩)
  | otherAttempted ne => exact spared (List.forall_mem_singleton.mpr ⟨nofun, rfl, nofun⟩)
  | noteTick => exact spared (List.forall_mem_singleton.mpr ⟨nofun, rfl, nofun⟩)
  | noteStart => exact spared (List.forall_mem_singleton.mpr ⟨nofun, rfl, nofun⟩)
  | _ => exact spared (List.forall_mem_nil _)

theorem keeps_kept (names : ∀ job ∈ jobs, job.Names) (mute : su.services.IsMute) :
    Keeps su jobs (Kept su jobs) := by
  intro s t t' m events documented all mem fate
  have echoed : ∀ u ∈ s.slots, u.Echoed su := fun u listed => (all u listed).echoed
  obtain ⟨-, opened, tallied, listed⟩ := all t mem
  refine ⟨keeps_echoed documented echoed mem fate, ?_, ?_, ?_⟩
  · rw [fate.job]
    exact fate.opened documented echoed opened
  · exact fate.tallied mem documented echoed names mute tallied
  · intro job absent
    have none_began : events.filterMap (·.began? job) = [] := by
      refine List.filterMap_eq_nil_iff.mpr fun e recorded => Event.began_of_speaker_ne fun i speaker => ?_
      have known := fate.speakers mem documented echoed e recorded i speaker
      exact fun same => absent (same ▸ known)
    rw [Journal.instances_record, listed job absent, none_began]
    rfl

/-- Whatever is done, workers' tallies are kept. -/
theorem kept_acts {st : State (Worker δ)} (made : ofJobs jobs = .ok st) (names : ∀ job ∈ jobs, job.Names)
    (mute : su.services.IsMute) (acts : Acts su st s) (clock : su.moment s.now = .ok m) :
    ∀ t ∈ s.slots, Kept su jobs s.journal t :=
  (keeps_kept names mute).acts made (fun job _ => kept_fresh su jobs job) (kept_stop mute) acts clock

end State

end Supervisor

end Settler
