import Mathlib.Data.List.Basic
import Settler.Journal.Entry

/-!
What the counters of worker events count.

The counter of a worker's event (`Journal.counter`) stands at the number of notes that count it. Some of
these are the supervisor's own, on instances that began or ended and on runs that were given up, which
the journal tells of anyway (`History`). All others were left by workers and services (`Journal.tokens`).
-/

namespace Settler

/-! ### Counters and notes -/

namespace Registry

theorem lookup_bump (s t : Series) (counts : List (Series × Nat)) :
    ((bump s counts).lookup t).getD 0 = (counts.lookup t).getD 0 + if s = t then 1 else 0 := by
  induction counts with
  | nil =>
    by_cases same : s = t
    · simp [bump, same]
    · have other : (t == s) = false := beq_false_of_ne (Ne.symm same)
      simp [bump, List.lookup_cons, same, other]
  | cons c rest ih =>
    obtain ⟨u, n⟩ := c
    rw [bump]
    by_cases found : u = s
    · subst found
      rw [if_pos rfl, List.lookup_cons, List.lookup_cons]
      by_cases same : u = t
      · simp [same]
      · have other : (t == u) = false := beq_false_of_ne (Ne.symm same)
        simp [same, other]
    · rw [if_neg found, List.lookup_cons, List.lookup_cons]
      cases here : t == u with
      | true =>
        obtain rfl := eq_of_beq here
        simp [Ne.symm found]
      | false => exact ih

theorem count_increment (r : Registry) (m : Metric) (labels : List (String × String)) (s : Series) :
    (r.increment m labels).count s = r.count s + if seriesOf? m labels = some s then 1 else 0 := by
  unfold increment
  split
  · next t found => simp [count, lookup_bump, found]
  · next missing => simp [missing]

end Registry

namespace Note

/-- The series that a note adds to. -/
def series? : Note → Option Series
  | .count metric labels => Registry.seriesOf? metric labels
  | _ => none

/-- The event that a note counts, and the worker in whose life it is one. -/
def token? (n : Note) : Option (String × String) :=
  match n.series? with
  | some ⟨.workerEvents, [event, worker]⟩ => some (worker, event)
  | _ => none

theorem token_eq_some_iff {n : Note} {worker event : String} :
    n.token? = some (worker, event) ↔ n.series? = some ⟨.workerEvents, [event, worker]⟩ := by
  unfold token?
  constructor
  · intro h
    split at h
    · next series =>
      cases h
      exact series
    · cases h
  · intro series
    rw [series]

theorem count_record (r : Registry) (n : Note) (s : Series) :
    (n.record r).count s = r.count s + if n.series? = some s then 1 else 0 := by
  cases n with
  | log level text => simp [record, series?]
  | timing exchange fields => simp [record, series?]
  | count metric labels => exact Registry.count_increment r metric labels s
  | gauge metric value =>
    simp only [record, series?, Registry.set]
    split <;> simp [Registry.count]

/-- After notes, a counter stands higher by the number of those that add to it. -/
theorem count_recordAll_series (r : Registry) (notes : List Note) (s : Series) :
    (recordAll r notes).count s = r.count s + (notes.filterMap series?).count s := by
  induction notes generalizing r with
  | nil => simp [recordAll]
  | cons n rest ih =>
    have step : recordAll r (n :: rest) = recordAll (n.record r) rest := rfl
    rw [step, ih, count_record, Nat.add_assoc]
    congr 1
    cases series : n.series? with
    | none => simp [series]
    | some t =>
      rw [List.filterMap_cons_some series, List.count_cons, Nat.add_comm]
      simp only [Option.some.injEq, beq_iff_eq]

/-- After notes, a counter stands higher by the number of those that count its event. -/
theorem count_recordAll (r : Registry) (notes : List Note) (worker event : String) :
    (recordAll r notes).count ⟨.workerEvents, [event, worker]⟩
      = r.count ⟨.workerEvents, [event, worker]⟩ + (notes.filterMap token?).count (worker, event) := by
  have hit : ∀ {α : Type} [BEq α] [LawfulBEq α] (o : Option α) (x : α),
      (o.map (· == x)).getD false = true ↔ o = some x := by
    intro α _ _ o x
    cases o <;> simp
  rw [count_recordAll_series, List.count, List.count, List.countP_filterMap, List.countP_filterMap]
  congr 1
  exact List.countP_congr fun n _ => (hit _ _).trans (token_eq_some_iff.symm.trans (hit _ _).symm)

end Note

/-- The event that an entry counts for a worker, if a worker or a service left it as a note. -/
def Event.token? : Event → Option (String × String)
  | .note n => n.token?
  | _ => none

namespace Journal

/-- Where the counter of an event in the life of a worker stands. -/
def counter (j : Journal) (worker event : String) : Nat :=
  j.registry.count ⟨.workerEvents, [event, worker]⟩

/-- The worker events that workers and services counted, the newest first. -/
def tokens (j : Journal) : List (String × String) := j.filterMap fun x => x.event.token?

theorem counter_cons (x : Entry) (j : Journal) (worker event : String) :
    counter (x :: j) worker event
      = j.counter worker event + (x.event.notes.filterMap Note.token?).count (worker, event) := by
  have notes : Journal.notes (x :: j) = j.notes ++ x.event.notes := by
    simp [Journal.notes, List.flatMap_append]
  have registry : ∀ first second : List Note, Note.recordAll .empty (first ++ second)
      = Note.recordAll (Note.recordAll .empty first) second := fun first second => List.foldl_append
  rw [counter, Journal.registry, notes, registry, Note.count_recordAll]
  rfl

theorem tokens_record (j : Journal) (time : Instant) (events : List Event) :
    (j.record time events).tokens = (events.filterMap Event.token?).reverse ++ j.tokens := by
  unfold tokens record
  rw [List.filterMap_append, List.filterMap_reverse, List.filterMap_map]
  rfl

theorem count_tokens_record (j : Journal) (time : Instant) (events : List Event) (x : String × String) :
    (j.record time events).tokens.count x = j.tokens.count x + (events.filterMap Event.token?).count x := by
  rw [tokens_record, List.count_append, List.count_reverse, Nat.add_comm]

end Journal

/-! ### Histories -/

/-- What the journal tells of a job: its triggers, and whether each was accepted; how many of its instances
began; how they ended; and how often a run was given up. The newest come first. -/
structure History where
  triggers : List Bool := []
  starts : Nat := 0
  exits : List Exit := []
  gaveUps : Nat := 0
  deriving DecidableEq, Repr

namespace History

/-- The history of a job after an event. -/
def add (job : String) (h : History) : Event → History
  | .triggered name _ accepted =>
    if name = job then { h with triggers := accepted :: h.triggers } else h
  | .began i => if i.job = job then { h with starts := h.starts + 1 } else h
  | .ended i e => if i.job = job then { h with exits := e :: h.exits } else h
  | .gaveUp name _ _ => if name = job then { h with gaveUps := h.gaveUps + 1 } else h
  | _ => h

/-- How many triggers were accepted. -/
def accepted (h : History) : Nat := h.triggers.count true

end History

/-- The exit of an instance of a job, if an event is that. -/
def Event.exit? (job : String) : Event → Option Exit
  | .ended i e => if i.job = job then some e else none
  | _ => none

theorem History.exits_add (job : String) (h : History) (e : Event) :
    (h.add job e).exits = (e.exit? job).toList ++ h.exits := by
  cases e with
  | triggered name reason accepted =>
    simp only [add, Event.exit?]
    split <;> rfl
  | began i =>
    simp only [add, Event.exit?]
    split <;> rfl
  | ended i e =>
    simp only [add, Event.exit?]
    split <;> rfl
  | gaveUp name limit window =>
    simp only [add, Event.exit?]
    split <;> rfl
  | _ => rfl

/-- The job whose history an event belongs to. -/
def Event.subject? : Event → Option String
  | .triggered name _ _ => some name
  | .began i => some i.job
  | .ended i _ => some i.job
  | .gaveUp name _ _ => some name
  | _ => none

theorem History.add_of_ne {job : String} {e : Event} (other : e.subject? ≠ some job) (h : History) :
    h.add job e = h := by
  cases e with
  | triggered name reason accepted => exact if_neg fun same => other (congrArg some same)
  | began i => exact if_neg fun same => other (congrArg some same)
  | ended i e => exact if_neg fun same => other (congrArg some same)
  | gaveUp name limit window => exact if_neg fun same => other (congrArg some same)
  | _ => rfl

/-- Events of other jobs leave the history of a job as it is. -/
theorem History.foldl_of_ne {job : String} {events : List Event}
    (others : ∀ e ∈ events, e.subject? ≠ some job) (h : History) :
    events.foldl (·.add job) h = h := by
  induction events with
  | nil => rfl
  | cons e rest ih =>
    rw [List.foldl_cons, add_of_ne (others e List.mem_cons_self)]
    exact ih fun e mem => others e (List.mem_cons_of_mem _ mem)

theorem History.foldl_notes (job : String) (h : History) (notes : List Note) :
    (notes.map Event.note).foldl (·.add job) h = h := by
  refine foldl_of_ne ?_ h
  intro e mem same
  obtain ⟨n, -, rfl⟩ := List.mem_map.mp mem
  cases same

namespace Journal

/-- The history of a job. -/
def history (j : Journal) (job : String) : History := j.foldr (fun x h => h.add job x.event) {}

theorem history_record (j : Journal) (time : Instant) (events : List Event) (job : String) :
    (j.record time events).history job = events.foldl (·.add job) (j.history job) := by
  unfold history record
  rw [List.foldr_append, List.foldr_reverse, List.foldl_map]

theorem exits_record (j : Journal) (time : Instant) (events : List Event) (job : String) :
    ((j.record time events).history job).exits
      = (events.filterMap (Event.exit? job)).reverse ++ (j.history job).exits := by
  rw [history_record]
  generalize j.history job = h
  induction events generalizing h with
  | nil => rfl
  | cons e rest ih =>
    rw [List.foldl_cons, ih, History.exits_add]
    cases exit : e.exit? job with
    | none =>
      rw [List.filterMap_cons_none exit]
      rfl
    | some x =>
      rw [List.filterMap_cons_some exit, List.reverse_cons, List.append_assoc]
      rfl

end Journal

/-! ### Counters and histories -/

/-- The events that the supervisor counts itself. -/
def milestones : List String := ["start", "exit_normal", "exit_faulted", "exit_crashed", "gave_up"]

/-- How often the supervisor itself counts an event, given the history of the job. -/
def History.counted (h : History) (event : String) : Nat :=
  if event = "start" then h.starts
  else if event = "exit_normal" then h.exits.count .normal
  else if event = "exit_faulted" then h.exits.count .faulted
  else if event = "exit_crashed" then h.exits.count .crashed
  else if event = "gave_up" then h.gaveUps
  else 0

/-- Every exit is one of three. -/
theorem History.count_exits (h : History) :
    h.exits.count .normal + h.exits.count .faulted + h.exits.count .crashed = h.exits.length := by
  induction h.exits with
  | nil => rfl
  | cons e rest ih =>
    rw [List.length_cons, ← ih]
    cases e with
    | normal =>
      simp
      omega
    | faulted =>
      simp
      omega
    | crashed =>
      simp
      omega

/-- The events that the notes on an event count. -/
def Event.counts : Event → List (String × String)
  | .note n => n.token?.toList
  | .began i => [(i.job, "start")]
  | .ended i e => [(i.job, "exit_" ++ e.label)]
  | .gaveUp name _ _ => [(name, "gave_up")]
  | _ => []

theorem Event.filterMap_token_notes (e : Event) : e.notes.filterMap Note.token? = e.counts := by
  cases e with
  | note n => cases token : n.token? <;> simp [notes, counts, token]
  | triggered name reason accepted => cases accepted <;> rfl
  | ended i e => cases e <;> rfl
  | _ => rfl

/-- What is counted of an event was left as a note, or the supervisor counted it for the history. -/
theorem History.counted_add (job : String) (h : History) (e : Event) (event : String) :
    (h.add job e).counted event + e.token?.toList.count (job, event)
      = h.counted event + e.counts.count (job, event) := by
  have single : ∀ (name label : String), [(name, label)].count (job, event)
      = if name = job then if event = label then 1 else 0 else 0 := by
    intro name label
    by_cases same : name = job <;> by_cases named : event = label <;> simp [same, named, Ne.symm]
  -- an event of the job adds to one entry of its history, and that is the event counted
  have adds : ∀ {g : History} (label : String), g.counted label = h.counted label + 1 →
      (event ≠ label → g.counted event = h.counted event) →
      g.counted event = h.counted event + if event = label then 1 else 0 := by
    intro g label one others
    by_cases named : event = label
    · rw [if_pos named, named, one]
    · rw [if_neg named, others named, Nat.add_zero]
  cases e with
  | began i =>
    by_cases same : i.job = job
    · simp only [add, Event.token?, Event.counts, single, same, if_true]
      exact adds _ rfl fun other => by simp [counted, other]
    · simp [add, Event.token?, Event.counts, same, single]
  | ended i e =>
    by_cases same : i.job = job
    · simp only [add, Event.token?, Event.counts, single, same, if_true]
      cases e with
      | normal =>
        exact adds "exit_normal" (by simp [counted]) fun other => by simp [counted, other]
      | faulted =>
        exact adds "exit_faulted" (by simp [counted]) fun other => by simp [counted, other]
      | crashed =>
        exact adds "exit_crashed" (by simp [counted]) fun other => by simp [counted, other]
    · simp [add, Event.token?, Event.counts, same, single]
  | gaveUp name limit window =>
    by_cases same : name = job
    · simp only [add, Event.token?, Event.counts, single, same, if_true]
      exact adds _ rfl fun other => by simp [counted, other]
    · simp [add, Event.token?, Event.counts, same, single]
  | triggered name reason accepted =>
    by_cases same : name = job <;> simp [add, Event.token?, Event.counts, same, counted]
  | _ => simp [add, Event.token?, Event.counts]

namespace Journal

/-- A counter stands at what workers and services counted and what the supervisor counted itself. -/
theorem counter_eq (j : Journal) (job event : String) :
    j.counter job event = j.tokens.count (job, event) + (j.history job).counted event := by
  induction j with
  | nil => simp [counter, registry, notes, Note.recordAll, Registry.empty, Registry.count, tokens,
      history, History.counted]
  | cons x rest ih =>
    have tokens : Journal.tokens (x :: rest) = x.event.token?.toList ++ Journal.tokens rest := by
      cases token : x.event.token? <;> simp [Journal.tokens, token]
    have counted := History.counted_add job (Journal.history rest job) x.event event
    have history : Journal.history (x :: rest) job = (Journal.history rest job).add job x.event := rfl
    rw [counter_cons, ih, x.event.filterMap_token_notes, tokens, List.count_append, history]
    omega

end Journal

/-- An event is plain if it leaves to the supervisor what the supervisor counts itself. -/
def Event.isPlain (e : Event) : Prop :=
  ∀ worker event, e.token? = some (worker, event) → event ∉ milestones

/-- If all notes are plain, the counters of what the supervisor counts tell the history. -/
theorem Journal.counter_of_plain {j : Journal} (plain : ∀ x ∈ j, x.event.isPlain) (job : String)
    {event : String} (own : event ∈ milestones) : j.counter job event = (j.history job).counted event := by
  rw [j.counter_eq, List.count_eq_zero_of_not_mem, Nat.zero_add]
  intro mem
  obtain ⟨x, listed, token⟩ := List.mem_filterMap.mp mem
  exact plain x listed job event token own

end Settler
