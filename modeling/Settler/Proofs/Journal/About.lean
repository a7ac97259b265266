import Settler.Proofs.Journal.Counters
import Settler.Proofs.Journal.Exchange
import Settler.Proofs.Worker.Senders

/-!
The part of the journal that is about one job.

What went out for a job, when it did, and where the job's counters stand is all read off the entries that
concern the job (`Journal.about`).
-/

namespace Settler

/-- What an event says went out for a job. -/
def Event.sentFor? (job : String) : Event → Option Outbound
  | .sent i o => if i.job = job then some o else none
  | _ => none

/-- The event says that something went out for the job, or it counts in the life of the job's workers. -/
def Event.concerns (job : String) (e : Event) : Bool :=
  e.counts.any (·.1 = job) || (e.sentFor? job).isSome

theorem Event.sentFor_of_not_concerns {job : String} {e : Event} (other : e.concerns job = false) :
    e.sentFor? job = none := by
  simp only [concerns, Bool.or_eq_false_iff] at other
  exact Option.not_isSome_iff_eq_none.mp (Bool.eq_false_iff.mp other.2)

theorem Event.count_of_not_concerns {job : String} {e : Event} (other : e.concerns job = false)
    (event : String) : e.counts.count (job, event) = 0 := by
  simp only [concerns, Bool.or_eq_false_iff, List.any_eq_false] at other
  exact List.count_eq_zero_of_not_mem fun mem => other.1 _ mem (decide_eq_true rfl)

/-- Nothing is counted but in the life of the job's workers. -/
def Event.CountsFor (job : String) (e : Event) : Prop := ∀ x ∈ e.counts, x.1 = job

theorem Event.countsFor_notes {job : String} {notes : List Note}
    (own : ∀ n ∈ notes, ∀ x, n.token? = some x → x.1 = job) :
    ∀ e ∈ notes.map Event.note, e.CountsFor job := by
  intro e mem x counted
  obtain ⟨n, listed, rfl⟩ := List.mem_map.mp mem
  exact own n listed x (Option.mem_toList.mp counted)

/-- What counts and speaks for one job concerns no other. -/
theorem Event.not_concerns {job other : String} {e : Event} (counts : e.CountsFor job)
    (speaks : ∀ i, e.speaker? = some i → i.job = job) (ne : job ≠ other) : e.concerns other = false := by
  have uncounted : e.counts.any (·.1 = other) = false := by
    rw [List.any_eq_false]
    intro x counted same
    exact ne ((counts x counted).symm.trans (of_decide_eq_true same))
  have unsent : e.sentFor? other = none := by
    cases e with
    | sent i out => exact if_neg fun same => ne ((speaks i rfl).symm.trans same)
    | _ => rfl
  rw [concerns, uncounted, unsent]
  rfl

namespace Journal

/-- The entries that concern a job. -/
def about (j : Journal) (job : String) : Journal := j.filter (·.event.concerns job)

/-- What went out for a job, and when, the newest first. -/
def sentFor (j : Journal) (job : String) : List (Instant × Outbound) :=
  j.filterMap fun x => (x.event.sentFor? job).map (x.time, ·)

theorem about_record (j : Journal) (time : Instant) (events : List Event) (job : String) :
    (j.record time events).about job = (j.about job).record time (events.filter (·.concerns job)) := by
  simp only [about, record, List.filter_append, List.filter_reverse, List.filter_map, Function.comp_def]

/-- Entries that do not concern the job add nothing. -/
theorem about_record_of_unconcerned (j : Journal) (time : Instant) {events : List Event} {job : String}
    (others : ∀ e ∈ events, e.concerns job = false) :
    (j.record time events).about job = j.about job := by
  have none_left : events.filter (·.concerns job) = [] := by
    rw [List.filter_eq_nil_iff]
    intro e mem
    rw [others e mem]
    exact Bool.false_ne_true
  rw [about_record, none_left]
  rfl

theorem sentFor_about (j : Journal) (job : String) : (j.about job).sentFor job = j.sentFor job := by
  unfold sentFor about
  rw [List.filterMap_filter]
  refine List.filterMap_congr fun x _ => ?_
  split
  · rfl
  · next other =>
    rw [Event.sentFor_of_not_concerns (Bool.eq_false_iff.mpr other)]
    rfl

theorem counter_about (j : Journal) (job event : String) :
    (j.about job).counter job event = j.counter job event := by
  induction j with
  | nil => rfl
  | cons x rest ih =>
    rw [counter_cons, x.event.filterMap_token_notes]
    cases concerned : x.event.concerns job with
    | true =>
      have kept : about (x :: rest) job = x :: about rest job := List.filter_cons_of_pos concerned
      rw [kept, counter_cons, x.event.filterMap_token_notes, ih]
    | false =>
      have dropped : about (x :: rest) job = about rest job :=
        List.filter_cons_of_neg (Bool.eq_false_iff.mp concerned)
      rw [dropped, ih, Event.count_of_not_concerns concerned, Nat.add_zero]

/-- Whatever an entry says went out is among the exchanges. -/
theorem exists_exchange {j : Journal} {x : Entry} (mem : x ∈ j) {i : Instance} {o : Outbound}
    (sent : x.event = .sent i o) : ∃ y ∈ j.exchanges, y.owner = i ∧ y.sent = o := by
  induction j with
  | nil => cases mem
  | cons z rest ih =>
    rcases List.mem_cons.mp mem with rfl | mem
    · rw [exchanges, sent]
      exact ⟨_, List.mem_append_right _ (List.mem_singleton.mpr rfl), rfl, rfl⟩
    · obtain ⟨y, listed, owner, said⟩ := ih mem
      rw [exchanges]
      cases z.event with
      | sent k o' => exact ⟨y, List.mem_append_left _ listed, owner, said⟩
      | heard k outcome =>
        exact ⟨_, List.mem_map_of_mem listed, (y.hear_owner k outcome).trans owner,
          (y.hear_sent k outcome).trans said⟩
      | _ => exact ⟨y, listed, owner, said⟩

/-- While jobs say nothing but words of their own, the words of a kind that went out are what went out
for the job of that name. -/
theorem filter_outbound {j : Journal} (own : ∀ x ∈ j.exchanges, x.sent.sender = x.owner.job)
    (job : String) : (j.outbound.filter fun o => o.sender = job) = (j.sentFor job).map (·.2) := by
  have word : ∀ x ∈ j, ((sent? x).filter fun o => o.sender = job) = x.event.sentFor? job := by
    rintro ⟨time, event⟩ mem
    cases event with
    | sent i o =>
      obtain ⟨y, listed, rfl, rfl⟩ := exists_exchange mem rfl
      simp [sent?, Event.sentFor?, Option.filter_some, own y listed]
    | _ => rfl
  unfold outbound sentFor
  rw [List.filter_filterMap, List.map_filterMap]
  refine List.filterMap_congr fun x mem => ?_
  rw [word x mem, Option.map_map]
  exact Option.map_id'.symm

end Journal

end Settler
