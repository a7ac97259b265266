import Mathlib.Data.List.Basic
import Settler.Journal.Entry

/-!
What the journal says of the talk with the services.

`Journal.exchanges` lists everything that went out, in order, with what came back. Those of one
job come in consecutive blocks, one for each instance that began (`Blocks`), as long as nothing is
sent but by the instance that began last.
-/

namespace Settler

/-- Something that went out, on whose behalf, and what came back; none if nothing did. -/
structure Exchange where
  owner : Instance
  sent : Outbound
  reply : Option (Except Fault Reply)

/-- The exchange when its owner hears an outcome: the outcome is the reply to what is open. -/
def Exchange.hear (i : Instance) (outcome : Except Fault Reply) (x : Exchange) : Exchange :=
  if x.owner = i ∧ x.reply.isNone then { x with reply := some outcome } else x

namespace Event

/-- The exchanges after an event. -/
def addTo : Event → List Exchange → List Exchange
  | .sent i o, xs => xs ++ [⟨i, o, none⟩]
  | .heard i outcome, xs => xs.map (·.hear i outcome)
  | _, xs => xs

/-- The instance that an event begins, if it is one of the job. -/
def began? (job : String) : Event → Option Instance
  | .began i => if i.job = job then some i else none
  | _ => none

/-- The instance that an event says something of in the exchanges or in the list of instances. -/
def speaker? : Event → Option Instance
  | .sent i _ => some i
  | .heard i _ => some i
  | .began i => some i
  | _ => none

end Event

namespace Journal

/-- Everything that went out, the oldest first, with what came back. -/
def exchanges : Journal → List Exchange
  | [] => []
  | e :: j => e.event.addTo (exchanges j)

/-- The exchanges of an instance. -/
def exchangesOf (j : Journal) (i : Instance) : List Exchange :=
  j.exchanges.filter fun x => x.owner = i

/-- The exchanges of a job. -/
def exchangesFor (j : Journal) (job : String) : List Exchange :=
  j.exchanges.filter fun x => x.owner.job = job

/-- The instances of a job that began, the oldest first. -/
def instances (j : Journal) (job : String) : List Instance :=
  j.reverse.filterMap fun e => e.event.began? job

end Journal

/-! ### Exchanges as events come in -/

theorem Exchange.hear_owner (i : Instance) (outcome : Except Fault Reply) (x : Exchange) :
    (x.hear i outcome).owner = x.owner := by
  unfold Exchange.hear
  split <;> rfl

theorem Exchange.hear_sent (i : Instance) (outcome : Except Fault Reply) (x : Exchange) :
    (x.hear i outcome).sent = x.sent := by
  unfold Exchange.hear
  split <;> rfl

/-- An exchange that has its reply keeps it. -/
theorem Exchange.hear_of_reply {i : Instance} {outcome : Except Fault Reply} {x : Exchange}
    (h : x.reply ≠ none) : x.hear i outcome = x := by
  unfold Exchange.hear
  rw [if_neg]
  rintro ⟨-, open_⟩
  exact h (Option.isNone_iff_eq_none.mp open_)

theorem Exchange.hear_of_owner_ne {i : Instance} {outcome : Except Fault Reply} {x : Exchange}
    (h : x.owner ≠ i) : x.hear i outcome = x := by
  unfold Exchange.hear
  rw [if_neg]
  rintro ⟨same, -⟩
  exact h same

/-- Choosing exchanges by their owners goes through `hear`. -/
theorem filter_map_hear (p : Instance → Bool) (i : Instance) (outcome : Except Fault Reply)
    (xs : List Exchange) :
    (xs.map (·.hear i outcome)).filter (fun x => p x.owner)
      = (xs.filter fun x => p x.owner).map (·.hear i outcome) := by
  rw [List.filter_map]
  congr 1
  apply List.filter_congr
  intro x _
  simp only [Function.comp_apply, Exchange.hear_owner]

theorem map_hear_of_forall_ne {i : Instance} {outcome : Except Fault Reply} {xs : List Exchange}
    (h : ∀ x ∈ xs, x.owner ≠ i) : xs.map (·.hear i outcome) = xs := by
  calc
    xs.map (·.hear i outcome) = xs.map id :=
      List.map_congr_left fun x hx => Exchange.hear_of_owner_ne (h x hx)
    _ = xs := List.map_id xs

namespace Event

/-- What an event adds to the exchanges of some owners is what it adds to all of them, if it
speaks of one of these owners, and else it adds nothing. -/
theorem filter_addTo (p : Instance → Bool) (e : Event) (xs : List Exchange) :
    (e.addTo xs).filter (fun x => p x.owner)
      = if e.speaker?.all p then e.addTo (xs.filter fun x => p x.owner)
        else xs.filter fun x => p x.owner := by
  cases e with
  | sent i o =>
    by_cases h : p i
    · simp [addTo, speaker?, h]
    · simp [addTo, speaker?, h]
  | heard i outcome =>
    by_cases h : p i
    · simp only [addTo, speaker?, Option.all_some, h, if_true]
      exact filter_map_hear p i outcome xs
    · simp only [addTo, speaker?, Option.all_some, h]
      rw [filter_map_hear]
      apply map_hear_of_forall_ne
      intro x hx same
      have := (List.mem_filter.mp hx).2
      rw [same] at this
      exact h this
  | _ =>
    simp only [addTo]
    split <;> rfl

theorem addTo_of_speaker_none {e : Event} (h : e.speaker? = none) (xs : List Exchange) :
    e.addTo xs = xs := by
  cases e <;> first | rfl | cases h

theorem began_of_speaker_none {e : Event} (h : e.speaker? = none) (job : String) :
    e.began? job = none := by
  cases e <;> first | rfl | cases h

theorem began_of_speaker_ne {e : Event} {job : String} (h : ∀ i, e.speaker? = some i → i.job ≠ job) :
    e.began? job = none := by
  cases e with
  | began i => exact if_neg (h i rfl)
  | _ => rfl

end Event

namespace Journal

theorem record_cons (j : Journal) (time : Instant) (e : Event) (events : List Event) :
    j.record time (e :: events) = Journal.record (⟨time, e⟩ :: j) time events := by
  simp [record]

theorem record_append (j : Journal) (time : Instant) (first second : List Event) :
    j.record time (first ++ second) = (j.record time first).record time second := by
  simp [record]

theorem exchanges_record (j : Journal) (time : Instant) (events : List Event) :
    (j.record time events).exchanges = events.foldl (fun xs e => e.addTo xs) j.exchanges := by
  induction events generalizing j with
  | nil => rfl
  | cons e rest ih => rw [record_cons, ih, List.foldl_cons, exchanges]

/-- The exchanges are over everything that went out, in order. -/
theorem exchanges_map_sent (j : Journal) : j.exchanges.map (·.sent) = j.outbound.reverse := by
  induction j with
  | nil => rfl
  | cons e j ih =>
    obtain ⟨time, event⟩ := e
    rw [exchanges]
    cases event with
    | sent i o =>
      calc
        (exchanges j ++ [(⟨i, o, none⟩ : Exchange)]).map (·.sent)
            = (exchanges j).map (·.sent) ++ [o] := List.map_append
        _ = (o :: outbound j).reverse := by rw [ih, List.reverse_cons]
    | heard i outcome =>
      calc
        ((exchanges j).map (·.hear i outcome)).map (·.sent) = (exchanges j).map (·.sent) := by
          rw [List.map_map]
          exact List.map_congr_left fun x _ => Exchange.hear_sent i outcome x
        _ = (outbound j).reverse := ih
    | _ => exact ih

theorem instances_record (j : Journal) (time : Instant) (events : List Event) (job : String) :
    (j.record time events).instances job
      = j.instances job ++ events.filterMap (·.began? job) := by
  simp [instances, record, List.filterMap_map]

/-- Events that say nothing of the talk leave the exchanges as they are. -/
theorem exchanges_record_of_silent (j : Journal) (time : Instant) {events : List Event}
    (h : ∀ e ∈ events, e.speaker? = none) : (j.record time events).exchanges = j.exchanges := by
  rw [exchanges_record]
  induction events with
  | nil => rfl
  | cons e rest ih =>
    rw [List.foldl_cons, Event.addTo_of_speaker_none (h e List.mem_cons_self)]
    exact ih fun e he => h e (List.mem_cons_of_mem _ he)

theorem instances_record_of_silent (j : Journal) (time : Instant) {events : List Event}
    (h : ∀ e ∈ events, e.speaker? = none) (job : String) :
    (j.record time events).instances job = j.instances job := by
  rw [instances_record, List.filterMap_eq_nil_iff.mpr, List.append_nil]
  exact fun e he => Event.began_of_speaker_none (h e he) job

/-- Events that speak of no owner of a kind leave the exchanges of that kind as they are. -/
theorem filter_exchanges_record (p : Instance → Bool) (j : Journal) (time : Instant)
    {events : List Event} (h : ∀ e ∈ events, ∀ i, e.speaker? = some i → p i = false) :
    (j.record time events).exchanges.filter (fun x => p x.owner)
      = j.exchanges.filter fun x => p x.owner := by
  rw [exchanges_record]
  generalize j.exchanges = xs
  induction events generalizing xs with
  | nil => rfl
  | cons e rest ih =>
    rw [List.foldl_cons, ih (fun e he => h e (List.mem_cons_of_mem _ he)), Event.filter_addTo]
    cases speaker : e.speaker? with
    | none => simp [Event.addTo_of_speaker_none speaker]
    | some i => simp [h e List.mem_cons_self i speaker]

theorem exchangesOf_eq_filter (j : Journal) (i : Instance) :
    j.exchangesOf i = (j.exchangesFor i.job).filter fun x => x.owner = i := by
  unfold exchangesOf exchangesFor
  rw [List.filter_filter]
  apply List.filter_congr
  intro x _
  by_cases h : x.owner = i <;> simp [h]

/-! ### One event at a time -/

variable (j : Journal) (time : Instant)

theorem instances_began (i : Instance) :
    (j.record time [.began i]).instances i.job = j.instances i.job ++ [i] := by
  simp [instances_record, Event.began?]

theorem instances_sent (i : Instance) (o : Outbound) (job : String) :
    (j.record time [.sent i o]).instances job = j.instances job := by
  simp [instances_record, Event.began?]

theorem instances_heard (i : Instance) (outcome : Except Fault Reply) (job : String) :
    (j.record time [.heard i outcome]).instances job = j.instances job := by
  simp [instances_record, Event.began?]

theorem exchanges_began (i : Instance) : (j.record time [.began i]).exchanges = j.exchanges := by
  rw [exchanges_record]; rfl

theorem exchangesOf_began (i k : Instance) :
    (j.record time [.began i]).exchangesOf k = j.exchangesOf k := by
  rw [exchangesOf, exchanges_began, exchangesOf]

theorem exchangesFor_sent (i : Instance) (o : Outbound) :
    (j.record time [.sent i o]).exchangesFor i.job = j.exchangesFor i.job ++ [⟨i, o, none⟩] := by
  simp [exchangesFor, exchanges_record, Event.addTo]

theorem exchangesOf_sent_self (i : Instance) (o : Outbound) :
    (j.record time [.sent i o]).exchangesOf i = j.exchangesOf i ++ [⟨i, o, none⟩] := by
  simp [exchangesOf, exchanges_record, Event.addTo]

theorem exchangesOf_sent_of_ne {i k : Instance} (h : i ≠ k) (o : Outbound) :
    (j.record time [.sent i o]).exchangesOf k = j.exchangesOf k := by
  simp [exchangesOf, exchanges_record, Event.addTo, h]

theorem exchangesFor_heard (i : Instance) (outcome : Except Fault Reply) (job : String) :
    (j.record time [.heard i outcome]).exchangesFor job
      = (j.exchangesFor job).map (·.hear i outcome) := by
  rw [exchangesFor, exchanges_record]
  exact filter_map_hear (fun o => decide (o.job = job)) i outcome j.exchanges

theorem exchangesOf_heard (i k : Instance) (outcome : Except Fault Reply) :
    (j.record time [.heard i outcome]).exchangesOf k
      = (j.exchangesOf k).map (·.hear i outcome) := by
  rw [exchangesOf, exchanges_record]
  exact filter_map_hear (fun o => decide (o = k)) i outcome j.exchanges

theorem owner_of_mem_exchangesOf {j : Journal} {i : Instance} {x : Exchange}
    (h : x ∈ j.exchangesOf i) : x.owner = i := by
  simpa using (List.mem_filter.mp h).2

end Journal

/-! ### Blocks -/

/-- Exchanges that come in consecutive blocks, one for each of the instances, in their order. -/
structure Blocks (is : List Instance) (xs : List Exchange) : Prop where
  distinct : is.Nodup
  split : xs = is.flatMap fun i => xs.filter fun x => x.owner = i

namespace Blocks

variable {is : List Instance} {xs : List Exchange}

theorem empty : Blocks [] [] := ⟨List.nodup_nil, rfl⟩

theorem owner_mem (h : Blocks is xs) {x : Exchange} (hx : x ∈ xs) : x.owner ∈ is := by
  rw [h.split, List.mem_flatMap] at hx
  obtain ⟨i, hi, hx⟩ := hx
  have same : x.owner = i := by simpa using (List.mem_filter.mp hx).2
  exact same ▸ hi

/-- A new instance begins with an empty block. -/
theorem began (h : Blocks is xs) {i : Instance} (new : i ∉ is) : Blocks (is ++ [i]) xs := by
  have none_yet : xs.filter (fun x => x.owner = i) = [] := by
    rw [List.filter_eq_nil_iff]
    intro x hx
    have ne : x.owner ≠ i := fun same => new (same ▸ h.owner_mem hx)
    simpa using ne
  refine ⟨?_, ?_⟩
  · exact List.nodup_append.mpr ⟨h.distinct, by simp, by rintro a ha b hb rfl; simp_all⟩
  · rw [List.flatMap_append, ← h.split, List.flatMap_singleton, none_yet, List.append_nil]

/-- What the last instance sends comes at the end of its block. -/
theorem sent {i : Instance} (h : Blocks (is ++ [i]) xs) (o : Outbound) :
    Blocks (is ++ [i]) (xs ++ [⟨i, o, none⟩]) := by
  have earlier : ∀ k ∈ is, (xs ++ [(⟨i, o, none⟩ : Exchange)]).filter (fun x => x.owner = k)
      = xs.filter fun x => x.owner = k := by
    intro k hk
    have ne : i ≠ k := fun same =>
      (List.nodup_append.mp h.distinct).2.2 k hk i (List.mem_singleton_self i) same.symm
    simp [List.filter_append, ne]
  refine ⟨h.distinct, ?_⟩
  have split := h.split
  rw [List.flatMap_append, List.flatMap_singleton] at split ⊢
  rw [List.flatMap_congr earlier, List.filter_append]
  calc
    xs ++ [⟨i, o, none⟩]
        = (is.flatMap fun k => xs.filter fun x => x.owner = k)
            ++ (xs.filter fun x => x.owner = i) ++ [⟨i, o, none⟩] := by rw [← split]
    _ = _ := by simp

/-- Hearing an outcome leaves the blocks as they are. -/
theorem heard (h : Blocks is xs) (i : Instance) (outcome : Except Fault Reply) :
    Blocks is (xs.map (·.hear i outcome)) := by
  refine ⟨h.distinct, ?_⟩
  calc
    xs.map (·.hear i outcome)
        = (is.flatMap fun k => xs.filter fun x => x.owner = k).map (·.hear i outcome) := by
          rw [← h.split]
    _ = is.flatMap fun k => (xs.filter fun x => x.owner = k).map (·.hear i outcome) :=
          List.map_flatMap
    _ = is.flatMap fun k => (xs.map (·.hear i outcome)).filter fun x => x.owner = k :=
          List.flatMap_congr fun k _ =>
            (filter_map_hear (fun o => decide (o = k)) i outcome xs).symm

end Blocks

end Settler
