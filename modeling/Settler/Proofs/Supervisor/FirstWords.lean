import Settler.Proofs.Supervisor.Fates

/-!
Every instance says its first word when it begins.

An instance whose worker asks for something in its first turn has an exchange on record as long as it is
on record itself, whatever comes of it and whenever it is stopped.
-/

namespace Settler

namespace Event

theorem length_le_addTo (e : Event) (xs : List Exchange) : xs.length ≤ (e.addTo xs).length := by
  cases e with
  | sent i o =>
    show xs.length ≤ (xs ++ [(⟨i, o, none⟩ : Exchange)]).length
    rw [List.length_append]
    exact Nat.le_add_right _ _
  | heard i outcome => exact Nat.le_of_eq (List.length_map _).symm
  | _ => exact Nat.le_refl _

end Event

namespace Journal

/-- What an instance said stays on record. -/
theorem exchangesOf_record_ne_nil {j : Journal} {i : Instance} (said : j.exchangesOf i ≠ [])
    (time : Instant) (events : List Event) : (j.record time events).exchangesOf i ≠ [] := by
  induction events generalizing j with
  | nil => exact said
  | cons e rest ih =>
    rw [record_cons]
    refine ih ?_
    have grows : (j.exchangesOf i).length ≤ (exchangesOf (⟨time, e⟩ :: j) i).length := by
      have after : exchangesOf (⟨time, e⟩ :: j) i = (e.addTo j.exchanges).filter fun x => x.owner = i := rfl
      rw [after, e.filter_addTo fun k => decide (k = i)]
      split
      · exact e.length_le_addTo _
      · exact Nat.le_refl _
    exact List.ne_nil_of_length_pos (Nat.lt_of_lt_of_le (List.length_pos_of_ne_nil said) grows)

end Journal

namespace Supervisor

open Calendar

variable {ω δ : Type}

/-- Every instance of a job whose worker says something in its first turn has said it. -/
def Opened [Machine ω δ] (j : Journal) (job : Job ω) : Prop :=
  ∀ i ∈ j.instances job.name, ∀ w o, job.build (i.number - 1) = .ok w →
    (Machine.begin w).next.outbound? = some o → j.exchangesOf i ≠ []

theorem Opened.record [Machine ω δ] {j : Journal} {job : Job ω} (h : Opened j job) (time : Instant)
    {events : List Event} (none_began : ∀ e ∈ events, e.began? job.name = none) :
    Opened (j.record time events) job := by
  intro i mem w o build word
  rw [Journal.instances_record, List.filterMap_eq_nil_iff.mpr none_began, List.append_nil] at mem
  exact Journal.exchangesOf_record_ne_nil (h i mem w o build word) time events

namespace Slot

variable [Seconds δ] {su : Setup δ} {o : Occasion} {m : Moment} {j : Journal} {s s' : Slot ω}
  {l : Live ω} {events : List Event}

theorem Goes.none_began {t : Turn ω δ} (goes : Goes su o m s l t s' events) (job : String) :
    ∀ e ∈ events, e.began? job = none := by
  cases goes with
  | rests rest => exact List.forall_mem_nil _
  | awaits wants => exact List.forall_mem_singleton.mpr rfl
  | ends ends closes => exact fun e mem => Event.began_of_speaker_none (closes.silent e mem) job

/-- A turn that says a word leads to nothing else. -/
theorem Goes.of_word {t : Turn ω δ} (goes : Goes su o m s l t s' events) {out : Outbound}
    (word : t.next.outbound? = some out) : events = [.sent s.current out] := by
  have other : t.next.isRest = false ∧ Supervisor.ending? t = none := by
    unfold Supervisor.ending?
    cases next : t.next with
    | ask op => exact ⟨rfl, rfl⟩
    | post totals => exact ⟨rfl, rfl⟩
    | _ =>
      rw [next] at word
      cases word
  cases goes with
  | rests rest =>
    rw [other.1] at rest
    cases rest
  | awaits wants =>
    cases word.symm.trans wants
    rfl
  | ends ends closes =>
    rw [other.2] at ends
    cases ends

theorem Moves.opened [Machine ω δ] (h : Opened j s.job) (moves : Moves su o m s l s' events)
    (time : Instant) : Opened (j.record time events) s.job := by
  have silent : ∀ notes : List Note, ∀ e ∈ notes.map Event.note, e.began? s.job.name = none := by
    intro notes e mem
    obtain ⟨n, -, rfl⟩ := List.mem_map.mp mem
    rfl
  cases moves with
  | unbuilt fresh build => exact h.record time (List.forall_mem_nil _)
  | @launched w s' events fresh build goes =>
    have later : ∀ e ∈ (Machine.begin w).notes.map Event.note ++ events, e.began? s.job.name = none :=
      List.forall_mem_append.mpr ⟨silent _, goes.none_began _⟩
    intro i mem w' out build' word
    rw [Journal.instances_record, List.filterMap_append, List.filterMap_eq_nil_iff.mpr later,
      List.append_nil] at mem
    rcases List.mem_append.mp mem with old | new
    · exact Journal.exchangesOf_record_ne_nil (h i old w' out build' word) time _
    · have current : i = (s.begun m).current := by simpa [Event.began?, current, begun] using new
      subst current
      cases build.symm.trans build'
      rw [goes.of_word word, ← List.append_assoc, Journal.record_append, Journal.exchangesOf_sent_self]
      exact List.append_ne_nil_of_right_ne_nil _ (List.cons_ne_nil _ _)
  | resumed hears goes =>
    refine h.record time (List.forall_mem_append.mpr ⟨?_, List.forall_mem_append.mpr
      ⟨silent _, goes.none_began _⟩⟩)
    cases hears with
    | rested phase => exact List.forall_mem_nil _
    | heard phase => exact List.forall_mem_append.mpr ⟨silent _, List.forall_mem_singleton.mpr rfl⟩
  | failed phase closes =>
    refine h.record time (List.forall_mem_append.mpr ⟨silent _, List.forall_mem_cons.mpr ⟨rfl, ?_⟩⟩)
    exact fun e mem => Event.began_of_speaker_none (closes.silent e mem) _

end Slot

namespace State

variable [Machine ω δ] [Seconds δ] {su : Setup δ} {m : Moment} {jobs : List (Job ω)} {s : State ω}
  {t t' : Slot ω} {events : List Event}

/-- What happens to the slot of a job leaves no instance without its first word. -/
theorem Fate.opened (fate : Fate su m s t t' events) (documented : s.Documented jobs)
    (echoed : ∀ u ∈ s.slots, u.Echoed su) (opened : Opened s.journal t.job) :
    Opened (s.journal.record s.now events) t.job := by
  cases fate with
  | moved live moves => exact moves.opened opened s.now
  | other listed ne live moves =>
    refine opened.record s.now fun e recorded => ?_
    rcases moves.records (documented.slots _ listed) (echoed _ listed) live e recorded with
      own | ⟨n, rfl, -⟩
    · exact Event.began_of_speaker_ne fun i speaker => (own.speaker i speaker).symm ▸ ne
    · rfl
  | attempted tried => exact opened.record s.now (List.forall_mem_singleton.mpr rfl)
  | otherAttempted ne => exact opened.record s.now (List.forall_mem_singleton.mpr rfl)
  | noteTick => exact opened.record s.now (List.forall_mem_singleton.mpr rfl)
  | noteStart => exact opened.record s.now (List.forall_mem_singleton.mpr rfl)
  | _ => exact opened.record s.now (List.forall_mem_nil _)

end State

end Supervisor

end Settler
