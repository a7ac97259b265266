import Settler.Proofs.Supervisor.Placed

/-!
Whom a move concerns.

A move counts nothing but in the life of its own job's workers, as long as the worker and the services mind
their own; so it concerns no other job (`Slot.unconcerned_move`).
-/

namespace Settler.Supervisor

open Settler.Calendar

variable {ω δ : Type}

namespace Slot

section

variable [Seconds δ] (su : Setup δ) (o : Occasion)

theorem countsFor_recover (s : Slot ω) (l : Live ω) :
    ∀ e ∈ (s.recover su o l).2, e.CountsFor s.job.name := by
  unfold recover
  dsimp only
  split
  · exact List.forall_mem_singleton.mpr (List.forall_mem_singleton.mpr rfl)
  · exact List.forall_mem_singleton.mpr (List.forall_mem_nil _)

theorem countsFor_finish (s : Slot ω) (l : Live ω) (exit : Exit) (error : Str) :
    ∀ e ∈ (s.finish su o l exit error).2, e.CountsFor s.job.name := by
  unfold finish
  cases su.moment o.now with
  | error f => exact List.forall_mem_nil _
  | ok m =>
    refine List.forall_mem_cons.mpr ⟨List.forall_mem_singleton.mpr rfl, ?_⟩
    cases exit with
    | crashed => exact countsFor_recover su o _ l
    | _ => exact List.forall_mem_nil _

theorem countsFor_fail (s : Slot ω) (l : Live ω) (f : Fault) :
    ∀ e ∈ (s.fail su o l f).2, e.CountsFor s.job.name := by
  unfold fail
  split
  · exact List.forall_mem_nil _
  · exact List.forall_mem_cons.mpr ⟨List.forall_mem_nil _, countsFor_finish su o s l _ _⟩

/-- A turn of the job's worker. -/
theorem countsFor_follow (s : Slot ω) (l : Live ω) {t : Turn ω δ}
    (own : ∀ n ∈ t.notes, ∀ x, n.token? = some x → x.1 = s.job.name) :
    ∀ e ∈ (s.follow su o l t).2, e.CountsFor s.job.name := by
  unfold follow
  refine List.forall_mem_append.mpr ⟨Event.countsFor_notes own, ?_⟩
  cases t.next with
  | pause span => exact List.forall_mem_nil _
  | hold => exact List.forall_mem_nil _
  | ask op => exact List.forall_mem_singleton.mpr (List.forall_mem_nil _)
  | post totals => exact List.forall_mem_singleton.mpr (List.forall_mem_nil _)
  | exit e => exact countsFor_finish su o s l e ""
  | fail f => exact countsFor_fail su o s l f

variable [Machine ω δ]

theorem countsFor_launch (s : Slot ω) (l : Live ω)
    (own : ∀ w : ω, s.job.build s.built = .ok w → ∀ n ∈ (Machine.begin w).notes, ∀ x, n.token? = some x →
      x.1 = s.job.name) :
    ∀ e ∈ (s.launch su o l).2, e.CountsFor s.job.name := by
  unfold launch
  cases build : s.job.build s.built with
  | error f => exact List.forall_mem_nil _
  | ok w =>
    dsimp only
    cases su.moment o.now with
    | error f => exact List.forall_mem_nil _
    | ok m =>
      refine List.forall_mem_cons.mpr ⟨List.forall_mem_singleton.mpr rfl, ?_⟩
      exact countsFor_follow su o (s.begun m) l (own w build)

/-- A move counts nothing but in the life of the job's workers, if its worker does so. -/
theorem countsFor_move (s : Slot ω) (l : Live ω) (quiet : l.phase.IsQuiet)
    (own : ∀ t, s.turn? l = some t → ∀ n ∈ t.notes, ∀ x, n.token? = some x → x.1 = s.job.name) :
    ∀ e ∈ (s.move su o l).2, e.CountsFor s.job.name := by
  unfold turn? at own
  unfold move
  cases phase : l.phase with
  | created =>
    rw [phase] at own
    refine countsFor_launch su o s l fun w build => own _ ?_
    rw [build]
    rfl
  | backingOff =>
    rw [phase] at own
    refine countsFor_launch su o s l fun w build => own _ ?_
    rw [build]
    rfl
  | resting w =>
    rw [phase] at own
    exact countsFor_follow su o s l (own _ rfl)
  | awaiting w outcome notes abandoned =>
    rw [phase] at own quiet
    refine List.forall_mem_append.mpr ⟨Event.countsFor_notes ?_, ?_⟩
    · intro n listed x token
      cases (quiet n listed).symm.trans token
    · refine List.forall_mem_cons.mpr ⟨List.forall_mem_nil _, ?_⟩
      cases outcome with
      | error f => exact countsFor_fail su o s l f
      | ok r => exact countsFor_follow su o s l (own _ rfl)

/-- A move of another job is of no concern. -/
theorem unconcerned_move {s : Slot ω} {l : Live ω} (quiet : l.phase.IsQuiet)
    (own : ∀ t, s.turn? l = some t → ∀ n ∈ t.notes, ∀ x, n.token? = some x → x.1 = s.job.name)
    {name : String} (ne : s.job.name ≠ name) :
    ∀ e ∈ (s.move su o l).2, e.concerns name = false := fun e mem =>
  Event.not_concerns (countsFor_move su o s l quiet own e mem) ((own_move su o s l).speakers e mem) ne

end

end Slot

end Settler.Supervisor
