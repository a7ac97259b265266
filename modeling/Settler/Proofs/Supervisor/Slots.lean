import Mathlib.Data.List.Nodup
import Settler.Supervisor.Tick

/-!
The slots of a state by name.

Nothing that a supervisor does takes a slot away or gives it another name, so a slot is followed by
its name through every change.
-/

namespace Settler.Supervisor.State

open Settler.Calendar

variable {ω δ : Type} {s : State ω} {name : String} {t t' : Slot ω}

theorem name_of_slot (found : s.slot? name = some t) : t.job.name = name := by
  simpa using List.find?_some found

theorem mem_names_iff : name ∈ s.names ↔ ∃ t, s.slot? name = some t := by
  rw [← Option.isSome_iff_exists, slot?, List.find?_isSome]
  simp [names]

/-- With no name twice, a slot is found by its name. -/
theorem slot_of_mem (distinct : s.names.Nodup) (mem : t ∈ s.slots) : s.slot? t.job.name = some t := by
  obtain ⟨u, found⟩ := mem_names_iff.mp (List.mem_map.mpr ⟨t, mem, rfl⟩)
  rw [found]
  exact congrArg some
    (List.inj_on_of_nodup_map distinct (List.mem_of_find?_eq_some found) mem (name_of_slot found))

/-- The slot that was put is found by its name. -/
theorem slot_put_self (found : s.slot? name = some t) (named : t'.job.name = name) :
    (s.put t').slot? name = some t' := by
  have same : (fun u : Slot ω => (if u.job.name = t'.job.name then t' else u).job.name == name)
      = fun u => u.job.name == name := by
    funext u
    split
    · next eq => rw [eq]
    · rfl
  simp only [slot?, put, List.find?_map, Function.comp_def, same]
  rw [show s.slots.find? (fun u => u.job.name == name) = some t from found]
  simp [name_of_slot found, named]

/-- The other slots stay as they are. -/
theorem slot_put_of_ne (other : t'.job.name ≠ name) : (s.put t').slot? name = s.slot? name := by
  have same : (fun u : Slot ω => (if u.job.name = t'.job.name then t' else u).job.name == name)
      = fun u => u.job.name == name := by
    funext u
    split
    · next eq => rw [eq]
    · rfl
  simp only [slot?, put, List.find?_map, Function.comp_def, same]
  cases found : s.slots.find? fun u => u.job.name == name with
  | none => rfl
  | some u =>
    have named : u.job.name = name := by simpa using List.find?_some found
    simp [named, Ne.symm other]

@[simp]
theorem names_put (s : State ω) (t' : Slot ω) : (s.put t').names = s.names := by
  simp only [names, put, List.map_map]
  refine List.map_congr_left ?_
  intro u _
  simp only [Function.comp_apply]
  split
  · next same => exact same.symm
  · rfl

/-- With no name twice, to put a slot is to change the one of its name. -/
theorem slots_put_eq_map (distinct : s.names.Nodup) (found : s.slot? name = some t)
    (f : Slot ω → Slot ω) (job : (f t).job = t.job) :
    (s.put (f t)).slots = s.slots.map fun u => if u.job.name = name then f u else u := by
  obtain rfl := name_of_slot found
  refine List.map_congr_left ?_
  intro u mem
  rw [job]
  split
  · next same =>
    rw [List.inj_on_of_nodup_map distinct mem (List.mem_of_find?_eq_some found) same]
  · rfl

/-- A change of every slot that leaves the jobs as they are. -/
theorem slot_map (s : State ω) {f : Slot ω → Slot ω} (job : ∀ t, (f t).job = t.job) (name : String) :
    State.slot? { s with slots := s.slots.map f } name = (s.slot? name).map f := by
  simp only [slot?, List.find?_map, Function.comp_def, job]

end Settler.Supervisor.State
