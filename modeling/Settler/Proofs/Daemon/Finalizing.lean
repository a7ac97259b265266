import Settler.Proofs.Daemon.Chronicle
import Settler.Proofs.Worker.Calculator

/-!
Finalizing cannot be undone, and it happens only after enough calculations.

Whatever a supervisor is told to do and whatever its services do, the words of the calculators come
in blocks, one for each calculator that began, and each block is a run for one epoch. So whenever an
epoch is finalized, the words just before that are the run's own and say that it may be.
-/

namespace Settler

open Settler.Supervisor Settler.Calendar Settler.Settlement

/-- The record says that epochs are finalized only as they may be. -/
structure SafelyFinalized (j : Journal) : Prop where
  distinct : (j.instances Calculator.name).Nodup
  /-- The calculators' exchanges come in blocks, one for each calculator, in order. -/
  blocks : j.exchangesBy Calculator.name = (j.instances Calculator.name).flatMap j.exchangesOf
  runs : ∀ i ∈ j.instances Calculator.name, ∃ t, Calculator.Run t (j.exchangesOf i)
  /-- What comes just before an epoch is finalized is the rest of the same run, and all of it passed. -/
  confirmed : ∀ before x after t, j.exchangesBy Calculator.name = before ++ x :: after →
    x.sent = .asked (.finalizeDistribution t) → ∃ earlier run, before = earlier ++ run ∧
      run.map (·.sent) = ((Calculator.plan t).take 4).map .asked ∧
      ∀ y ∈ run, y.owner = x.owner ∧ Calculator.passes t y

/-- Every place in a list of blocks is a place in one of them. -/
theorem exists_of_flatMap_eq {α β : Type} {f : α → List β} {is : List α} {before after : List β}
    {x : β} (h : is.flatMap f = before ++ x :: after) :
    ∃ i ∈ is, ∃ earlier first last, f i = first ++ x :: last ∧ before = earlier ++ first := by
  induction is generalizing before with
  | nil => simp at h
  | cons i rest ih =>
    rw [List.flatMap_cons] at h
    rcases List.append_eq_append_iff.mp h with ⟨as, rfl, later⟩ | ⟨bs, own, later⟩
    · obtain ⟨k, hk, earlier, first, last, block, rfl⟩ := ih later
      exact ⟨k, List.mem_cons_of_mem _ hk, f i ++ earlier, first, last, block, by simp⟩
    · cases bs with
      | nil =>
        have later' : rest.flatMap f = [] ++ x :: after := later.symm
        obtain ⟨k, hk, earlier, first, last, block, none_yet⟩ := ih later'
        obtain ⟨rfl, rfl⟩ := List.append_eq_nil_iff.mp none_yet.symm
        exact ⟨k, List.mem_cons_of_mem _ hk, before, [], last, block, by simp⟩
      | cons b bs =>
        obtain ⟨rfl, -⟩ := List.cons_eq_cons.mp later
        exact ⟨i, List.mem_cons_self, [], before, bs, own, rfl⟩

/-- A record in which every calculator talks as calculators do is a safe one. -/
theorem Chronicle.safelyFinalized {j : Journal}
    (h : Chronicle j Calculator.name (Machine.begin (Worker.calculator .resolving))) :
    SafelyFinalized j where
  distinct := h.distinct
  blocks := h.blocks
  runs := fun i hi => Calculator.run_of_conversation (h.conversations i hi)
  confirmed := by
    intro before x after t split sent
    rw [h.blocks] at split
    obtain ⟨i, hi, earlier, run, last, block, rfl⟩ := exists_of_flatMap_eq split
    obtain ⟨t', whole⟩ := Calculator.run_of_conversation (h.conversations i hi)
    rw [block] at whole
    obtain ⟨rfl, -, words, passed⟩ := whole.finalized sent
    have owner : ∀ y ∈ run ++ x :: last, y.owner = i := by
      rw [← block]
      exact fun y => Journal.owner_of_mem_exchangesOf
    refine ⟨earlier, run, rfl, words, ?_⟩
    intro y hy
    rw [owner y (by simp [hy]), owner x (by simp)]
    exact ⟨rfl, passed y hy⟩

/-- Whatever a supervisor for settings is told to do, and whatever its services and its event loop do, epochs
are finalized only as they may be. -/
theorem safelyFinalized_of_script {settings : Settings} {st : State (Worker Number)}
    (h : settings.supervisor = .ok st) (origin : Moment) (services : Services Number)
    (ties : Ties) (script : List (Nat × State.Command Number)) :
    SafelyFinalized (st.drive (settings.setup origin services ties) script).journal :=
  (Settings.chronicle_calculator h origin services ties script).safelyFinalized

/-- A service that does at once as it is asked; the live epoch is 7. -/
def Services.agreeable : Services Number where
  settle _ op := .now (.ok (.ok (if op = .currentEpoch then .epoch 7 else .done)))
  post _ _ := .now (.ok ())

/-- Triggered once with a service that does as it is asked, the calculator says its whole plan. -/
theorem safelyFinalized_trigger :
    ∃ st, Settings.manual.supervisor = .ok st ∧
      let j := (st.drive (Settings.manual.setup ⟨0, none⟩ .agreeable)
        [(1, .trigger Calculator.name "manual"), (9, .settle)]).journal
      (j.exchangesBy Calculator.name).map (·.sent) = (Calculator.plan 6).map .asked ∧
        SafelyFinalized j :=
  ⟨_, rfl, rfl, safelyFinalized_of_script rfl _ _ _ _⟩

end Settler
