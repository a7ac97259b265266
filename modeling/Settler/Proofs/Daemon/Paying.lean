import Settler.Proofs.Daemon.Chronicle
import Settler.Proofs.Worker.Sweep

/-!
No sweep pays twice or passes over an epoch, and none posts what it did not pay.

Whatever a supervisor is told to do and whatever its services do, the words of the sweeps come in
blocks, one for each sweep that began, and each block is a run from the genesis epoch on. Totals that
are posted are those of the block that they end.
-/

namespace Settler

open Settler.Supervisor Settler.Calendar Settler.Settlement

/-- The record says that epochs are paid in order, and that posted totals are those of one sweep. -/
structure SafelySwept (genesis : Int) (j : Journal) : Prop where
  distinct : (j.instances Sweep.name).Nodup
  /-- The sweeps' exchanges come in blocks, one for each sweep, in order. -/
  blocks : j.exchangesBy Sweep.name = (j.instances Sweep.name).flatMap j.exchangesOf
  runs : ∀ i ∈ j.instances Sweep.name, Sweep.Run genesis (j.exchangesOf i)
  /-- Totals that are posted come last of all that one sweep says. -/
  posts : ∀ x ∈ j.exchanges, ∀ sums, x.sent = .posted sums → x.owner ∈ j.instances Sweep.name ∧
    ∃ payments last, j.exchangesOf x.owner = payments ++ [last] ++ [x] ∧
      Sweep.Pays genesis (payments ++ [last]) ∧ Sweep.isRefused last .exhausted ∧
      sums = Sweep.totals (payments ++ [last])

namespace Sweep

theorem Pays.sent {epoch : Int} {xs : List Exchange} (h : Pays epoch xs) :
    ∀ x ∈ xs, ∃ e, x.sent = .asked (.payDebt e) := by
  induction xs generalizing epoch with
  | nil => simp
  | cons y rest ih =>
    obtain ⟨sent, more⟩ := h
    intro x hx
    rcases List.mem_cons.mp hx with rfl | hx
    · exact ⟨epoch, sent⟩
    · rcases more with rfl | ⟨next, -, pays⟩
      · cases hx
      · exact ih pays x hx

/-- A post is the last exchange of its run. -/
theorem Run.of_posted {genesis : Int} {xs : List Exchange} (h : Run genesis xs) {x : Exchange}
    (mem : x ∈ xs) {sums : Summary} (sent : x.sent = .posted sums) :
    ∃ payments last, xs = payments ++ [last] ++ [x] ∧ Pays genesis (payments ++ [last]) ∧
      isRefused last .exhausted ∧ sums = totals (payments ++ [last]) := by
  have unpaid : ∀ {ys}, Pays genesis ys → x ∉ ys := by
    intro ys pays hx
    obtain ⟨e, paid⟩ := pays.sent x hx
    rw [paid] at sent
    cases sent
  cases h with
  | unposted pays => exact absurd mem (unpaid pays)
  | @posted payments last post pays exhausted sum =>
    rcases List.mem_append.mp mem with mem | mem
    · exact absurd mem (unpaid pays)
    · obtain rfl := List.mem_singleton.mp mem
      rw [sum] at sent
      cases sent
      exact ⟨payments, last, rfl, pays, exhausted, rfl⟩

end Sweep

/-- A record in which every sweep talks as sweeps do is a safe one. -/
theorem Chronicle.safelySwept {j : Journal} {genesis : Int} {delay : Number}
    (h : Chronicle j Sweep.name (Machine.begin (Worker.sweep (.fresh genesis delay)))) :
    SafelySwept genesis j where
  distinct := h.distinct
  blocks := h.blocks
  runs := fun i hi => Sweep.run_of_conversation (h.conversations i hi)
  posts := by
    intro x hx sums sent
    have word : x ∈ j.exchangesBy Sweep.name :=
      List.mem_filter.mpr ⟨hx, by simp [sent, Outbound.sender]⟩
    rw [h.blocks, List.mem_flatMap] at word
    obtain ⟨i, hi, own⟩ := word
    obtain rfl := Journal.owner_of_mem_exchangesOf own
    exact ⟨hi, (Sweep.run_of_conversation (h.conversations _ hi)).of_posted own sent⟩

/-- Whatever a supervisor for settings is told to do, and whatever its services and its event loop do, epochs
are paid in order from the genesis epoch on, and posted totals are those of one sweep. -/
theorem safelySwept_of_script {settings : Settings} {st : State (Worker Number)}
    (h : settings.supervisor = .ok st) (origin : Moment) (services : Services Number)
    (ties : Ties) (script : List (Nat × State.Command Number)) :
    SafelySwept settings.genesisEpoch
      (st.drive (settings.setup origin services ties) script).journal := by
  obtain ⟨delay, chronicle⟩ := Settings.chronicle_sweep h origin services ties script
  exact chronicle.safelySwept

/-- A service that pays one epoch, fails once in passing, and then has no further record. -/
def Services.exhausting : Services Number where
  settle earlier _ := .now <| .ok <|
    match earlier.length with
    | 0 => .ok (.batch ⟨10, 8, 1, 4⟩)
    | 1 => .error transientText
    | _ => .error "Failed to fetch record"
  post _ _ := .now (.ok ())

/-- Triggered once with such a service, the sweep pays the first epoch, tries the second one twice, and
posts what it paid. -/
theorem safelySwept_trigger :
    ∃ st, Settings.manual.supervisor = .ok st ∧
      let j := (st.drive (Settings.manual.setup ⟨0, none⟩ .exhausting)
        [(1, .trigger Sweep.name "manual"), (9, .settle)]).journal
      (j.exchangesBy Sweep.name).map (·.sent) = [.asked (.payDebt 31), .asked (.payDebt 32),
          .asked (.payDebt 32), .posted ⟨1, 10, 8⟩] ∧
        SafelySwept Settings.manual.genesisEpoch j :=
  ⟨_, rfl, by decide +kernel, safelySwept_of_script rfl _ _ _ _⟩

end Settler
