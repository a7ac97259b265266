import Settler.Proofs.Daemon.Tallies
import Settler.Proofs.Supervisor.Labels

/-!
Turns that were given, and notes that are kept ready.

In every state that acts lead to, each turn that is waited for was given before the next fresh one, and
what is kept to be noted with an outcome counts no worker event (`State.Regular`), as long as the services
count none.
-/

namespace Settler.Supervisor

open Settler.Calendar

variable {ω δ : Type}

/-! ### One slot -/

theorem Phase.isQuiet_of_not_busy {phase : Phase ω} (idle : phase.isBusy = false) : phase.IsQuiet := by
  cases phase with
  | awaiting w outcome notes abandoned => cases idle
  | _ => trivial

namespace Slot

/-- No note that the slot's run keeps ready counts a worker event. -/
def IsQuiet (t : Slot ω) : Prop := ∀ l, t.live? = some l → l.phase.IsQuiet

theorem Quiet.isQuiet {s : Slot ω} {r : Slot ω × List Event} (h : Quiet s r) : r.1.IsQuiet :=
  fun l live => Phase.isQuiet_of_not_busy (h.idle l live)

theorem isQuiet_waiting {phase : Phase ω} (quiet : phase.IsQuiet) (s : Slot ω) (l : Live ω) (wake : Wake) :
    (s.waiting l phase wake).IsQuiet := by
  intro k live
  cases live
  exact quiet

theorem IsQuiet.arrive {t : Slot ω} (h : t.IsQuiet) (turn : Mover → Nat → Nat) (now : Instant) :
    (State.arriveSlot turn now t).IsQuiet := by
  unfold State.arriveSlot
  split
  · next l run =>
    rintro k ⟨⟩
    exact h l (live_iff.mpr run)
  · exact h

theorem place_arrive_lt {turn : Mover → Nat → Nat} {fresh : Nat} (early : ∀ m, ∀ n < fresh, turn m n < fresh)
    (now : Instant) {t : Slot ω} (placed : ∀ n ∈ t.place?, n < fresh) :
    ∀ n ∈ (State.arriveSlot turn now t).place?, n < fresh := by
  unfold State.arriveSlot
  split
  · next l run =>
    rw [place?, live_iff.mpr run] at placed
    exact Wake.place_arrive_lt (early _) now placed
  · exact placed

section

variable [Seconds δ] {su : Setup δ} (mute : su.services.IsMute) (o : Occasion)
include mute

theorem isQuiet_follow (s : Slot ω) (l : Live ω) (t : Turn ω δ) : (s.follow su o l t).1.IsQuiet := by
  have rests : (Phase.resting t.worker).IsQuiet := trivial
  unfold follow
  dsimp only
  cases t.next with
  | pause span => exact isQuiet_waiting rests s l _
  | hold => exact isQuiet_waiting rests s l _
  | ask op =>
    refine isQuiet_waiting ?_ s l _
    exact (mute.settle o.earlier op).notes
  | post totals =>
    refine isQuiet_waiting ?_ s l _
    exact (mute.post o.earlier totals).notes
  | exit e => exact (quiet_finish su o s l e "").isQuiet
  | fail f => exact (quiet_fail su o s l f).isQuiet

variable [Machine ω δ]

theorem isQuiet_launch (s : Slot ω) (l : Live ω) : (s.launch su o l).1.IsQuiet := by
  unfold launch
  cases s.job.build s.built with
  | error f => exact nofun
  | ok w =>
    dsimp only
    cases su.moment o.now with
    | error f => exact nofun
    | ok m => exact isQuiet_follow mute o _ l _

/-- What a run keeps ready after a move counts no worker event. -/
theorem isQuiet_move (s : Slot ω) (l : Live ω) : (s.move su o l).1.IsQuiet := by
  unfold move
  cases l.phase with
  | created => exact isQuiet_launch mute o s l
  | backingOff => exact isQuiet_launch mute o s l
  | resting w => exact isQuiet_follow mute o s l _
  | awaiting w outcome notes abandoned =>
    cases outcome with
    | error f => exact (quiet_fail su o s l f).isQuiet
    | ok r => exact isQuiet_follow mute o s l _

end

/-- A turn that has another label than all others is none of a slot's. -/
theorem place_lt_of_seen {t : Slot ω} {bound : Nat}
    (same : t.seen (.both fun n => if n < bound then 0 else 1) = t.seen (.both fun _ => 0)) :
    ∀ n ∈ t.place?, n < bound := by
  have places : ∀ f : Nat → Nat, (t.seen (.both f)).place? = t.place?.map f := by
    intro f
    rw [place?, live_seen, Option.bind_map, place?, Option.map_bind]
    exact congrArg (t.live?.bind ·) (funext fun _ => Wake.place_label f)
  have labels := congrArg place? same
  rw [places, places] at labels
  intro n mem
  rw [Option.mem_def.mp mem] at labels
  by_contra late
  simp [late] at labels

/-- A move gives a run no turn but its own, the present one and the fresh one. -/
theorem place_move [Seconds δ] [Machine ω δ] (su : Setup δ) {o : Occasion} {t : Slot ω} {l : Live ω}
    (live : t.live? = some l) (quiet : t.IsQuiet) {bound : Nat} (own : ∀ n ∈ t.place?, n < bound)
    (present : o.present < bound) (fresh : o.fresh < bound) :
    ∀ n ∈ (t.move su o l).1.place?, n < bound := by
  refine place_lt_of_seen ?_
  have slots : t.seen (.both fun n => if n < bound then 0 else 1) = t.seen (.both fun _ => 0) :=
    seen_congr fun n mem => ⟨if_pos (own n mem), if_pos (own n mem)⟩
  have runs : l.seen (.both fun n => if n < bound then 0 else 1) = l.seen (.both fun _ => 0) := by
    have lives := congrArg live? slots
    rw [seen_of_live live, seen_of_live live] at lives
    exact Option.some.inj lives
  have occasions : o.label (.both fun n => if n < bound then 0 else 1) = o.label (.both fun _ => 0) := by
    simp [Occasion.label, Labels.both, present, fresh]
  have both : (t.move (su.serving su.services su.ties) o l).1.seen _
      = (t.move (su.serving su.services su.ties) o l).1.seen _ :=
    (move_seen (Labels.level_both _ _) (Labels.level_both _ _) slots runs occasions (quiet l live)
      (quiet l live) (fun _ _ _ _ => ⟨rfl, rfl⟩) "").1
  exact both

end Slot

namespace State

theorem mem_put {s : State ω} {t' u : Slot ω} (mem : u ∈ (s.put t').slots) : u = t' ∨ u ∈ s.slots := by
  obtain ⟨v, listed, rfl⟩ := List.mem_map.mp mem
  split
  · exact .inl rfl
  · exact .inr listed

/-- The look-up of the next runs leaves every run as it is. -/
theorem run_of_mem_refresh {after : Moment} {slots : List (Slot ω)} {t' : Slot ω}
    (mem : t' ∈ (refreshSlots after slots).1) : ∃ t ∈ slots, t'.run = t.run := by
  induction slots with
  | nil => exact ⟨t', mem, rfl⟩
  | cons t rest ih =>
    rw [refreshSlots] at mem
    split at mem
    · exact ⟨t', mem, rfl⟩
    · next u found =>
      rcases List.mem_cons.mp mem with rfl | mem
      · refine ⟨t, List.mem_cons_self, ?_⟩
        unfold refreshSlot at found
        split at found
        · cases found
          rfl
        · next schedule _ =>
          cases next : schedule.nextAfter after with
          | error f =>
            rw [next] at found
            cases found
          | ok m =>
            rw [next] at found
            cases found
            rfl
      · obtain ⟨v, listed, run⟩ := ih mem
        exact ⟨v, List.mem_cons_of_mem _ listed, run⟩

/-- The turn of the schedule loop, whatever it waits for. -/
def loopPlace? (s : State ω) : Option Nat := s.loop.bind (·.wake.place?)

theorem loopPlace_arrive_lt {s : State ω} (ties : Ties) (now : Instant)
    (placed : ∀ n ∈ s.loopPlace?, n < s.turn) : ∀ n ∈ (s.arrive ties now).loopPlace?, n < s.turn := by
  unfold loopPlace? arrive
  cases live : s.loop with
  | none => exact nofun
  | some l =>
    rw [loopPlace?, live] at placed
    exact Wake.place_arrive_lt (fun _ => ties.lt) now placed

/-- All turns were given before the next fresh one, and nothing is kept ready that counts a worker
event. -/
structure Regular (s : State ω) : Prop where
  quiet : ∀ t ∈ s.slots, t.IsQuiet
  placed : ∀ t ∈ s.slots, ∀ n ∈ t.place?, n < s.turn
  loop : ∀ n ∈ s.loopPlace?, n < s.turn

variable {s s' : State ω}

theorem turn_le_act [Machine ω δ] [Seconds δ] {su : Setup δ} (act : Act su s s') : s.turn ≤ s'.turn := by
  cases act with
  | deed deed =>
    cases deed with
    | fire reason found =>
      unfold fire
      split
      · exact Nat.le_refl _
      · exact Nat.le_succ _
    | _ => exact Nat.le_refl _
  | motion motion =>
    cases motion with
    | move first found live => exact Nat.le_succ _
    | _ => exact Nat.le_refl _
  | openLoop closed => exact Nat.le_succ _
  | turnLoop live => exact Nat.le_succ _
  | _ => exact Nat.le_refl _

theorem turn_le_acts [Machine ω δ] [Seconds δ] {su : Setup δ} (acts : Acts su s s') : s.turn ≤ s'.turn := by
  induction acts with
  | refl => exact Nat.le_refl _
  | tail before act ih => exact Nat.le_trans ih (turn_le_act act)

namespace Regular

theorem ofJobs {jobs : List (Job ω)} (h : ofJobs jobs = .ok s) : s.Regular := by
  unfold State.ofJobs at h
  split at h
  · cases h
  · cases h
    refine ⟨?_, ?_, nofun⟩
    · intro t mem
      obtain ⟨j, -, rfl⟩ := List.mem_map.mp mem
      exact nofun
    · intro t mem
      obtain ⟨j, -, rfl⟩ := List.mem_map.mp mem
      exact nofun

/-- Every run is what it was, or it is a run whose turn was given by now. -/
theorem change (h : s.Regular) (turn : s.turn ≤ s'.turn)
    (slots : ∀ t' ∈ s'.slots, (∃ t ∈ s.slots, t'.run = t.run) ∨
      t'.IsQuiet ∧ ∀ n ∈ t'.place?, n < s'.turn)
    (loop : ∀ n ∈ s'.loopPlace?, n < s'.turn) : s'.Regular where
  quiet := by
    intro t' mem
    rcases slots t' mem with ⟨t, listed, run⟩ | ⟨quiet, -⟩
    · intro l live
      refine h.quiet t listed l ?_
      rw [← live, Slot.live?, Slot.live?, run]
    · exact quiet
  placed := by
    intro t' mem n place
    rcases slots t' mem with ⟨t, listed, run⟩ | ⟨-, placed⟩
    · refine Nat.lt_of_lt_of_le (h.placed t listed n ?_) turn
      rwa [Slot.place?, Slot.live?, ← run]
    · exact placed n place
  loop := loop

variable {su : Setup δ}

/-- A slot is put in place of one of the state's. -/
theorem put (h : s.Regular) (t : Slot ω) (turn : Nat) (le : s.turn ≤ turn)
    (kept : (∃ u ∈ s.slots, t.run = u.run) ∨ t.IsQuiet ∧ ∀ n ∈ t.place?, n < turn)
    (events : List Event) : (({ s with turn }.put t).record events).Regular := by
  refine h.change le (fun u mem => ?_) fun n place => Nat.lt_of_lt_of_le (h.loop n place) le
  rcases mem_put mem with rfl | listed
  · exact kept
  · exact .inl ⟨u, listed, rfl⟩

theorem deed {su : Setup δ} (h : s.Regular) (deed : Deed su s s') : s'.Regular := by
  cases deed with
  | @fire name t reason found =>
    unfold fire
    split
    · refine h.put _ s.turn (Nat.le_refl _) (.inl ⟨t, mem_of_slot found, ?_⟩) _
      rfl
    · refine h.put _ (s.turn + 1) (Nat.le_succ _) (.inr ⟨?_, ?_⟩) _
      · rintro l ⟨⟩
        exact trivial
      · rintro n ⟨⟩
        exact Nat.lt_succ_self _
  | refresh after =>
    refine h.change (Nat.le_refl _) (fun t' mem => .inl (run_of_mem_refresh mem)) ?_
    exact h.loop
  | mark own => exact ⟨h.quiet, h.placed, h.loop⟩

/-- The schedule loop gets a fresh turn. -/
theorem turnLoop (h : s.Regular) (started : Bool) {wake : Wake} (fresh : ∀ n ∈ wake.place?, n = s.turn) :
    Regular { s with turn := s.turn + 1, loop := some ⟨started, wake⟩ } := by
  refine h.change (Nat.le_succ _) (fun t mem => .inl ⟨t, mem, rfl⟩) ?_
  intro n place
  obtain rfl := fresh n place
  exact Nat.lt_succ_self _

variable [Machine ω δ] [Seconds δ] {su : Setup δ}

theorem motion (h : s.Regular) (distinct : s.names.Nodup) (mute : su.services.IsMute)
    (motion : Motion su s s') : s'.Regular := by
  cases motion with
  | @move name t l present first found live =>
    have mem := mem_of_slot found
    have ready := ready_of_mem distinct (mem_of_first first) found live
    have own : ∀ n ∈ t.place?, n < s.turn := h.placed t mem
    have early : present < s.turn := by
      refine own present ?_
      rw [Slot.place?, live]
      exact Wake.place_of_turn ready
    have moved := Slot.place_move su (o := ⟨s.now, present, s.turn, s.journal.outbound⟩) live
      (h.quiet t mem) (fun n place => Nat.lt_succ_of_lt (own n place)) (Nat.lt_succ_of_lt early)
      (Nat.lt_succ_self _)
    exact h.put _ (s.turn + 1) (Nat.le_succ _) (.inr ⟨Slot.isQuiet_move mute _ t l, moved⟩) _
  | @arrive time idle least =>
    refine h.change (Nat.le_refl _) (fun t' mem => .inr ?_) (loopPlace_arrive_lt su.ties _ h.loop)
    obtain ⟨t, listed, rfl⟩ := List.mem_map.mp mem
    exact ⟨(h.quiet t listed).arrive _ _,
      Slot.place_arrive_lt (fun _ _ => su.ties.lt) _ (h.placed t listed)⟩
  | elapse idle early => exact ⟨h.quiet, h.placed, h.loop⟩

theorem act (h : s.Regular) (distinct : s.names.Nodup) (mute : su.services.IsMute) (act : Act su s s') :
    s'.Regular := by
  cases act with
  | deed deed => exact h.deed deed
  | motion motion => exact h.motion distinct mute motion
  | openLoop closed =>
    refine h.turnLoop _ ?_
    rintro n ⟨⟩
    rfl
  | turnLoop live => exact h.turnLoop _ (Wake.place_afterPause _ _ _)
  | noteTick => exact ⟨h.quiet, h.placed, h.loop⟩
  | noteStart => exact ⟨h.quiet, h.placed, h.loop⟩
  | stop =>
    refine h.change (Nat.le_refl _) (fun t' mem => .inr ?_) nofun
    obtain ⟨t, -, rfl⟩ := List.mem_map.mp mem
    exact ⟨nofun, nofun⟩

end Regular

end State

end Settler.Supervisor
