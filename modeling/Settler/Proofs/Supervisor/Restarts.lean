import Settler.Proofs.Supervisor.Accounts
import Settler.Proofs.Supervisor.Window

/-!
How far a run has come, with exact spans of time.

As long as a run lives, all its crashes were granted a restart, so the budget is the sliding window of its
crashes (`Tally`). From that every act takes a run from one stage to the next (`Stage.sight`). No restart
comes late: while a run is ready time does not pass, and else it passes no further than the run waits.
-/

namespace Settler.Supervisor

variable {ω : Type}

namespace Setup

variable (su : Setup Micros)

/-- How long a restart takes; a negative delay takes no time. -/
def delay : Nat := su.restartDelay.count.toNat

/-- After crashes at some times, that of a number is granted a restart: there are any restarts, and the
crash is one of the first so many, or the one so many before it lies outside the window. -/
def Grants (cs : List Instant) (i : Nat) : Prop :=
  1 ≤ su.maxRestarts ∧ (i < su.maxRestarts ∨ ∃ c x, cs[i]? = some c ∧
    cs[i - su.maxRestarts.toNat]? = some x ∧ su.window.count < (c : Int) - x)

variable {su}

theorem outside_iff {now earlier : Instant} :
    su.outside now earlier ↔ su.window.count < (now : Int) - earlier :=
  decide_eq_true_iff

theorem slides_outside : Budget.Slides su.outside := by
  intro now later t earlier le le' out
  have le : (now : Int) ≤ later := by exact_mod_cast le
  have le' : (earlier : Int) ≤ t := by exact_mod_cast le'
  rw [outside_iff] at out ⊢
  omega

/-- Only the crashes so far matter. -/
theorem grants_append {cs : List Instant} {i : Nat} (inside : i < cs.length) (rest : List Instant) :
    su.Grants (cs ++ rest) i ↔ su.Grants cs i := by
  unfold Grants
  rw [List.getElem?_append_left inside, List.getElem?_append_left (by omega)]

/-- The account of a run with crashes that were followed by restarts, and with what came after them. -/
def account (su : Setup Micros) (since : Instant) (cs : List Instant) (last : List (Instant × Exit))
    (gaveUps : Nat) : Account where
  since
  starts := since :: cs.map (· + su.delay)
  ends := cs.map (·, .crashed) ++ last
  gaveUps

end Setup

/-! ### The budget of a run -/

/-- A run has crashed at some times, was granted a restart each time, and has a budget left. -/
structure Tally (su : Setup Micros) (now : Instant) (cs : List Instant) (b : Budget Instant) : Prop where
  granted : ∀ i < cs.length, su.Grants cs i
  counts : Budget.Counts su.outside now cs b
  limit : b.limit = su.maxRestarts

namespace Tally

variable {su : Setup Micros} {now later : Instant} {cs : List Instant} {b b' : Budget Instant}

/-- A new run has a budget of its own. -/
theorem fresh (su : Setup Micros) (now : Instant) : Tally su now [] { limit := su.maxRestarts } where
  granted := by simp
  counts := Budget.counts_fresh _ _ _
  limit := rfl

theorem mono (h : Tally su now cs b) (le : now ≤ later) : Tally su later cs b :=
  ⟨h.granted, h.counts.mono Setup.slides_outside le, h.limit⟩

/-- The crash that comes next is not earlier. -/
theorem inOrder_concat (h : Tally su now cs b) : (cs ++ [now]).Pairwise (· ≤ ·) := by
  refine List.pairwise_append.mpr ⟨h.counts.inOrder, List.pairwise_singleton _ _, ?_⟩
  intro c mem n new
  exact List.mem_singleton.mp new ▸ h.counts.past c mem

/-- The budget grants a restart after another crash if and only if the policy does. -/
theorem request_iff (h : Tally su now cs b) :
    (b.request su.outside now).1 ↔ su.Grants (cs ++ [now]) cs.length := by
  rw [h.counts.request_iff Setup.slides_outside (Nat.le_refl now), h.limit, Setup.Grants,
    List.getElem?_concat_length]
  refine and_congr_right fun pos => ?_
  by_cases first : (cs.length : Int) < su.maxRestarts
  · exact iff_of_true (.inl first) (.inl first)
  · rw [List.getElem?_append_left (by omega)]
    refine or_congr_right ?_
    constructor
    · rintro ⟨x, found, out⟩
      exact ⟨now, x, rfl, found, Setup.outside_iff.mp out⟩
    · rintro ⟨c, x, same, found, out⟩
      cases same
      exact ⟨x, found, Setup.outside_iff.mpr out⟩

theorem granted_crash (h : Tally su now cs b) (grant : b.request su.outside now = (true, b')) :
    Tally su now (cs ++ [now]) b' where
  granted := by
    intro i inside
    rw [List.length_append, List.length_singleton] at inside
    rcases Nat.lt_succ_iff_lt_or_eq.mp inside with before | rfl
    · exact (Setup.grants_append before _).mpr (h.granted i before)
    · exact h.request_iff.mp (by rw [grant])
  counts := by
    have counts := h.counts.request_snd Setup.slides_outside (Nat.le_refl now) (by rw [grant])
    rwa [grant] at counts
  limit := by
    have limit := Budget.request_limit su.outside now b
    rw [grant] at limit
    exact limit.trans h.limit

end Tally

/-! ### Stages of a run -/

/-- After the delay a run is ready: at once if there is none. -/
theorem wake_afterPause (su : Setup Micros) (now : Instant) (turn : Nat) :
    Wake.afterPause now turn su.restartDelay = .due (now + su.delay) turn ∨
      Wake.afterPause now turn su.restartDelay = .ready turn ∧ now = now + su.delay := by
  unfold Wake.afterPause
  split
  · exact .inl rfl
  · next instantly =>
    have instantly : ¬ 0 < su.restartDelay.count := fun pos => instantly (decide_eq_true pos)
    have zero : su.delay = 0 := Int.toNat_eq_zero.mpr (Int.not_lt.mp instantly)
    exact .inr ⟨rfl, by rw [zero, Nat.add_zero]⟩

/-- The run was cut short: it was stopped, or a fault ended it. Such a fault says that it was told to stop,
that a worker could not be built, or that the clock has left the calendar. -/
def IsCut (su : Setup Micros) (job : Job ω) (now : Instant) (run : Option (Run ω)) : Prop :=
  run = none ∨ ∃ f, run = some (.ended (.error f)) ∧
    (f = .cancelled ∨ (∃ n, job.build n = .error f) ∨ ∃ time ≤ now, su.moment time = .error f)

/-- The run came to its end with an exit, and may have been cleared since. -/
def IsOver (e : Exit) (run : Option (Run ω)) : Prop := run = some (.ended (.ok e)) ∨ run = none

section

variable {su : Setup Micros} {job : Job ω} {now later : Instant} {run : Option (Run ω)} {l : Live ω}

theorem IsCut.ne_live (h : IsCut su job now run) : run ≠ some (.live l) := by
  rcases h with rfl | ⟨f, rfl, -⟩ <;> exact nofun

theorem IsCut.unended (h : IsCut su job now run) (e : Exit) : run ≠ some (.ended (.ok e)) := by
  rcases h with rfl | ⟨f, rfl, -⟩ <;> exact nofun

theorem IsOver.ne_live {e : Exit} (h : IsOver e run) : run ≠ some (.live l) := by
  rcases h with rfl | rfl <;> exact nofun

theorem IsCut.mono (h : IsCut su job now run) (le : now ≤ later) : IsCut su job later run := by
  rcases h with cleared | ⟨f, ended, cause⟩
  · exact .inl cleared
  · refine .inr ⟨f, ended, ?_⟩
    rcases cause with told | unbuilt | ⟨time, past, clock⟩
    · exact .inl told
    · exact .inr (.inl unbuilt)
    · exact .inr (.inr ⟨time, Nat.le_trans past le, clock⟩)

end

/-- The account of a run that has not come to its end. -/
inductive Unfinished (su : Setup Micros) (now : Instant) : Account → Prop where
  | summoned {since : Instant} : Unfinished su now { since }
  | atWork {since : Instant} {cs : List Instant} {b : Budget Instant} (tally : Tally su now cs b) :
      Unfinished su now (su.account since cs [] 0)
  | backingOff {since c : Instant} {cs : List Instant} {b : Budget Instant}
      (tally : Tally su now (cs ++ [c]) b) : Unfinished su now (su.account since cs [(c, .crashed)] 0)

theorem Unfinished.mono {su : Setup Micros} {now later : Instant} {a : Account}
    (h : Unfinished su now a) (le : now ≤ later) : Unfinished su later a := by
  cases h with
  | summoned => exact .summoned
  | atWork tally => exact .atWork (tally.mono le)
  | backingOff tally => exact .backingOff (tally.mono le)

/-- How far a job's run has come, and its account. -/
inductive Stage (su : Setup Micros) (job : Job ω) (now : Instant) :
    Option Account → Option (Run ω) → Prop where
  /-- No trigger was accepted yet. -/
  | unasked : Stage su job now none none
  /-- The first instance is about to begin. -/
  | summoned {l : Live ω} {turn : Nat} (phase : l.phase = .created)
      (budget : l.budget = { limit := su.maxRestarts }) (wake : l.wake = .ready turn) :
      Stage su job now (some { since := now }) (some (.live l))
  /-- An instance is at work. -/
  | atWork {since : Instant} {cs : List Instant} {l : Live ω} (busy : l.phase.isBusy)
      (tally : Tally su now cs l.budget) :
      Stage su job now (some (su.account since cs [] 0)) (some (.live l))
  /-- An instance crashed, and the next one is about to begin when the delay is over. -/
  | backingOff {since c : Instant} {cs : List Instant} {l : Live ω} (phase : l.phase = .backingOff)
      (tally : Tally su now (cs ++ [c]) l.budget) (early : now ≤ c + su.delay)
      (wake : ∃ turn, l.wake = .due (c + su.delay) turn ∨ l.wake = .ready turn ∧ now = c + su.delay) :
      Stage su job now (some (su.account since cs [(c, .crashed)] 0)) (some (.live l))
  | exited {since x : Instant} {cs : List Instant} {b : Budget Instant} {e : Exit}
      {run : Option (Run ω)} (final : e ≠ .crashed) (tally : Tally su x cs b) (past : x ≤ now)
      (closed : IsOver e run) : Stage su job now (some (su.account since cs [(x, e)] 0)) run
  | gaveUp {since c : Instant} {cs : List Instant} {b : Budget Instant} {run : Option (Run ω)}
      (refused : ¬ su.Grants (cs ++ [c]) cs.length) (tally : Tally su c cs b) (past : c ≤ now)
      (closed : IsOver .crashed run) : Stage su job now (some (su.account since cs [(c, .crashed)] 1)) run
  | cut {a : Account} {run : Option (Run ω)} (cut : IsCut su job now run)
      (unfinished : Unfinished su now a) : Stage su job now (some a) run

namespace Stage

variable {su : Setup Micros} {job : Job ω} {now later : Instant} {a : Option Account}

/-- A run is stopped at any stage. -/
theorem stop {run : Option (Run ω)} (h : Stage su job now a run) : Stage su job now a none := by
  cases h with
  | unasked => exact .unasked
  | summoned phase budget wake => exact .cut (.inl rfl) .summoned
  | atWork busy tally => exact .cut (.inl rfl) (.atWork tally)
  | backingOff phase tally early wake => exact .cut (.inl rfl) (.backingOff tally)
  | exited final tally past closed => exact .exited final tally past (.inr rfl)
  | gaveUp refused tally past closed => exact .gaveUp refused tally past (.inr rfl)
  | cut cut unfinished => exact .cut (.inl rfl) unfinished

/-- What becomes of the instance at work takes the run to its next stage. -/
theorem outcome {o : Slot.Occasion} {l : Live ω} {cs : List Instant} (tally : Tally su o.now cs l.budget)
    (since : Instant) {ending : Option Ending} {t : Slot ω} {marks : List Mark}
    (outcome : Slot.Outcome su o l ending t marks) :
    Stage su job o.now
      ((marks.map (o.now, ·)).foldl Account.note (some (su.account since cs [] 0))) t.run := by
  have noted : ∀ e, Account.note (some (su.account since cs [] 0)) (o.now, .ended e)
      = some (su.account since cs [(o.now, e)] 0) := by
    intro e
    simp [Account.note, Setup.account]
  cases outcome with
  | goesOn run busy budget =>
    rw [run]
    exact .atWork busy (budget ▸ tally)
  | cutShort run cause =>
    refine .cut (.inr ⟨_, run, ?_⟩) (.atWork tally)
    rcases cause with ⟨-, told⟩ | clock
    · exact .inl told
    · exact .inr (.inr ⟨o.now, Nat.le_refl _, clock⟩)
  | exits final run =>
    rw [List.map_singleton, List.foldl_cons, List.foldl_nil, noted]
    exact .exited final tally (Nat.le_refl _) (.inl run)
  | restarts crash granted run told =>
    rw [List.map_singleton, List.foldl_cons, List.foldl_nil, noted, run]
    refine .backingOff rfl (tally.granted_crash granted) (Nat.le_add_right _ _) ⟨o.fresh, ?_⟩
    exact wake_afterPause su o.now o.fresh
  | givesUp crash refused run told =>
    rw [List.map_cons, List.map_singleton, List.foldl_cons, List.foldl_cons, List.foldl_nil, noted]
    refine .gaveUp ?_ tally (Nat.le_refl _) (.inl run)
    rw [← tally.request_iff, refused]
    exact Bool.false_ne_true

/-- A run that is not live stays where it is. -/
theorem mono {run : Option (Run ω)} (h : Stage su job now a run) (le : now ≤ later)
    (dead : ∀ l, run ≠ some (.live l)) : Stage su job later a run := by
  cases h with
  | unasked => exact .unasked
  | summoned phase budget wake => exact absurd rfl (dead _)
  | atWork busy tally => exact absurd rfl (dead _)
  | backingOff phase tally early wake => exact absurd rfl (dead _)
  | exited final tally past closed => exact .exited final tally (Nat.le_trans past le) closed
  | gaveUp refused tally past closed => exact .gaveUp refused tally (Nat.le_trans past le) closed
  | cut cut unfinished => exact .cut (cut.mono le) (unfinished.mono le)

/-- A live run stays where it is while time passes, if it is not ready and time passes no further than it
waits; and so it does if it is ready then. -/
theorem wait {l : Live ω} (h : Stage su job now a (some (.live l))) (idle : l.wake.turn? = none)
    (le : now ≤ later) (near : ∀ time turn, l.wake = .due time turn → later ≤ max now time) :
    Stage su job later a (some (.live l)) ∧
      ∀ turn, Stage su job later a (some (.live { l with wake := l.wake.arrive turn later })) := by
  cases h with
  | summoned phase budget wake =>
    rw [wake] at idle
    cases idle
  | atWork busy tally => exact ⟨.atWork busy (tally.mono le), fun _ => .atWork busy (tally.mono le)⟩
  | backingOff phase tally early wake =>
    obtain ⟨turn, due | ⟨ready, -⟩⟩ := wake
    · have early' := Nat.le_trans (near _ turn due) (Nat.max_le.mpr ⟨early, Nat.le_refl _⟩)
      refine ⟨.backingOff phase (tally.mono le) early' ⟨turn, .inl due⟩, fun turns => ?_⟩
      refine .backingOff phase (tally.mono le) early' ?_
      dsimp only
      rw [due, Wake.arrive]
      split
      · next reached => exact ⟨_, .inr ⟨rfl, Nat.le_antisymm early' reached⟩⟩
      · exact ⟨turn, .inl rfl⟩
    · rw [ready] at idle
      cases idle
  | exited final tally past closed => exact absurd rfl closed.ne_live
  | gaveUp refused tally past closed => exact absurd rfl closed.ne_live
  | cut cut unfinished => exact absurd rfl cut.ne_live

variable [Machine ω Micros]

/-- A move takes a live run to its next stage. -/
theorem moved {o : Slot.Occasion} {t t' : Slot ω} {l : Live ω} {marks : List Mark}
    (h : Stage su t.job o.now a (some (.live l))) {present : Nat} (ready : l.wake.turn? = some present)
    (moved : t.Moved su o l t' marks) :
    Stage su t.job o.now ((marks.map (o.now, ·)).foldl Account.note a) t'.run := by
  have unbuilt : ∀ f, t'.run = some (.ended (.error f)) →
      (t.job.build t.built = .error f ∨ su.moment o.now = .error f) →
      IsCut su t.job o.now t'.run := by
    intro f run cause
    refine .inr ⟨f, run, .inr ?_⟩
    rcases cause with build | clock
    · exact .inl ⟨_, build⟩
    · exact .inr ⟨o.now, Nat.le_refl _, clock⟩
  cases h with
  | summoned phase budget wake =>
    cases moved with
    | unbuilt fresh run cause => exact .cut (unbuilt _ run cause) .summoned
    | launched fresh outcome =>
      have tally := Tally.fresh su o.now
      rw [← budget] at tally
      exact Stage.outcome tally o.now outcome
    | wentOn busy outcome =>
      rw [phase] at busy
      cases busy
  | atWork busy tally =>
    cases moved with
    | unbuilt fresh run cause => exact .cut (unbuilt _ run cause) (.atWork tally)
    | launched fresh outcome =>
      rw [busy] at fresh
      cases fresh
    | wentOn busy outcome => exact Stage.outcome tally _ outcome
  | @backingOff since c cs _ phase tally early wake =>
    cases moved with
    | unbuilt fresh run cause => exact .cut (unbuilt _ run cause) (.backingOff tally)
    | launched fresh outcome =>
      obtain ⟨turn, due | ⟨-, now⟩⟩ := wake
      · rw [due] at ready
        cases ready
      · have began : Account.note (some (su.account since cs [(c, .crashed)] 0)) (o.now, .began)
            = some (su.account since (cs ++ [c]) [] 0) := by
          simp [Account.note, Setup.account, now]
        rw [List.map_cons, List.foldl_cons, began]
        exact Stage.outcome tally since outcome
    | wentOn busy outcome =>
      rw [phase] at busy
      cases busy
  | exited final tally past closed => exact absurd rfl closed.ne_live
  | gaveUp refused tally past closed => exact absurd rfl closed.ne_live
  | cut cut unfinished => exact absurd rfl cut.ne_live

/-- Every act takes a run to its next stage. -/
theorem sight {s s' : State ω} {t t' : Slot ω} {marks : List Mark} (h : Stage su t.job s.now a t.run)
    (sight : State.Sight su s s' t t' marks) :
    Stage su t.job s'.now ((marks.map (s.now, ·)).foldl Account.note a) t'.run := by
  cases sight with
  | moved live ready moved now =>
    rw [Slot.live_iff.mp live] at h
    rw [now]
    exact Stage.moved (o := ⟨s.now, _, s.turn, s.journal.outbound⟩) h ready moved
  | fired idle run exit error now =>
    rw [run, now]
    exact .summoned rfl rfl rfl
  | left run exit error now =>
    rw [run, now]
    exact h
  | waited idle later near arrived =>
    cases live : t.live? with
    | some l =>
      have run := Slot.live_iff.mp live
      rw [run] at h
      obtain ⟨same, ready⟩ := h.wait (idle l live) later fun time turn => near l time turn live
      rcases arrived with ⟨turns, rfl⟩ | rfl
      · unfold State.arriveSlot
        rw [run]
        exact ready _
      · rw [run]
        exact same
    | none =>
      have dead : ∀ l, t.run ≠ some (.live l) := by
        intro l run
        rw [Slot.live_iff.mpr run] at live
        cases live
      have alone : t'.run = t.run := by
        rcases arrived with ⟨turns, rfl⟩ | rfl
        · unfold State.arriveSlot
          split
          · next l run => exact absurd run (dead l)
          · rfl
        · rfl
      rw [alone]
      exact h.mono later dead
  | stopped run exit error now =>
    rw [run, now]
    exact h.stop

end Stage

/-! ### Every run -/

namespace State

variable [Machine ω Micros] {su : Setup Micros} {jobs : List (Job ω)} {st s : State ω}

/-- Whatever a supervisor does, the run of every job is at one of the stages. -/
theorem stage_of_acts (h : ofJobs jobs = .ok st) (acts : Acts su st s) {name : String} {t : Slot ω}
    (found : s.slot? name = some t) : Stage su t.job s.now (s.account? name) t.run := by
  induction acts generalizing t with
  | refl =>
    unfold ofJobs at h
    split at h
    · cases h
    · cases h
      obtain ⟨job, -, rfl⟩ := List.mem_map.mp (mem_of_slot found)
      exact .unasked
  | @tail s₁ s₂ before act ih =>
    have documented := documented_acts h before
    have names := documented.names_act act
    obtain ⟨t₁, found₁⟩ := mem_names_iff.mp (names ▸ mem_names_iff.mpr ⟨t, found⟩)
    obtain ⟨t₂, marks, found₂, job, journal, sight⟩ := traced_act documented.nodup_slots found₁ act
    obtain rfl := Option.some.inj (found.symm.trans found₂)
    rw [account?, journal, List.foldl_append, job]
    exact (ih found₁).sight sight

end State

end Settler.Supervisor
