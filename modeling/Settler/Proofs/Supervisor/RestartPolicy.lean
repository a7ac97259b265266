import Settler.Proofs.Supervisor.Restarts
import Settler.Script.Peer
import Settler.Script.Worker

/-!
The restart policy.

What the journal tells of a run is settled by when its instances end and by nothing else
(`Follows`): an exit is final, and so is a crash that is refused a restart; after any other crash
the next instance begins when the delay is over.
-/

namespace Settler

/-- When instances ended, in order. -/
def Account.times (a : Account) : List Instant := a.ends.map (·.1)

namespace Supervisor

open Calendar

variable {ω : Type}

/-- The account of a run is as the restart policy wants it, and so is what has become of the run. -/
structure Follows (su : Setup Micros) (job : Job ω) (now : Instant) (a : Account)
    (run : Option (Run ω)) : Prop where
  /-- The first instance begins at once. -/
  first : a.starts[0]? = some a.since ∨ a.starts = [] ∧ (now = a.since ∨ IsCut su job now run)
  turns : a.ends.length ≤ a.starts.length ∧ a.starts.length ≤ a.ends.length + 1
  inOrder : a.times.Pairwise (· ≤ ·)
  /-- An exit ends the run. -/
  final : ∀ i x e, a.ends[i]? = some (x, e) → e ≠ .crashed →
    a.starts.length = i + 1 ∧ a.ends.length = i + 1 ∧ a.gaveUps = 0 ∧ IsOver e run
  /-- After a crash that is granted a restart, the next instance begins when the delay is over. -/
  granted : ∀ i c, a.ends[i]? = some (c, .crashed) → su.Grants a.times i →
    a.starts[i + 1]? = some (c + su.delay) ∨ a.starts.length = i + 1 ∧
      (now ≤ c + su.delay ∧ (∃ l, run = some (.live l) ∧ l.phase = .backingOff) ∨
        IsCut su job now run)
  /-- Any other crash ends the run, and it is given up once. -/
  refused : ∀ i c, a.ends[i]? = some (c, .crashed) → ¬ su.Grants a.times i →
    a.starts.length = i + 1 ∧ a.ends.length = i + 1 ∧ a.gaveUps = 1 ∧ IsOver .crashed run
  gaveUp : a.gaveUps ≠ 0 → ∃ i c, a.ends[i]? = some (c, .crashed) ∧ ¬ su.Grants a.times i
  result : ∀ e, run = some (.ended (.ok e)) → ∃ x, a.ends.getLast? = some (x, e) ∧
    a.starts.length = a.ends.length ∧ (e = .crashed → a.gaveUps ≠ 0)

/-! ### The accounts of the stages -/

section

variable {su : Setup Micros} {job : Job ω} {now since : Instant} {cs : List Instant}
  {last : List (Instant × Exit)} {gaveUps : Nat} {run : Option (Run ω)}

/-- What came after the crashes that were followed by restarts. -/
inductive Standing (su : Setup Micros) (job : Job ω) (now : Instant) (cs : List Instant) :
    List (Instant × Exit) → Nat → Option (Run ω) → Prop where
  | going {run : Option (Run ω)} (unended : ∀ e, run ≠ some (.ended (.ok e))) :
      Standing su job now cs [] 0 run
  | exited {x : Instant} {e : Exit} {run : Option (Run ω)} (final : e ≠ .crashed)
      (closed : IsOver e run) : Standing su job now cs [(x, e)] 0 run
  | granted {c : Instant} {run : Option (Run ω)} (grant : su.Grants (cs ++ [c]) cs.length)
      (waits : now ≤ c + su.delay ∧ (∃ l, run = some (.live l) ∧ l.phase = .backingOff) ∨
        IsCut su job now run) : Standing su job now cs [(c, .crashed)] 0 run
  | refused {c : Instant} {run : Option (Run ω)} (refused : ¬ su.Grants (cs ++ [c]) cs.length)
      (closed : IsOver .crashed run) : Standing su job now cs [(c, .crashed)] 1 run

theorem Standing.length_le (h : Standing su job now cs last gaveUps run) : last.length ≤ 1 := by
  cases h <;> simp

theorem account_times : (su.account since cs last gaveUps).times = cs ++ last.map (·.1) := by
  simp [Account.times, Setup.account, Function.comp_def]

/-- An end is a crash that was followed by a restart, or else the last one. -/
theorem end_cases (short : last.length ≤ 1) {i : Nat} {x : Instant} {e : Exit}
    (found : (su.account since cs last gaveUps).ends[i]? = some (x, e)) :
    cs[i]? = some x ∧ e = .crashed ∨ i = cs.length ∧ last = [(x, e)] := by
  unfold Setup.account at found
  dsimp only at found
  by_cases inside : i < cs.length
  · rw [List.getElem?_append_left (by simpa using inside), List.getElem?_map] at found
    obtain ⟨c, crash_i, same⟩ := Option.map_eq_some_iff.mp found
    cases same
    exact .inl ⟨crash_i, rfl⟩
  · rw [List.getElem?_append_right (by simpa using inside), List.length_map] at found
    have at_end := (List.getElem?_eq_some_iff.mp found).1
    have first : i - cs.length = 0 := by omega
    rw [first] at found
    refine .inr ⟨by omega, ?_⟩
    match last, short, found with
    | [p], _, found => rw [Option.some.inj found]

/-- The account of a run that stands somewhere follows the policy. -/
theorem follows_account (granted : ∀ i < cs.length, su.Grants cs i)
    (inOrder : (cs ++ last.map (·.1)).Pairwise (· ≤ ·))
    (standing : Standing su job now cs last gaveUps run) :
    Follows su job now (su.account since cs last gaveUps) run := by
  have starts : (su.account since cs last gaveUps).starts.length = cs.length + 1 := by
    simp [Setup.account]
  have ends : (su.account since cs last gaveUps).ends.length = cs.length + last.length := by
    simp [Setup.account]
  have short := standing.length_le
  have before : ∀ i x, cs[i]? = some x → su.Grants (su.account since cs last gaveUps).times i := by
    intro i x found
    have inside := (List.getElem?_eq_some_iff.mp found).1
    rw [account_times, Setup.grants_append inside]
    exact granted i inside
  refine ⟨.inl rfl, by omega, by rwa [account_times], ?_, ?_, ?_, ?_, ?_⟩
  · intro i x e found final
    rcases end_cases short found with ⟨-, crash⟩ | ⟨rfl, rfl⟩
    · exact absurd crash final
    · cases standing with
      | exited final closed => exact ⟨starts, ends, rfl, closed⟩
      | granted grant waits => exact absurd rfl final
      | refused refused closed => exact absurd rfl final
  · intro i c found grant
    rcases end_cases short found with ⟨crash_i, -⟩ | ⟨rfl, rfl⟩
    · refine .inl ?_
      simp [Setup.account, crash_i]
    · rw [account_times] at grant
      cases standing with
      | exited final closed => exact absurd rfl final
      | granted grant waits => exact .inr ⟨starts, waits⟩
      | refused refused closed => exact absurd grant refused
  · intro i c found refusal
    rcases end_cases short found with ⟨crash_i, -⟩ | ⟨rfl, rfl⟩
    · exact absurd (before i c crash_i) refusal
    · rw [account_times] at refusal
      cases standing with
      | exited final closed => exact absurd rfl final
      | granted grant waits => exact absurd grant refusal
      | refused refused closed => exact ⟨starts, ends, rfl, closed⟩
  · intro gaveUp
    cases standing with
    | going unended => exact absurd rfl gaveUp
    | exited final closed => exact absurd rfl gaveUp
    | granted grant waits => exact absurd rfl gaveUp
    | @refused c _ refused closed =>
      refine ⟨cs.length, c, ?_, ?_⟩
      · simp [Setup.account]
      · rwa [account_times]
  · rintro e rfl
    cases standing with
    | going unended => exact absurd rfl (unended e)
    | exited final closed =>
      rcases closed with closed | closed
      · cases closed
        exact ⟨_, List.getLast?_concat, starts.trans ends.symm, fun crash => absurd crash final⟩
      · cases closed
    | granted grant waits =>
      rcases waits with ⟨-, l, live, -⟩ | cleared | ⟨f, failed, -⟩
      · cases live
      · cases cleared
      · cases failed
    | refused refused closed =>
      rcases closed with closed | closed
      · cases closed
        exact ⟨_, List.getLast?_concat, starts.trans ends.symm, fun _ => Nat.one_ne_zero⟩
      · cases closed

/-- A run that has not begun follows the policy. -/
theorem follows_summoned (unended : ∀ e, run ≠ some (.ended (.ok e)))
    (waits : now = since ∨ IsCut su job now run) : Follows su job now { since } run where
  first := .inr ⟨rfl, waits⟩
  turns := ⟨Nat.le_refl _, Nat.zero_le _⟩
  inOrder := List.Pairwise.nil
  final := nofun
  granted := nofun
  refused := nofun
  gaveUp := nofun
  result := fun e ended => absurd ended (unended e)

/-- At every stage the account of a run follows the policy. -/
theorem Stage.follows {a : Account} (h : Stage su job now (some a) run) : Follows su job now a run := by
  have earlier : ∀ {x : Instant} {cs : List Instant} {b : Budget Instant}, Tally su now (cs ++ [x]) b →
      (∀ i < cs.length, su.Grants cs i) ∧ su.Grants (cs ++ [x]) cs.length := by
    intro x cs b tally
    have inside : ∀ i ≤ cs.length, i < (cs ++ [x]).length := fun i le => by
      rw [List.length_append, List.length_singleton]
      omega
    refine ⟨fun i lt => ?_, tally.granted _ (inside _ (Nat.le_refl _))⟩
    exact (Setup.grants_append lt [x]).mp (tally.granted i (inside i (Nat.le_of_lt lt)))
  cases h with
  | summoned phase budget wake => exact follows_summoned nofun (.inl rfl)
  | atWork busy tally =>
    exact follows_account tally.granted (by simpa using tally.counts.inOrder) (.going nofun)
  | backingOff phase tally early wake =>
    obtain ⟨granted, grant⟩ := earlier tally
    exact follows_account granted tally.counts.inOrder (.granted grant (.inl ⟨early, _, rfl, phase⟩))
  | exited final tally past closed =>
    exact follows_account tally.granted tally.inOrder_concat (.exited final closed)
  | gaveUp refused tally past closed =>
    exact follows_account tally.granted tally.inOrder_concat (.refused refused closed)
  | cut cut unfinished =>
    cases unfinished with
    | summoned => exact follows_summoned cut.unended (.inr cut)
    | atWork tally =>
      exact follows_account tally.granted (by simpa using tally.counts.inOrder) (.going cut.unended)
    | backingOff tally =>
      obtain ⟨granted, grant⟩ := earlier tally
      exact follows_account granted tally.counts.inOrder (.granted grant (.inr cut))

end

/-! ### Instances that all crash after the same time -/

section

variable {su : Setup Micros} {job : Job ω} {now : Instant} {a : Account} {run : Option (Run ω)} {d : Nat}

/-- Every instance crashed so long after it began, unless it has not been at work that long, or the run
was cut short. -/
def CrashesAfter (su : Setup Micros) (job : Job ω) (now : Instant) (a : Account) (run : Option (Run ω))
    (d : Nat) : Prop :=
  ∀ i x, a.starts[i]? = some x → a.ends[i]? = some (x + d, .crashed) ∨
    a.ends.length = i ∧ (now ≤ x + d ∨ IsCut su job now run)

namespace Follows

/-- Instances that all crash after the same time begin at regular times. -/
theorem start_eq (h : Follows su job now a run) (steady : CrashesAfter su job now a run d) {i : Nat}
    {x : Instant} (found : a.starts[i]? = some x) : x = a.since + i * (d + su.delay) := by
  induction i generalizing x with
  | zero =>
    rcases h.first with first | ⟨unbegun, -⟩
    · rw [first] at found
      cases found
      simp
    · rw [unbegun] at found
      cases found
  | succ i ih =>
    have inside := (List.getElem?_eq_some_iff.mp found).1
    have turns := h.turns
    have before : i < a.starts.length := by omega
    have start := List.getElem?_eq_getElem before
    have began_i := ih start
    rcases steady i _ start with crashed | ⟨waits, -⟩
    · by_cases grant : su.Grants a.times i
      · rcases h.granted i _ crashed grant with began | ⟨closed, -⟩
        · rw [found] at began
          rw [Option.some.inj began, began_i, Nat.succ_mul, Nat.add_assoc, Nat.add_assoc]
        · omega
      · have closed := (h.refused i _ crashed grant).1
        omega
    · omega

/-- Instances that all crash after the same time crash at regular times. -/
theorem end_eq (h : Follows su job now a run) (steady : CrashesAfter su job now a run d) {i : Nat}
    {x : Instant} {e : Exit} (found : a.ends[i]? = some (x, e)) :
    x = a.since + i * (d + su.delay) + d ∧ e = .crashed := by
  have inside := (List.getElem?_eq_some_iff.mp found).1
  have turns := h.turns
  have start := List.getElem?_eq_getElem (Nat.lt_of_lt_of_le inside turns.1)
  rcases steady i _ start with crashed | ⟨closed, -⟩
  · rw [crashed] at found
    cases found
    exact ⟨by rw [h.start_eq steady start], rfl⟩
  · omega

/-- Then the restarts that are granted are the first ones, or all if that many fit in no window. -/
theorem grants_iff (h : Follows su job now a run) (steady : CrashesAfter su job now a run d) {m i : Nat}
    (limit : su.maxRestarts = m) (inside : i < a.ends.length) :
    su.Grants a.times i ↔ 1 ≤ m ∧ (i < m ∨ su.window.count < (m * (d + su.delay) : Nat)) := by
  have time : ∀ j, j < a.ends.length → a.times[j]? = some (a.since + j * (d + su.delay) + d) := by
    intro j lt
    have found := List.getElem?_eq_getElem lt
    rw [Account.times, List.getElem?_map, found, Option.map_some]
    exact congrArg some (h.end_eq steady found).1
  unfold Setup.Grants
  rw [limit, time i inside]
  refine and_congr (by omega) ?_
  by_cases first : i < m
  · exact iff_of_true (.inl (by omega)) (.inl first)
  · obtain ⟨j, rfl⟩ : ∃ j, i = j + m := ⟨i - m, by omega⟩
    have back : j + m - (m : Int).toNat = j := by omega
    rw [back, time j (by omega)]
    refine or_congr (by omega) ?_
    have apart : ((a.since + (j + m) * (d + su.delay) + d : Nat) : Int)
        - (a.since + j * (d + su.delay) + d : Nat) = (m * (d + su.delay) : Nat) := by
      rw [Nat.add_mul]
      omega
    constructor
    · rintro ⟨c, x, hc, hx, out⟩
      obtain rfl := Option.some.inj hc
      obtain rfl := Option.some.inj hx
      exact apart ▸ out
    · intro out
      exact ⟨_, _, rfl, rfl, apart.symm ▸ out⟩

/-- If it is late enough for a number of restarts and they are granted, they have taken place. -/
theorem lt_starts (h : Follows su job now a run) (steady : CrashesAfter su job now a run d)
    (whole : ¬ IsCut su job now run) {k : Nat}
    (granted : ∀ i < k, i < a.ends.length → su.Grants a.times i)
    (late : a.since + k * (d + su.delay) < now) : k < a.starts.length := by
  induction k with
  | zero =>
    rcases h.first with first | ⟨-, early | cut⟩
    · exact (List.getElem?_eq_some_iff.mp first).1
    · rw [Nat.zero_mul, Nat.add_zero, early] at late
      exact absurd late (Nat.lt_irrefl _)
    · exact absurd cut whole
  | succ k ih =>
    have round : a.since + (k + 1) * (d + su.delay) = a.since + k * (d + su.delay) + d + su.delay := by
      rw [Nat.succ_mul, Nat.add_assoc, Nat.add_assoc]
    rw [round] at late
    have before : a.since + k * (d + su.delay) + d < now := Nat.lt_of_le_of_lt (Nat.le_add_right _ _) late
    have inside := ih (fun i lt => granted i (Nat.lt_succ_of_lt lt))
      (Nat.lt_of_le_of_lt (Nat.le_add_right _ _) before)
    have start := List.getElem?_eq_getElem inside
    have began_k := h.start_eq steady start
    rcases steady k _ start with crashed | ⟨-, early | cut⟩
    · have grant := granted k (Nat.lt_succ_self k) (List.getElem?_eq_some_iff.mp crashed).1
      rcases h.granted k _ crashed grant with began | ⟨-, ⟨early, -⟩ | cut⟩
      · exact (List.getElem?_eq_some_iff.mp began).1
      · rw [began_k] at early
        exact absurd late (Nat.not_lt.mpr early)
      · exact absurd cut whole
    · rw [began_k] at early
      exact absurd before (Nat.not_lt.mpr early)
    · exact absurd cut whole

/-- If so many restarts fit in a window, as many take place as the limit allows, and then the run is given
up. -/
theorem of_fits (h : Follows su job now a run) (steady : CrashesAfter su job now a run d) {m : Nat}
    (limit : su.maxRestarts = m) (fits : (m * (d + su.delay) : Nat) ≤ su.window.count) :
    a.starts.length ≤ m + 1 ∧ (¬ IsCut su job now run → a.since + m * (d + su.delay) + d < now →
      a.starts.length = m + 1 ∧ a.gaveUps = 1 ∧ run = some (.ended (.ok .crashed))) := by
  have turns := h.turns
  have grants : ∀ i < a.ends.length, su.Grants a.times i ↔ i < m := by
    intro i inside
    rw [h.grants_iff steady limit inside]
    omega
  have last : m < a.ends.length → a.starts.length = m + 1 ∧ a.gaveUps = 1 ∧ IsOver .crashed run := by
    intro inside
    have found := List.getElem?_eq_getElem inside
    have crash : a.ends[m] = (a.ends[m].1, .crashed) := Prod.ext rfl (h.end_eq steady found).2
    rw [crash] at found
    have refused := h.refused m _ found fun grant => Nat.lt_irrefl m ((grants m inside).mp grant)
    exact ⟨refused.1, refused.2.2⟩
  have few : a.starts.length ≤ m + 1 := by
    by_contra many
    have closed := (last (by omega)).1
    omega
  refine ⟨few, fun whole late => ?_⟩
  have began := h.lt_starts steady whole (fun i lt inside => (grants i inside).mpr lt)
    (Nat.lt_of_le_of_lt (Nat.le_add_right _ _) late)
  have start := List.getElem?_eq_getElem began
  have began_m := h.start_eq steady start
  rcases steady m _ start with crashed | ⟨-, early | cut⟩
  · obtain ⟨starts, gaveUps, closed | cleared⟩ := last (List.getElem?_eq_some_iff.mp crashed).1
    · exact ⟨starts, gaveUps, closed⟩
    · exact absurd (.inl cleared) whole
  · rw [began_m] at early
    exact absurd late (Nat.not_lt.mpr early)
  · exact absurd cut whole

/-- If so many restarts do not fit in a window, the run is never given up. -/
theorem of_not_fits (h : Follows su job now a run) (steady : CrashesAfter su job now a run d) {m : Nat}
    (limit : su.maxRestarts = m) (window : 0 ≤ su.window.count)
    (late : su.window.count < (m * (d + su.delay) : Nat)) :
    a.gaveUps = 0 ∧ run ≠ some (.ended (.ok .crashed)) ∧ (¬ IsCut su job now run →
      ∀ n : Nat, a.since + n * (d + su.delay) < now → n < a.starts.length) := by
  have positive : 1 ≤ m := by
    rcases Nat.eq_zero_or_pos m with rfl | pos
    · rw [Nat.zero_mul] at late
      omega
    · exact pos
  have grants : ∀ i < a.ends.length, su.Grants a.times i := fun i inside =>
    (h.grants_iff steady limit inside).mpr ⟨positive, .inr late⟩
  have never : a.gaveUps = 0 := by
    by_contra gaveUp
    obtain ⟨i, c, found, refused⟩ := h.gaveUp gaveUp
    exact refused (grants i (List.getElem?_eq_some_iff.mp found).1)
  refine ⟨never, ?_, fun whole n late => h.lt_starts steady whole (fun i _ => grants i) late⟩
  intro closed
  obtain ⟨x, -, -, gaveUp⟩ := h.result _ closed
  exact gaveUp rfl never

end Follows

end

/-! ### Crashes by their faults -/

section

variable {su : Setup Micros} {o : Slot.Occasion} {t t' : Slot ω} {l : Live ω} {f : Fault}
  {marks : List Mark}

/-- What a fault that escapes from an instance leaves behind: the crash in the account, and the fault in
the report. -/
structure Named (f : Fault) (time : Instant) (t : Slot ω) (marks : List Mark) : Prop where
  exit : t.health.lastExit = some .crashed
  error : t.health.lastError = f.describe
  noted : ∀ a : Account, ∃ a', (marks.map (time, ·)).foldl Account.note (some a) = some a' ∧
    a'.ends = a.ends ++ [(time, .crashed)]

theorem named_outcome (outcome : Slot.Outcome su o l (some (.fault f)) t marks) (told : f ≠ .cancelled)
    {m : Moment} (clock : su.moment o.now = .ok m) : Named f o.now t marks := by
  cases outcome with
  | cutShort run cause =>
    rcases cause with ⟨stopped, -⟩ | failed
    · cases stopped
      exact absurd rfl told
    · rw [clock] at failed
      cases failed
  | restarts crash granted run told => exact ⟨told.1, told.2, fun a => ⟨_, rfl, rfl⟩⟩
  | givesUp crash refused run told => exact ⟨told.1, told.2, fun a => ⟨_, rfl, rfl⟩⟩

/-- A fault that escapes from an instance is named in the report. -/
theorem named_moved [Machine ω Micros] (moved : t.Moved su o l t' marks)
    (ending : t.ending? l = some (.fault f)) (told : f ≠ .cancelled) {m : Moment}
    (clock : su.moment o.now = .ok m) : Named f o.now t' marks := by
  cases moved with
  | unbuilt fresh run cause =>
    rcases cause with unbuilt | failed
    · unfold Slot.ending? at ending
      cases phase : l.phase with
      | created =>
        rw [phase, unbuilt] at ending
        cases ending
      | backingOff =>
        rw [phase, unbuilt] at ending
        cases ending
      | resting w =>
        rw [phase] at fresh
        cases fresh
      | awaiting w outcome notes abandoned =>
        rw [phase] at fresh
        cases fresh
    · rw [clock] at failed
      cases failed
  | launched fresh outcome =>
    rw [ending] at outcome
    obtain ⟨exit, error, noted⟩ := named_outcome outcome told clock
    exact ⟨exit, error, fun a => noted { a with starts := a.starts ++ [o.now] }⟩
  | wentOn busy outcome =>
    rw [ending] at outcome
    exact named_outcome outcome told clock

end

/-! ### Every job -/

namespace State

variable {su : Setup Micros} {s s' : State ω} {name : String} {t : Slot ω}

theorem fresh_trigger (found : s.slot? name = some t) {reason : String}
    (accepted : (s.trigger su name reason).2 = .ok true) :
    (s.trigger su name reason).1.account? name = some { since := s.now } ∧
      ∃ t' l, (s.trigger su name reason).1.slot? name = some t' ∧ t'.live? = some l ∧
        l.budget = { limit := su.maxRestarts } := by
  have named := name_of_slot found
  unfold trigger at accepted ⊢
  rw [found] at accepted ⊢
  dsimp only at accepted ⊢
  obtain ⟨t₁, turn, attempted, fired⟩ := fire_spec su reason s t
  rw [fired] at accepted ⊢
  cases attempted with
  | skipped running =>
    rw [running] at accepted
    cases accepted
  | started idle turn place =>
    have left : Slot.Leaves name [.triggered t.job.name reason (!t.isRunning)] [.fired] := by
      rw [idle, named]
      rfl
    refine ⟨?_, _, _, slot_put_self found named, rfl, rfl⟩
    have marks := left.marks_self s.journal s.now
    unfold account?
    refine (congrArg _ marks).trans ?_
    rw [List.foldl_append]
    rfl

variable [Machine ω Micros]

/-- The restart policy, for one job in a state of the supervisor. -/
structure Restarts (su : Setup Micros) (s : State ω) (name : String) (t : Slot ω) : Prop where
  unasked : s.account? name = none → t.run = none
  follows : ∀ a, s.account? name = some a → Follows su t.job s.now a t.run
  /-- Since the run was asked for, there was one worker event for each time that it was given up, beside
  those that workers and services counted themselves. -/
  counted : ∀ a, s.account? name = some a → (s.journal.lastRun name).counter name "gave_up"
    = (s.journal.lastRun name).tokens.count (name, "gave_up") + a.gaveUps
  /-- Instances that crash after the same time, with as many restarts in a window as there may be. -/
  fits : ∀ a, s.account? name = some a → ∀ d m : Nat, CrashesAfter su t.job s.now a t.run d →
    su.maxRestarts = m → (m * (d + su.delay) : Nat) ≤ su.window.count →
    a.starts.length ≤ m + 1 ∧ (¬ IsCut su t.job s.now t.run →
      a.since + m * (d + su.delay) + d < s.now →
      a.starts.length = m + 1 ∧ a.gaveUps = 1 ∧ t.run = some (.ended (.ok .crashed)))
  /-- Instances that crash after the same time, with fewer restarts in a window than there may be. -/
  exceeds : ∀ a, s.account? name = some a → ∀ d m : Nat, CrashesAfter su t.job s.now a t.run d →
    su.maxRestarts = m → 0 ≤ su.window.count → su.window.count < (m * (d + su.delay) : Nat) →
    a.gaveUps = 0 ∧ t.run ≠ some (.ended (.ok .crashed)) ∧ (¬ IsCut su t.job s.now t.run →
      ∀ n : Nat, a.since + n * (d + su.delay) < s.now → n < a.starts.length)
  /-- A trigger that is accepted opens a new account, and the run has a budget of its own. -/
  fresh : ∀ reason, (s.trigger su name reason).2 = .ok true →
    (s.trigger su name reason).1.account? name = some { since := s.now } ∧
    ∃ t' l, (s.trigger su name reason).1.slot? name = some t' ∧ t'.live? = some l ∧
      l.budget = { limit := su.maxRestarts }
  /-- A fault that escapes from an instance is a crash, and the fault is reported. -/
  named : ∀ l f, t.live? = some l → t.ending? l = some (.fault f) → f ≠ .cancelled →
    ∀ m, su.moment s.now = .ok m → ∀ present a, s.account? name = some a →
    ∃ t' a', (s.moveJob su present t l).slot? name = some t' ∧
      (s.moveJob su present t l).account? name = some a' ∧
      a'.ends = a.ends ++ [(s.now, .crashed)] ∧ t'.health.lastExit = some .crashed ∧
      t'.health.lastError = f.describe
  /-- After the end of a run its exit and its error stay in the report. -/
  lasting : t.isRunning = false → ∀ s', Act su s s' → ∃ t', s'.slot? name = some t' ∧
    t'.health.lastExit = t.health.lastExit ∧ t'.health.lastError = t.health.lastError

theorem named_moveJob (found : s.slot? name = some t) {l : Live ω} {f : Fault}
    (ending : t.ending? l = some (.fault f)) (told : f ≠ .cancelled) {m : Moment}
    (clock : su.moment s.now = .ok m) (present : Nat) {a : Account} (opened : s.account? name = some a) :
    ∃ t' a', (s.moveJob su present t l).slot? name = some t' ∧
      (s.moveJob su present t l).account? name = some a' ∧
      a'.ends = a.ends ++ [(s.now, .crashed)] ∧ t'.health.lastExit = some .crashed ∧
      t'.health.lastError = f.describe := by
  obtain ⟨marks, left, moved⟩ := Slot.moved_move su ⟨s.now, present, s.turn, s.journal.outbound⟩ t l
  have own := Slot.own_move su ⟨s.now, present, s.turn, s.journal.outbound⟩ t l
  have named := named_moved moved ending told clock
  have job := congrArg Job.name own.job
  obtain ⟨a', noted, ends⟩ := named.noted a
  rw [name_of_slot found] at left job
  refine ⟨_, a', slot_put_self (s := { s with turn := s.turn + 1 }) found job, ?_, ends, named.exit,
    named.error⟩
  have recorded := left.marks_self s.journal s.now
  unfold account? at opened ⊢
  refine (congrArg _ recorded).trans ?_
  rw [List.foldl_append, opened]
  exact noted

theorem lasting_act (distinct : s.names.Nodup) (found : s.slot? name = some t)
    (idle : t.isRunning = false) (act : Act su s s') :
    ∃ t', s'.slot? name = some t' ∧ t'.health.lastExit = t.health.lastExit ∧
      t'.health.lastError = t.health.lastError := by
  obtain ⟨t', marks, found', -, -, sight⟩ := traced_act distinct found act
  refine ⟨t', found', ?_⟩
  cases sight with
  | moved live ready moved now =>
    rw [Slot.isRunning, live] at idle
    cases idle
  | fired idle run exit error now => exact ⟨exit, error⟩
  | left run exit error now => exact ⟨exit, error⟩
  | waited idle later near arrived =>
    rcases arrived with ⟨turns, rfl⟩ | rfl
    · unfold arriveSlot
      split <;> exact ⟨rfl, rfl⟩
    · exact ⟨rfl, rfl⟩
  | stopped run exit error now => exact ⟨exit, error⟩

/-- Whatever a supervisor does, the runs of every job follow the restart policy. -/
theorem restarts_of_script {jobs : List (Job ω)} {st : State ω} (h : ofJobs jobs = .ok st)
    (su : Setup Micros) :
    (∀ script, Acts su st (st.drive su script)) ∧
      ∀ s, Acts su st s → ∀ name t, s.slot? name = some t → Restarts su s name t := by
  refine ⟨fun script => acts_drive su script st, ?_⟩
  intro s acts name t found
  have stage := stage_of_acts h acts found
  have follows : ∀ a, s.account? name = some a → Follows su t.job s.now a t.run := by
    intro a opened
    rw [opened] at stage
    exact stage.follows
  refine ⟨?_, follows, ?_, ?_, ?_, ?_, ?_, ?_⟩
  · intro unasked
    rw [unasked] at stage
    generalize t.run = run at stage
    cases stage
    rfl
  · intro a opened
    rw [Journal.counter_eq, ← Journal.gaveUps_lastRun opened]
    rfl
  · intro a opened d m steady limit fits
    exact (follows a opened).of_fits steady limit fits
  · intro a opened d m steady limit window late
    exact (follows a opened).of_not_fits steady limit window late
  · exact fun reason accepted => fresh_trigger found accepted
  · intro l f live ending told m clock present a opened
    exact named_moveJob found ending told clock present opened
  · intro idle s' act
    exact lasting_act (documented_acts h acts).nodup_slots found idle act

end State

/-- A job whose every instance crashes after four seconds. -/
def Job.weary : Job (Script.Part Micros) where
  name := "weary"
  build := Script.instances [.ok { delay := some ⟨4 * second⟩, ending := .fail .notImplemented }]

/-- Two restarts in a window of ten seconds, a second after the crash. -/
def Setup.twice : Setup Micros where
  maxRestarts := 2
  window := ⟨10 * second⟩
  restartDelay := ⟨second⟩
  tickDelay := ⟨second⟩
  origin := ⟨0, some 0⟩
  services := ⟨Script.settle [], Script.post (.ok ())⟩

/-- Two restarts take just as long as the window, so the third crash finds both in it: three instances
begin, and the run is given up. -/
theorem State.restarts_of_script_weary :
    ∃ st, State.ofJobs [Job.weary] = .ok st ∧
      let s := st.drive Setup.twice [(9, .trigger "weary" "manual"), (99, .advance ⟨20 * second⟩)]
      ∃ t a, s.slot? "weary" = some t ∧ s.account? "weary" = some a ∧
        Follows Setup.twice t.job s.now a t.run ∧
        CrashesAfter Setup.twice t.job s.now a t.run (4 * second) ∧
        a.starts = [0, 5 * second, 10 * second] ∧ a.starts.length = 2 + 1 ∧ a.gaveUps = 1 ∧
        (s.journal.lastRun "weary").counter "weary" "gave_up" = 1 ∧
        t.run = some (.ended (.ok .crashed)) := by
  refine ⟨_, rfl, ?_⟩
  intro s
  obtain ⟨driven, restarts⟩ :=
    State.restarts_of_script (rfl : State.ofJobs [Job.weary] = .ok _) Setup.twice
  have result : (s.result "weary").toOption = some (some .crashed) := by decide +kernel
  obtain ⟨a, opened, told⟩ : ∃ a, s.account? "weary" = some a ∧ a = ⟨0, [0, 5 * second, 10 * second],
      [(4 * second, .crashed), (9 * second, .crashed), (14 * second, .crashed)], 1⟩ :=
    ⟨_, by decide +kernel, rfl⟩
  obtain ⟨t, found⟩ : ∃ t, s.slot? "weary" = some t :=
    Option.isSome_iff_exists.mp (by decide +kernel : (s.slot? "weary").isSome)
  have restarts := restarts s (driven _) "weary" t found
  have steady : CrashesAfter Setup.twice t.job s.now a t.run (4 * second) := by
    intro i x start
    rw [told] at start ⊢
    rcases i with _ | _ | _ | i <;> cases start <;> exact .inl rfl
  have whole : ¬ IsCut Setup.twice t.job s.now t.run := by
    rw [State.result, found, Option.bind_some] at result
    rintro (run | ⟨f, run, -⟩) <;> rw [run] at result <;> cases result
  obtain ⟨-, complete⟩ := restarts.fits a opened (4 * second) 2 steady rfl (by decide +kernel)
  have late : a.since + 2 * (4 * second + Setup.twice.delay) + 4 * second < s.now := by
    rw [told]
    decide +kernel
  obtain ⟨three, once, crashed⟩ := complete whole late
  have foreign : (s.journal.lastRun "weary").tokens.count ("weary", "gave_up") = 0 := by decide +kernel
  have event := restarts.counted a opened
  rw [foreign, once] at event
  exact ⟨t, a, found, opened, restarts.follows a opened, steady, congrArg Account.starts told, three, once,
    event, crashed⟩

end Supervisor

end Settler
