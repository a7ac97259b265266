import Mathlib.Algebra.Order.Group.Int
import Mathlib.Algebra.Order.Group.Unbundled.Basic
import Settler.Proofs.Supervisor.Window
import Settler.Time.Seconds

/-!
A restart budget that is asked again and again.

Times are measured by exact numbers (`Measures`), and the budget is asked at times that do not go back. Each
answer keeps the books (`Sliding.request`): a restart is granted exactly while fewer than the limit of those
granted before lie in the window, and what is held is the end of what was granted. By induction on the times
that is so of all answers (`Sliding.requests`), and no stretch of time as long as the window has more grants
than the limit.
-/

namespace Settler.Supervisor.Budget

variable {τ ρ : Type}

/-- A budget that refuses still counts, once what lies outside the window is dropped. -/
theorem Counts.pruned [Preorder τ] {outside : τ → τ → Bool} {now later : τ} {granted : List τ}
    {b : Budget τ} (h : Counts outside now granted b) (slides : Slides outside) (le : now ≤ later) :
    Counts outside later granted (b.prune (outside later)) := by
  have counts := h.mono slides le
  refine ⟨?_, counts.inOrder, counts.past⟩
  obtain ⟨gone, split, out⟩ := counts.dropped
  refine ⟨gone ++ b.held.takeWhile (outside later), ?_, fun t mem => ?_⟩
  · rw [split, List.append_assoc, prune, List.takeWhile_append_dropWhile]
  · rcases List.mem_append.mp mem with old | new
    · exact out t old
    · exact List.mem_takeWhile_imp new

/-- The times at which a restart was granted, given the answers at these times. -/
def granted : List τ → List (Bool × Budget τ) → List τ
  | now :: times, (grant, _) :: answers => (if grant then [now] else []) ++ granted times answers
  | _, _ => []

variable [AddCommGroup ρ] [LinearOrder ρ]

/-- So many of these times lie in the window that ends now. -/
def inWindow (value : τ → ρ) (span : ρ) (now : τ) (times : List τ) : Nat :=
  times.countP fun t => value now - value t ≤ span

/-- So many of these times lie in the stretch of time that starts at a number and is as long as a span. -/
def inStretch (value : τ → ρ) (span start : ρ) (times : List τ) : Nat :=
  times.countP fun t => start ≤ value t ∧ value t ≤ start + span

/-- The answer of a budget that is asked now, after grants at some times: it goes by those in the window, and
what is held then is the end of the grants, with all that lie in the window. -/
structure Answers (value : τ → ρ) (span : ρ) (limit : Int) (before : List τ) (now : τ)
    (answer : Bool × Budget τ) : Prop where
  exact : answer.1 ↔ inWindow value span now before < limit
  suffix : answer.2.held <:+ before ++ if answer.1 then [now] else []
  inOrder : answer.2.held.Pairwise fun s t => value s ≤ value t
  short : (answer.2.held.length : Int) ≤ max limit 0
  unforgotten : ∀ t ∈ before, value now - value t ≤ span → t ∈ answer.2.held

variable [Preorder τ]

/-- Times have exact numbers, and what lies further back than a span is outside the window. -/
structure Measures (value : τ → ρ) (span : ρ) (outside : τ → τ → Bool) : Prop where
  mono : Monotone value
  exact : ∀ now t, outside now t ↔ span < value now - value t

/-- The books of a budget at a time after some grants: the budget counts them and holds no more than the
limit, and in no stretch of time as long as the window are there more of them than that. -/
structure Sliding (value : τ → ρ) (span : ρ) (outside : τ → τ → Bool) (limit : Int) (now : τ)
    (past : List τ) (b : Budget τ) : Prop where
  counts : Counts outside now past b
  limit_eq : b.limit = limit
  short : (b.held.length : Int) ≤ max limit 0
  sparse : 0 ≤ span → ∀ start, (inStretch value span start past : Int) ≤ max limit 0

variable {value : τ → ρ} {span : ρ} {outside : τ → τ → Bool} {limit : Int} {now later : τ}
  {past : List τ} {b : Budget τ}

theorem sliding_fresh (now : τ) : Sliding value span outside limit now [] { limit } where
  counts := counts_fresh outside now limit
  limit_eq := rfl
  short := by simp
  sparse := by simp [inStretch]

namespace Measures

variable (measures : Measures value span outside)
include measures

theorem inside_iff (now t : τ) : (!outside now t) = true ↔ value now - value t ≤ span := by
  rw [Bool.not_eq_true', ← Bool.not_eq_true, measures.exact, not_lt]

/-- What is not outside the window is counted in it. -/
theorem length_inside (now : τ) (times : List τ) :
    (times.filter (!outside now ·)).length = inWindow value span now times := by
  rw [← List.countP_eq_length_filter]
  refine List.countP_congr fun t _ => ?_
  rw [measures.inside_iff, decide_eq_true_eq]

theorem slides [IsOrderedAddMonoid ρ] : Slides outside := by
  intro now later t earlier le le' out
  rw [measures.exact] at out ⊢
  exact out.trans_le (sub_le_sub (measures.mono le) (measures.mono le'))

end Measures

/-! ### One answer -/

namespace Sliding

variable (h : Sliding value span outside limit now past b)
include h

theorem held_suffix : b.held <:+ past := by
  obtain ⟨gone, split, -⟩ := h.counts.dropped
  exact ⟨gone, split.symm⟩

theorem held_inOrder (measures : Measures value span outside) :
    b.held.Pairwise fun s t => value s ≤ value t :=
  (h.counts.inOrder.sublist h.held_suffix.sublist).imp fun le => measures.mono le

variable [IsOrderedAddMonoid ρ]

/-- If a restart that is granted lies in a stretch as long as the window, all grants in the stretch before
it lie in its window. -/
theorem sparse_grant (free : inWindow value span later past < limit) (wide : 0 ≤ span) (start : ρ) :
    (inStretch value span start (past ++ [later]) : Int) ≤ max limit 0 := by
  have sparse := h.sparse wide start
  simp only [inStretch, List.countP_append, List.countP_singleton] at sparse ⊢
  split
  · next inside =>
    have inside : start ≤ value later ∧ value later ≤ start + span := by simpa using inside
    have fewer : past.countP (fun t => start ≤ value t ∧ value t ≤ start + span)
        ≤ inWindow value span later past := by
      refine List.countP_mono_left fun t _ within => ?_
      have within : start ≤ value t ∧ value t ≤ start + span := by simpa using within
      have near : value later - value t ≤ span :=
        sub_le_iff_le_add'.mpr (inside.2.trans (add_le_add_left within.1 span))
      simpa using near
    omega
  · simpa using sparse

variable (measures : Measures value span outside) (le : now ≤ later)
include measures le

/-- What a budget answers: it goes by the grants in the window, and these are what it holds on to. -/
theorem request_eq : b.request outside later =
    if (inWindow value span later past : Int) < limit then
      (true, ⟨limit, past.filter (!outside later ·) ++ [later]⟩)
    else (false, ⟨limit, past.filter (!outside later ·)⟩) := by
  rw [h.counts.request_eq measures.slides le, h.limit_eq, measures.length_inside]

/-- The books are kept when the budget is asked. -/
theorem request : Sliding value span outside limit later
    (past ++ if (b.request outside later).1 then [later] else []) (b.request outside later).2 := by
  have asked := h.request_eq measures le
  have inside := measures.length_inside later past
  by_cases free : (inWindow value span later past : Int) < limit
  · rw [if_pos free] at asked
    have counts := h.counts.request_snd measures.slides le (by rw [asked])
    rw [asked] at counts ⊢
    refine ⟨counts, rfl, ?_, h.sparse_grant free⟩
    simp only [List.length_append, List.length_singleton, inside]
    omega
  · rw [if_neg free] at asked
    have counts := h.counts.pruned measures.slides le
    rw [h.counts.prune_eq measures.slides le, h.limit_eq] at counts
    have fewer : (past.filter (!outside later ·)).length ≤ b.held.length := by
      have pruned := congrArg (·.held.length) (h.counts.prune_eq measures.slides le)
      exact pruned.symm.trans_le (List.dropWhile_sublist _).length_le
    rw [asked]
    simp only [Bool.false_eq_true, if_false, List.append_nil]
    exact ⟨counts, rfl, (Int.ofNat_le.mpr fewer).trans h.short, h.sparse⟩

/-- The answer of a budget that is asked. -/
theorem answers : Answers value span limit past later (b.request outside later) := by
  have kept := h.request measures le
  have asked := h.request_eq measures le
  refine ⟨?_, kept.held_suffix, kept.held_inOrder measures, kept.short, ?_⟩
  · rw [asked]
    split
    · next free => exact iff_of_true rfl free
    · next full => exact iff_of_false Bool.false_ne_true full
  · intro t mem near
    have held : t ∈ past.filter (!outside later ·) :=
      List.mem_filter.mpr ⟨mem, (measures.inside_iff later t).mpr near⟩
    rw [asked]
    split
    · exact List.mem_append_left _ held
    · exact held

end Sliding

/-! ### All answers -/

variable [IsOrderedAddMonoid ρ]

/-- The answers of a budget, one after the other, and the grants in the end. -/
theorem Sliding.requests (h : Sliding value span outside limit now past b)
    (measures : Measures value span outside) {times : List τ} (inOrder : times.Pairwise (· ≤ ·))
    (after : ∀ t ∈ times, now ≤ t) :
    (b.requests outside times).length = times.length ∧
      (∀ (i : Nat) time, times[i]? = some time → ∃ a, (b.requests outside times)[i]? = some a ∧
        Answers value span limit
          (past ++ granted (times.take i) ((b.requests outside times).take i)) time a) ∧
      (0 ≤ span → ∀ start,
        (inStretch value span start (past ++ granted times (b.requests outside times)) : Int)
          ≤ max limit 0) := by
  induction times generalizing now past b with
  | nil => exact ⟨rfl, by simp, by simpa [granted] using h.sparse⟩
  | cons time rest ih =>
    obtain ⟨later, inOrder⟩ := List.pairwise_cons.mp inOrder
    have le := after time List.mem_cons_self
    obtain ⟨length, each, sparse⟩ := ih (h.request measures le) inOrder later
    refine ⟨congrArg (· + 1) length, ?_, ?_⟩
    · rintro (_ | i) t found
      · cases found
        exact ⟨_, rfl, by simpa [granted] using h.answers measures le⟩
      · obtain ⟨a, answered, answers⟩ := each i t found
        exact ⟨a, answered, by simpa [Budget.requests, granted, List.append_assoc] using answers⟩
    · simpa [Budget.requests, granted, List.append_assoc] using sparse

/-- A fresh budget that is asked at times that do not go back answers each time by the grants before that
lie in the window, holds the end of the grants and forgets none of these; and no stretch of time as long as
the window has more grants than the limit. -/
theorem requests_window (measures : Measures value span outside) (limit : Int) {times : List τ}
    (inOrder : times.Pairwise (· ≤ ·)) :
    let answers := Budget.requests outside times { limit }
    answers.length = times.length ∧
      (∀ (i : Nat) now, times[i]? = some now → ∃ a, answers[i]? = some a ∧
        Answers value span limit (granted (times.take i) (answers.take i)) now a) ∧
      (0 ≤ span → ∀ start, (inStretch value span start (granted times answers) : Int) ≤ max limit 0) := by
  cases times with
  | nil => simp [Budget.requests, granted, inStretch]
  | cons first rest =>
    have after : ∀ t ∈ first :: rest, first ≤ t :=
      List.forall_mem_cons.mpr ⟨le_rfl, (List.pairwise_cons.mp inOrder).1⟩
    exact (sliding_fresh first).requests measures inOrder after

/-- Instants and exact spans are measured by their microseconds. -/
theorem measures_exceeds (window : Micros) :
    Measures (fun now : Instant => (now : Int)) window.count (Seconds.exceeds · · window) where
  mono _ _ le := Int.ofNat_le.mpr le
  exact _ _ := decide_eq_true_iff

/-- Two restarts in five microseconds. The third request comes when the first grant lies exactly as far back
as the window reaches, and is refused; a microsecond later one is granted. -/
theorem requests_window_boundary :
    let outside (now earlier : Instant) : Bool := Seconds.exceeds now earlier (⟨5⟩ : Micros)
    let times : List Instant := [0, 3, 5, 6, 11]
    let answers := Budget.requests outside times { limit := 2 }
    Measures (fun now : Instant => (now : Int)) 5 outside ∧ times.Pairwise (· ≤ ·) ∧
      answers.map (·.1) = [true, true, false, true, true] ∧
      (∃ a, answers[2]? = some a ∧ Answers (fun now : Instant => (now : Int)) 5 2 [0, 3] 5 a) ∧
      ∀ start, inStretch (fun now : Instant => (now : Int)) 5 start (granted times answers) ≤ 2 := by
  intro outside times answers
  have measures : Measures (fun now : Instant => (now : Int)) 5 outside := measures_exceeds ⟨5⟩
  have inOrder : times.Pairwise (· ≤ ·) := by decide
  obtain ⟨-, each, sparse⟩ := requests_window measures 2 inOrder
  refine ⟨measures, inOrder, by decide, each 2 5 rfl, fun start => ?_⟩
  have few : (inStretch (fun now : Instant => (now : Int)) 5 start (granted times answers) : Int) ≤ 2 :=
    sparse (by decide) start
  exact_mod_cast few

end Settler.Supervisor.Budget
