import Mathlib.Data.List.TakeWhile
import Mathlib.Order.Basic
import Settler.Supervisor.Budget

/-!
A restart budget is a sliding window.

Times are asked for in order, so what lies outside the window is always the front of what was granted,
and what was dropped never counts again (`Counts`). So a restart is granted if and only if fewer than the
limit of those granted before still lie in the window (`Counts.request_fst`).
-/

namespace Settler.Supervisor

variable {τ : Type}

/-! ### Lists with a front -/

section Front

variable {p : τ → Bool} {l : List τ}

/-- If only the front of a list matches, to drop the front is to drop all matches. -/
theorem dropWhile_eq_filter (front : l.Pairwise fun a b => p b → p a) :
    l.dropWhile p = l.filter (!p ·) := by
  induction l with
  | nil => rfl
  | cons a rest ih =>
    obtain ⟨first, front⟩ := List.pairwise_cons.mp front
    cases hit : p a with
    | true => rw [List.dropWhile_cons_of_pos hit, ih front, List.filter_cons_of_neg (by simp [hit])]
    | false =>
      have misses : ∀ b ∈ a :: rest, !p b := by
        intro b mem
        rcases List.mem_cons.mp mem with rfl | mem
        · simp [hit]
        · have miss := mt (first b mem) (by simp [hit])
          simpa using miss
      rw [List.dropWhile_cons_of_neg (by simp [hit]), List.filter_eq_self.mpr misses]

/-- If only the front of a list matches, an element matches if and only if it lies in the front. -/
theorem hit_iff_lt_front (front : l.Pairwise fun a b => p b → p a) {i : Nat} {x : τ}
    (found : l[i]? = some x) : p x ↔ i < l.length - (l.filter (!p ·)).length := by
  induction l generalizing i with
  | nil => cases found
  | cons a rest ih =>
    obtain ⟨first, front⟩ := List.pairwise_cons.mp front
    have short := List.length_filter_le (!p ·) rest
    cases hit : p a with
    | true =>
      rw [List.filter_cons_of_neg (by simp [hit]), List.length_cons]
      cases i with
      | zero =>
        cases found
        simp only [hit, true_iff]
        omega
      | succ i =>
        rw [ih front found]
        omega
    | false =>
      have miss : ¬ p x := by
        rcases List.mem_cons.mp (List.mem_of_getElem? found) with rfl | mem
        · simp [hit]
        · exact mt (first x mem) (by simp [hit])
      have all : (a :: rest).filter (!p ·) = a :: rest := by
        rw [← dropWhile_eq_filter (List.pairwise_cons.mpr ⟨first, front⟩),
          List.dropWhile_cons_of_neg (by simp [hit])]
      rw [all]
      exact iff_of_false miss (by omega)

/-- If only the front of a list matches, fewer than so many elements miss if and only if there are not
as many, or else the one so many from the end matches. -/
theorem length_misses_lt_iff (front : l.Pairwise fun a b => p b → p a) (m : Int) :
    ((l.filter (!p ·)).length : Int) < m ↔
      1 ≤ m ∧ (l.length < m ∨ ∃ x, l[l.length - m.toNat]? = some x ∧ p x) := by
  have short := List.length_filter_le (!p ·) l
  constructor
  · intro few
    refine ⟨by omega, ?_⟩
    by_cases fits : (l.length : Int) < m
    · exact .inl fits
    · have inside : l.length - m.toNat < l.length := by omega
      refine .inr ⟨_, List.getElem?_eq_getElem inside, ?_⟩
      rw [hit_iff_lt_front front (List.getElem?_eq_getElem inside)]
      omega
  · rintro ⟨pos, fits | ⟨x, found, hit⟩⟩
    · omega
    · have inside := (hit_iff_lt_front front found).mp hit
      omega

end Front

namespace Budget

/-! ### Grants that count -/

theorem request_limit (outside : τ → τ → Bool) (now : τ) (b : Budget τ) :
    (b.request outside now).2.limit = b.limit := by
  unfold request
  dsimp only
  split <;> rfl

variable [Preorder τ] {outside : τ → τ → Bool}

/-- As time goes on more lies outside the window, and what is earlier does so before what is later. -/
def Slides (outside : τ → τ → Bool) : Prop :=
  ∀ ⦃now later t earlier⦄, now ≤ later → earlier ≤ t → outside now t → outside later earlier

/-- The state of a budget at a time after some grants: it holds the last ones, and those it has dropped
lie outside the window. -/
structure Counts (outside : τ → τ → Bool) (now : τ) (granted : List τ) (b : Budget τ) : Prop where
  dropped : ∃ gone, granted = gone ++ b.held ∧ ∀ t ∈ gone, outside now t
  inOrder : granted.Pairwise (· ≤ ·)
  past : ∀ t ∈ granted, t ≤ now

/-- A budget that has granted nothing. -/
theorem counts_fresh (outside : τ → τ → Bool) (now : τ) (limit : Int) :
    Counts outside now [] { limit } :=
  ⟨⟨[], rfl, by simp⟩, List.Pairwise.nil, by simp⟩

namespace Counts

variable {now later : τ} {granted : List τ} {b : Budget τ}

/-- Only the first grants lie outside the window. -/
theorem front (h : Counts outside now granted b) (slides : Slides outside) (later : τ) :
    granted.Pairwise fun s t => outside later t → outside later s :=
  h.inOrder.imp fun le out => slides le_rfl le out

/-- What lies outside the window stays there. -/
theorem mono (h : Counts outside now granted b) (slides : Slides outside) (le : now ≤ later) :
    Counts outside later granted b := by
  obtain ⟨gone, split, out⟩ := h.dropped
  exact ⟨⟨gone, split, fun t mem => slides le le_rfl (out t mem)⟩, h.inOrder,
    fun t mem => (h.past t mem).trans le⟩

/-- What a budget holds when it is asked is what still lies in the window. -/
theorem prune_eq (h : Counts outside now granted b) (slides : Slides outside) (le : now ≤ later) :
    b.prune (outside later) = ⟨b.limit, granted.filter (!outside later ·)⟩ := by
  obtain ⟨gone, split, out⟩ := h.dropped
  have front := h.front slides later
  rw [split] at front ⊢
  have dropped : gone.filter (!outside later ·) = [] := by
    refine List.filter_eq_nil_iff.mpr fun t mem => ?_
    simpa using slides le le_rfl (out t mem)
  rw [List.filter_append, dropped, List.nil_append, prune,
    dropWhile_eq_filter (List.pairwise_append.mp front).2.1]

/-- A restart is granted if and only if fewer than the limit of those before lie in the window. -/
theorem request_eq (h : Counts outside now granted b) (slides : Slides outside) (le : now ≤ later) :
    b.request outside later =
      if ((granted.filter (!outside later ·)).length : Int) < b.limit then
        (true, ⟨b.limit, granted.filter (!outside later ·) ++ [later]⟩)
      else (false, ⟨b.limit, granted.filter (!outside later ·)⟩) := by
  unfold request
  rw [h.prune_eq slides le]
  dsimp only
  split
  · next full => rw [if_neg (by omega)]
  · next free => rw [if_pos (by omega)]

theorem request_fst (h : Counts outside now granted b) (slides : Slides outside) (le : now ≤ later) :
    (b.request outside later).1 ↔ ((granted.filter (!outside later ·)).length : Int) < b.limit := by
  rw [h.request_eq slides le]
  split
  · next free => exact iff_of_true rfl free
  · next full => exact iff_of_false Bool.false_ne_true full

/-- A grant counts from then on. -/
theorem request_snd (h : Counts outside now granted b) (slides : Slides outside) (le : now ≤ later)
    (grant : (b.request outside later).1) :
    Counts outside later (granted ++ [later]) (b.request outside later).2 := by
  have free := (h.request_fst slides le).mp grant
  have past : ∀ t ∈ granted, t ≤ later := fun t mem => (h.past t mem).trans le
  rw [h.request_eq slides le, if_pos free]
  refine ⟨⟨granted.takeWhile (outside later), ?_, fun t mem => List.mem_takeWhile_imp mem⟩, ?_, ?_⟩
  · dsimp only
    rw [← List.append_assoc, ← dropWhile_eq_filter (h.front slides later),
      List.takeWhile_append_dropWhile]
  · refine List.pairwise_append.mpr ⟨h.inOrder, List.pairwise_singleton _ _, ?_⟩
    intro t mem n new
    exact List.mem_singleton.mp new ▸ past t mem
  · intro t mem
    rcases List.mem_append.mp mem with mem | new
    · exact past t mem
    · exact le_of_eq (List.mem_singleton.mp new)

/-- So many grants back from the one that is asked for: a restart is granted if and only if the limit
allows any, and there are not as many grants, or else the one that many back lies outside the window. -/
theorem request_iff (h : Counts outside now granted b) (slides : Slides outside) (le : now ≤ later) :
    (b.request outside later).1 ↔ 1 ≤ b.limit ∧ (granted.length < b.limit ∨
      ∃ t, granted[granted.length - b.limit.toNat]? = some t ∧ outside later t) := by
  rw [h.request_fst slides le]
  exact length_misses_lt_iff (h.front slides later) b.limit

end Counts

end Budget

end Settler.Supervisor
