import Settler.Proofs.Worker.Senders

/-!
The talk of a calculator.

A run says a prefix of `plan`, and it goes past a word only if the reply to it `passes`. The
invariant of a talk is its `Course`: it is either at some word of the plan, all words before which
passed, or over.
-/

namespace Settler

open Settler.Settlement

namespace Calculator

variable {δ : Type}

/-- The words of a run that comes to its end, given the epoch that it finalizes. -/
def plan (t : Int) : List Operation :=
  [.currentEpoch, .calculateDistribution t false, .calculateDistribution t false,
   .calculateDistribution t true, .finalizeDistribution t]

/-- The reply lets a run for an epoch go on: the epoch is the one before the live one, or it was
calculated. -/
def passes (t : Int) (x : Exchange) : Prop :=
  match x.sent with
  | .asked .currentEpoch => x.reply = some (.ok (.answered (.ok (.epoch (t + 1))))) ∧ 1 ≤ t + 1
  | _ => ∃ p, x.reply = some (.ok (.answered (.ok p)))

/-- The exchanges of a run for an epoch, which may have stopped anywhere. -/
structure Run (t : Int) (xs : List Exchange) : Prop where
  words : xs.map (·.sent) <+: (plan t).map .asked
  passed : ∀ x ∈ xs.dropLast, passes t x

/-- A turn before which a run said so many words of its plan. -/
inductive Stage (t : Int) : Nat → Turn (Worker δ) δ → Prop where
  | resolving {notes : List Note} :
      Stage t 0 ⟨.calculator .resolving, notes, .ask .currentEpoch⟩
  | calculating {k : Nat} {notes : List Note} (few : k < 3) :
      Stage t (k + 1)
        ⟨.calculator (.calculating ⟨t, k⟩), notes, .ask (.calculateDistribution t (k = 2))⟩
  | finalizing {notes : List Note} :
      Stage t 4 ⟨.calculator (.finalizing ⟨t, 3⟩), notes, .ask (.finalizeDistribution t)⟩

/-- How far a talk has come: to a word of the plan, or to its end. -/
inductive Course (xs : List Exchange) (u : Turn (Worker δ) δ) : Prop where
  | going {t : Int} {k : Nat} (stage : Stage t k u)
      (words : xs.map (·.sent) = ((plan t).take k).map .asked) (passed : ∀ x ∈ xs, passes t x)
  | ended {t : Int} (stop : u.isOver) (run : Run t xs)

/-! ### Stages -/

/-- The turn says the next word of the plan. -/
theorem Stage.word {t : Int} {k : Nat} {u : Turn (Worker δ) δ} (h : Stage t k u) :
    ∃ op, (plan t)[k]? = some op ∧ u.next = .ask op := by
  cases h with
  | resolving => exact ⟨_, rfl, rfl⟩
  | @calculating k notes few =>
    refine ⟨_, ?_, rfl⟩
    rcases k with _ | _ | _ | k
    · rfl
    · rfl
    · rfl
    · omega
  | finalizing => exact ⟨_, rfl, rfl⟩

/-- With so many calculations behind it, a run goes on to the next stage. -/
theorem stage_proceed (t : Int) {k : Nat} (most : k ≤ 3) (notes : List Note) :
    Stage (δ := δ) t (k + 1) ((proceed ⟨t, k⟩ notes).map .calculator) := by
  rcases k with _ | _ | _ | _ | k
  · exact .calculating (by omega)
  · exact .calculating (by omega)
  · exact .calculating (by omega)
  · exact .finalizing
  · omega

/-- A reply takes a run to the next stage, and then it passes, or to its end. Only the first reply
settles which epoch the run is for. -/
theorem Stage.resume {t : Int} {k : Nat} {u : Turn (Worker δ) δ} (h : Stage t k u) (i : Instance)
    {o : Outbound} (wants : u.next.outbound? = some o) {r : Reply} (fits : o.admits r) :
    (∃ t', (k = 0 ∨ t' = t) ∧ Stage t' (k + 1) (Machine.resume u.worker r) ∧
        passes t' ⟨i, o, some (.ok r)⟩) ∨
      (Machine.resume u.worker r).isOver := by
  cases h with
  | resolving =>
    cases wants
    cases r with
    | answered a =>
      show (∃ t', _ ∧ Stage t' 1 ((resolve a).map .calculator) ∧ _) ∨
        ((resolve a).map Worker.calculator).isOver
      unfold resolve
      split
      · exact .inr ⟨rfl, rfl⟩
      · next n =>
        split
        · exact .inr ⟨rfl, rfl⟩
        · next closed =>
          refine .inl ⟨n - 1, .inl rfl, stage_proceed (n - 1) (Nat.zero_le 3) [], ?_⟩
          simp only [passes]
          exact ⟨by rw [Int.sub_add_cancel], by omega⟩
      · exact .inr ⟨rfl, rfl⟩
    | rested => cases fits
    | posted => cases fits
  | @calculating k notes few =>
    cases wants
    cases r with
    | answered a =>
      cases a with
      | error reason => exact .inr ⟨rfl, rfl⟩
      | ok p => exact .inl ⟨t, .inr rfl, stage_proceed t few _, ⟨p, rfl⟩⟩
    | rested => cases fits
    | posted => cases fits
  | finalizing =>
    cases wants
    cases r with
    | answered a =>
      cases a with
      | error reason => exact .inr ⟨rfl, rfl⟩
      | ok p => exact .inr ⟨rfl, rfl⟩
    | rested => cases fits
    | posted => cases fits

/-! ### Courses -/

/-- One more word of the plan, with whatever reply, is still a run. -/
theorem run_of_stage {t : Int} {k : Nat} {u : Turn (Worker δ) δ} (stage : Stage t k u)
    {xs : List Exchange} (words : xs.map (·.sent) = ((plan t).take k).map .asked)
    (passed : ∀ x ∈ xs, passes t x) {x : Exchange} (wants : u.next.outbound? = some x.sent) :
    (xs ++ [x]).map (·.sent) = ((plan t).take (k + 1)).map .asked ∧ Run t (xs ++ [x]) := by
  obtain ⟨op, at_k, next⟩ := stage.word
  have said : x.sent = .asked op := by
    rw [next] at wants
    exact (Option.some.inj wants).symm
  have more : (xs ++ [x]).map (·.sent) = ((plan t).take (k + 1)).map .asked := by
    rw [List.take_add_one, at_k, List.map_append, words, List.map_append, List.map_singleton, said]
    rfl
  refine ⟨more, ?_, ?_⟩
  · rw [more]
    exact (List.take_prefix _ _).map _
  · rw [List.dropLast_concat]
    exact passed

theorem Course.of_talk {i : Instance} {xs : List Exchange} {u : Turn (Worker δ) δ}
    (h : Talk i (Machine.begin (Worker.calculator .resolving)) xs u) : Course xs u := by
  induction h with
  | begin => exact .going (t := 0) .resolving rfl (by simp)
  | @rested xs u talk rest ih =>
    cases ih with
    | going stage words passed =>
      obtain ⟨op, -, next⟩ := stage.word
      rw [next] at rest
      cases rest
    | ended stop _ => exact absurd rest stop.not_rest
  | @replied xs u o r talk wants fits ih =>
    cases ih with
    | @going t k stage words passed =>
      obtain ⟨more, run⟩ := run_of_stage stage words passed (x := ⟨i, o, some (.ok r)⟩) wants
      rcases stage.resume i wants fits with ⟨t', same, stage', pass⟩ | stop
      · rcases same with rfl | rfl
        · obtain rfl : xs = [] := List.map_eq_nil_iff.mp (words.trans (by rfl))
          refine .going stage' ?_ (by simpa using pass)
          -- the first word does not depend on the epoch
          exact more
        · refine .going stage' more ?_
          intro x hx
          rcases List.mem_append.mp hx with hx | hx
          · exact passed x hx
          · obtain rfl := List.mem_singleton.mp hx
            exact pass
      · exact .ended stop run
    | ended stop _ => exact absurd wants (stop.not_word o)

/-- The exchanges of a calculator are those of a run for some epoch. -/
theorem run_of_conversation {i : Instance} {xs : List Exchange}
    (h : Conversation (δ := δ) i (Machine.begin (Worker.calculator .resolving)) xs) :
    ∃ t, Run t xs := by
  cases h with
  | whole talk =>
    cases Course.of_talk talk with
    | @going t k stage words passed =>
      refine ⟨t, ?_, fun x hx => passed x ((List.dropLast_sublist xs).subset hx)⟩
      rw [words]
      exact (List.take_prefix _ _).map _
    | @ended t _ run => exact ⟨t, run⟩
  | @cut ys u o reply talk wants _ split =>
    cases Course.of_talk talk with
    | @going t k stage words passed =>
      rw [split]
      exact ⟨t, (run_of_stage stage words passed wants).2⟩
    | ended stop _ => exact absurd wants (stop.not_word o)

/-- In a run, an epoch is finalized only after three calculations of it passed, the last of them
announced, and after it was the one before the live epoch. -/
theorem Run.finalized {t t' : Int} {before after : List Exchange} {x : Exchange}
    (h : Run t (before ++ x :: after)) (sent : x.sent = .asked (.finalizeDistribution t')) :
    t' = t ∧ after = [] ∧ before.map (·.sent) = ((plan t).take 4).map .asked ∧
      ∀ y ∈ before, passes t y := by
  obtain ⟨rest, whole⟩ := h.words
  have passed : ∀ y ∈ before, passes t y := by
    intro y hy
    apply h.passed
    rw [List.dropLast_append_of_ne_nil (List.cons_ne_nil x after)]
    exact List.mem_append_left _ hy
  -- the plan holds the word in its last place only
  rcases before with _ | ⟨a, _ | ⟨b, _ | ⟨c, _ | ⟨d, _ | ⟨e, before⟩⟩⟩⟩⟩ <;>
    simp [plan, sent] at whole
  obtain ⟨ha, hb, hc, hd, rfl, rfl, -⟩ := whole
  exact ⟨rfl, rfl, by simp [plan, ha, hb, hc, hd], passed⟩

end Calculator

end Settler
