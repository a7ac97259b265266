import Settler.Proofs.Worker.Talk
import Settler.Worker.Basic

/-!
Who sends what.

Every word that goes out belongs to one kind of worker (`Outbound.sender`), and no worker ever says
a word of another kind, whatever it hears.
-/

namespace Settler

variable {ω δ : Type}

/-- The name of the workers that a word belongs to. -/
def Outbound.sender : Outbound → String
  | .asked (.payDebt _) => Sweep.name
  | .asked .initializeDistribution => Initializer.name
  | .asked (.calculateDistribution _ _) => Calculator.name
  | .asked (.finalizeDistribution _) => Calculator.name
  | .asked .currentEpoch => Calculator.name
  | .asked .collectAllDebt => Collector.name
  | .posted _ => Sweep.name

section

variable [Machine ω δ] {i : Instance} {first : Turn ω δ} {xs : List Exchange} {P : Turn ω δ → Prop}

/-- What every reply keeps holds of every turn that a talk comes to. -/
theorem Talk.keeps {t : Turn ω δ} (h : Talk i first xs t) (begun : P first)
    (resumed : ∀ u r, P u → P (Machine.resume u.worker r)) : P t := by
  induction h with
  | begin => exact begun
  | rested _ _ ih => exact resumed _ _ ih
  | replied _ _ _ ih => exact resumed _ _ ih

/-- What holds of the words of all such turns holds of every word of a talk. -/
theorem Talk.sent {t : Turn ω δ} (h : Talk i first xs t) (begun : P first)
    (resumed : ∀ u r, P u → P (Machine.resume u.worker r)) {Q : Outbound → Prop}
    (said : ∀ u o, P u → u.next.outbound? = some o → Q o) : ∀ x ∈ xs, Q x.sent := by
  induction h with
  | begin => simp
  | rested _ _ ih => exact ih
  | replied talk wants _ ih =>
    intro x hx
    rcases List.mem_append.mp hx with hx | hx
    · exact ih x hx
    · obtain rfl := List.mem_singleton.mp hx
      exact said _ _ (talk.keeps begun resumed) wants

/-- `Talk.sent` for conversations. -/
theorem Conversation.sent (h : Conversation i first xs) (begun : P first)
    (resumed : ∀ u r, P u → P (Machine.resume u.worker r)) {Q : Outbound → Prop}
    (said : ∀ u o, P u → u.next.outbound? = some o → Q o) : ∀ x ∈ xs, Q x.sent := by
  cases h with
  | whole talk => exact talk.sent begun resumed said
  | cut talk wants _ split =>
    rw [split]
    intro x hx
    rcases List.mem_append.mp hx with hx | hx
    · exact talk.sent begun resumed said x hx
    · obtain rfl := List.mem_singleton.mp hx
      exact said _ _ (talk.keeps begun resumed) wants

/-- A worker that has one word, and is done with whatever comes of it, says nothing more. -/
theorem Talk.once {t : Turn ω δ} (h : Talk i first xs t) {o : Outbound}
    (word : first.next.outbound? = some o)
    (last : ∀ r, o.admits r → (Machine.resume first.worker r).isOver) :
    xs = [] ∧ t = first ∨ xs.map (·.sent) = [o] ∧ t.isOver := by
  induction h with
  | begin => exact .inl ⟨rfl, rfl⟩
  | rested talk rest ih =>
    rcases ih with ⟨-, rfl⟩ | ⟨-, done⟩
    · unfold Next.isRest at rest
      split at rest
      · next next =>
        rw [next] at word
        cases word
      · next next =>
        rw [next] at word
        cases word
      · cases rest
    · exact absurd rest done.not_rest
  | replied talk wants fits ih =>
    rcases ih with ⟨rfl, rfl⟩ | ⟨-, done⟩
    · cases word.symm.trans wants
      exact .inr ⟨rfl, last _ fits⟩
    · exact absurd wants (done.not_word _)

/-- `Talk.once` for conversations that have begun. -/
theorem Conversation.once (h : Conversation i first xs) {o : Outbound}
    (word : first.next.outbound? = some o)
    (last : ∀ r, o.admits r → (Machine.resume first.worker r).isOver) (said : xs ≠ []) :
    xs.map (·.sent) = [o] := by
  cases h with
  | whole talk =>
    rcases talk.once word last with ⟨none, -⟩ | ⟨one, -⟩
    · exact absurd none said
    · exact one
  | @cut ys t o' reply talk wants unanswered split =>
    rcases talk.once word last with ⟨rfl, rfl⟩ | ⟨-, done⟩
    · cases word.symm.trans wants
      rw [split]
      rfl
    · exact absurd wants (done.not_word _)

end

/-! ### One kind of worker -/

namespace Worker

/-- A turn of a worker of a name, which says nothing but words of its own. -/
structure Minding (name : String) (t : Turn (Worker δ) δ) : Prop where
  worker : t.worker.name = name
  words : ∀ o, t.next.outbound? = some o → o.sender = name

/-- A turn that says nothing minds any name that its worker has. -/
theorem minding_of_silent {name : String} {t : Turn (Worker δ) δ} (worker : t.worker.name = name)
    (silent : t.next.outbound? = none) : Minding name t := by
  refine ⟨worker, ?_⟩
  intro o said
  rw [silent] at said
  cases said

/-- A turn that says one word of its own kind. -/
theorem minding_of_word {name : String} {t : Turn (Worker δ) δ} {o : Outbound}
    (worker : t.worker.name = name) (word : t.next.outbound? = some o) (own : o.sender = name) :
    Minding name t := by
  refine ⟨worker, ?_⟩
  intro o' said
  rw [word] at said
  cases said
  exact own

theorem minding_begin (w : Worker δ) : Minding w.name (Machine.begin w) := by
  cases w with
  | sweep s => exact minding_of_silent rfl rfl
  | initializer w => exact minding_of_word rfl rfl rfl
  | calculator c => exact minding_of_word rfl rfl rfl
  | collector w => exact minding_of_word rfl rfl rfl
  | blank => exact minding_of_silent rfl rfl

theorem minding_proceed (c : Calculation) (notes : List Note) :
    Minding (δ := δ) Calculator.name ((Calculator.proceed c notes).map .calculator) := by
  unfold Calculator.proceed
  split
  · exact minding_of_word rfl rfl rfl
  · exact minding_of_word rfl rfl rfl

theorem minding_resume (w : Worker δ) (r : Reply) : Minding w.name (Machine.resume w r) := by
  cases w with
  | sweep s =>
    cases r with
    | rested => exact minding_of_word rfl rfl rfl
    | answered a =>
      show Minding Sweep.name ((s.hear a).map .sweep)
      unfold Sweep.hear
      dsimp only
      split
      · exact minding_of_silent rfl rfl
      · exact minding_of_silent rfl rfl
      · exact minding_of_silent rfl rfl
      · exact minding_of_word rfl rfl rfl
      · exact minding_of_silent rfl rfl
    | posted => exact minding_of_silent rfl rfl
  | initializer w =>
    show Minding Initializer.name ((w.resume r).map .initializer)
    unfold Initializer.resume
    split <;> exact minding_of_silent rfl rfl
  | calculator c =>
    show Minding Calculator.name ((c.resume r).map .calculator)
    unfold Calculator.resume
    split
    · unfold Calculator.resolve
      split
      · exact minding_of_silent rfl rfl
      · split
        · exact minding_of_silent rfl rfl
        · exact minding_proceed _ _
      · exact minding_of_silent rfl rfl
    · unfold Calculator.calculated
      split
      · exact minding_of_silent rfl rfl
      · exact minding_proceed _ _
    · unfold Calculator.finalized
      split <;> exact minding_of_silent rfl rfl
    · exact minding_of_silent rfl rfl
  | collector w =>
    show Minding Collector.name ((w.resume r).map .collector)
    unfold Collector.resume
    split <;> exact minding_of_silent rfl rfl
  | blank => exact minding_of_silent rfl rfl

/-- Every turn that a worker comes to minds its name. -/
theorem minding_of_talk {w : Worker δ} {i : Instance} {xs : List Exchange} {t : Turn (Worker δ) δ}
    (h : Talk i (Machine.begin w) xs t) : Minding w.name t :=
  h.keeps (minding_begin w) fun u r minding => minding.worker ▸ minding_resume u.worker r

/-- A worker says nothing but words of its own. -/
theorem sender_of_conversation {w : Worker δ} {i : Instance} {xs : List Exchange}
    (h : Conversation i (Machine.begin w) xs) : ∀ x ∈ xs, x.sent.sender = w.name := by
  refine h.sent (P := Minding w.name) (Q := fun o => o.sender = w.name) (minding_begin w) ?_ ?_
  · intro u r minding
    exact minding.worker ▸ minding_resume u.worker r
  · intro u o minding said
    exact minding.words o said

end Worker

end Settler
