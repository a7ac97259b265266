import Settler.Proofs.Journal.Exchange

/-!
The talk of one worker with its services.

`Talk` is what a worker may say, turn by turn, given any replies: from its first turn it comes to a
later one, and everything that it sent out on the way has had its reply. A `Conversation` is a talk
that may have been cut off at its last word, by a fault or because no reply ever came. What holds
of every conversation of a worker holds of each of its instances, whoever runs them.
-/

namespace Settler

variable {ω δ : Type}

/-- What is sent out to get what is wanted. -/
def Next.outbound? : Next δ → Option Outbound
  | .ask op => some (.asked op)
  | .post s => some (.posted s)
  | _ => none

/-- Nothing but time is wanted. -/
def Next.isRest : Next δ → Bool
  | .pause _ => true
  | .hold => true
  | _ => false

/-- A turn after which there is no other: nothing is sent out, and nothing waited for. -/
def Turn.isOver (t : Turn ω δ) : Prop := t.next.outbound? = none ∧ t.next.isRest = false

theorem Turn.isOver.not_rest {t : Turn ω δ} (h : t.isOver) : ¬ t.next.isRest := by
  rw [h.2]
  exact Bool.false_ne_true

theorem Turn.isOver.not_word {t : Turn ω δ} (h : t.isOver) (o : Outbound) :
    t.next.outbound? ≠ some o := by
  rw [h.1]
  exact Option.some_ne_none o |>.symm

/-- The replies that can come to what was sent out. -/
def Outbound.admits : Outbound → Reply → Bool
  | .asked _, .answered _ => true
  | .posted _, .posted => true
  | _, _ => false

/-- If every value of an outcome is turned into a fitting reply, so is the one that came. -/
theorem Outbound.admits_of_map {α : Type} {o : Outbound} {reply : α → Reply} {r : Reply}
    (fits : ∀ a, o.admits (reply a)) {outcome : Except Fault α} (h : outcome.map reply = .ok r) :
    o.admits r := by
  cases outcome with
  | error f => cases h
  | ok a =>
    cases h
    exact fits a

/-- A reply came in, and it was no fault. -/
def Exchange.isAnswered (x : Exchange) : Prop := ∃ r, x.reply = some (.ok r)

variable [Machine ω δ]

/-- From its first turn a worker may come to another turn, and these were its exchanges. -/
inductive Talk (i : Instance) (first : Turn ω δ) : List Exchange → Turn ω δ → Prop where
  | begin : Talk i first [] first
  | rested {xs : List Exchange} {t : Turn ω δ} (talk : Talk i first xs t)
      (rest : t.next.isRest) : Talk i first xs (Machine.resume t.worker .rested)
  | replied {xs : List Exchange} {t : Turn ω δ} {o : Outbound} {r : Reply}
      (talk : Talk i first xs t) (wants : t.next.outbound? = some o) (fits : o.admits r) :
      Talk i first (xs ++ [⟨i, o, some (.ok r)⟩]) (Machine.resume t.worker r)

/-- The exchanges of a worker so far; the last of them may be open, or may have ended in a fault. -/
inductive Conversation (i : Instance) (first : Turn ω δ) (xs : List Exchange) : Prop where
  | whole {t : Turn ω δ} (talk : Talk i first xs t)
  | cut {ys : List Exchange} {t : Turn ω δ} {o : Outbound} {reply : Option (Except Fault Reply)}
      (talk : Talk i first ys t) (wants : t.next.outbound? = some o)
      (unanswered : ¬ Exchange.isAnswered ⟨i, o, reply⟩) (split : xs = ys ++ [⟨i, o, reply⟩])

namespace Talk

variable {i : Instance} {first t : Turn ω δ} {xs : List Exchange}

theorem isAnswered (h : Talk i first xs t) : ∀ x ∈ xs, x.isAnswered := by
  induction h with
  | begin => simp
  | rested _ _ ih => exact ih
  | @replied xs t o r _ _ _ ih =>
    intro x hx
    rcases List.mem_append.mp hx with hx | hx
    · exact ih x hx
    · obtain rfl := List.mem_singleton.mp hx
      exact ⟨r, rfl⟩

/-- Everything in a talk has its reply, so an outcome is heard by what comes after it. -/
theorem map_hear (h : Talk i first xs t) (k : Instance) (outcome : Except Fault Reply) :
    xs.map (·.hear k outcome) = xs := by
  calc
    xs.map (·.hear k outcome) = xs.map id := by
      apply List.map_congr_left
      intro x hx
      obtain ⟨r, hr⟩ := h.isAnswered x hx
      exact Exchange.hear_of_reply (by simp [hr])
    _ = xs := List.map_id xs

/-- The last word of a talk gets its outcome. -/
theorem map_hear_open (h : Talk i first xs t) (o : Outbound) (outcome : Except Fault Reply) :
    (xs ++ [(⟨i, o, none⟩ : Exchange)]).map (·.hear i outcome) = xs ++ [⟨i, o, some outcome⟩] := by
  rw [List.map_append, h.map_hear]
  simp [Exchange.hear]

/-- A talk with an open last word is a conversation. -/
theorem opened (h : Talk i first xs t) {o : Outbound} (wants : t.next.outbound? = some o) :
    Conversation i first (xs ++ [⟨i, o, none⟩]) :=
  .cut h wants (by rintro ⟨r, hr⟩; cases hr) rfl

/-- A talk whose last word came to a fault is a conversation. -/
theorem failed (h : Talk i first xs t) {o : Outbound} (wants : t.next.outbound? = some o)
    (f : Fault) : Conversation i first (xs ++ [⟨i, o, some (.error f)⟩]) :=
  .cut h wants (by rintro ⟨r, hr⟩; cases hr) rfl

end Talk

end Settler
