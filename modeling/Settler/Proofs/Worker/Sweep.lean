import Mathlib.Algebra.Ring.Nat
import Settler.Proofs.Worker.Senders

/-!
The talk of a sweep.

A run pays from the genesis epoch on (`Pays`): for the next epoch after a payment, for the same one
after a failure that may be tried again, and for no other after anything else. It posts at most once,
at its end and after the service said that there is no further record, and what it posts are the
totals of the run's own payments. The invariant of a talk is its `Course`.
-/

namespace Settler

open Settler.Settlement

/-! ### Totals -/

/-- The sums over paid epochs. -/
def Summary.of (paid : List Collection) : Summary :=
  let sum (count : Collection → Nat) : Nat := (paid.map count).sum
  ⟨sum (·.insufficientFunds), sum (·.totalDebt), sum (·.totalPaid)⟩

/-- The order of the epochs does not count. -/
theorem Summary.of_perm {paid paid' : List Collection} (h : paid.Perm paid') :
    Summary.of paid = Summary.of paid' := by
  simp only [of, (h.map _).sum_nat]

namespace Progress

/-- The progress of a sweep that paid these epochs. -/
def of (genesis : Int) (paid : List Collection) : Progress where
  genesis
  epoch := genesis + paid.length
  totalDebt := (paid.map (·.totalDebt)).sum
  totalPaid := (paid.map (·.totalPaid)).sum
  insufficientFunds := (paid.map (·.insufficientFunds)).sum

theorem of_nil (genesis : Int) : of genesis [] = startingAt genesis := by
  simp [of, startingAt]

theorem absorb_of (genesis : Int) (paid : List Collection) (c : Collection) :
    (of genesis paid).absorb c = of genesis (paid ++ [c]) := by
  simp [of, absorb, Int.add_assoc]

theorem summary_of (genesis : Int) (paid : List Collection) :
    (of genesis paid).summary = Summary.of paid := rfl

end Progress

namespace Sweep

variable {δ : Type}

/-! ### Payments -/

/-- What a payment came to, if the service made it. -/
def batch? (x : Exchange) : Option Collection :=
  match x.reply with
  | some (.ok (.answered (.ok (.batch c)))) => some c
  | _ => none

/-- The epochs that were paid. -/
def batches (xs : List Exchange) : List Collection := xs.filterMap batch?

/-- The totals of the epochs that were paid. -/
def totals (xs : List Exchange) : Summary := .of (batches xs)

/-- The service refused for a reason of a kind. -/
def isRefused (x : Exchange) (kind : FailureKind) : Prop :=
  ∃ reason, x.reply = some (.ok (.answered (.error reason))) ∧ paymentFailure reason = kind

/-- The reply to a payment for one epoch lets a sweep go on to a payment for another. -/
inductive GoesOn (x : Exchange) (epoch : Int) : Int → Prop where
  | paid {c : Collection} (made : batch? x = some c) : GoesOn x epoch (epoch + 1)
  | again (transient : isRefused x .retryable) : GoesOn x epoch epoch

/-- Payments in order, the first of them for the given epoch; the last may have come to anything. -/
def Pays : Int → List Exchange → Prop
  | _, [] => True
  | epoch, x :: rest => x.sent = .asked (.payDebt epoch) ∧
      (rest = [] ∨ ∃ next, GoesOn x epoch next ∧ Pays next rest)

/-- Payments in order, all of which let the sweep go on, and the next epoch to pay for. -/
def PaysTo : Int → List Exchange → Int → Prop
  | epoch, [], last => epoch = last
  | epoch, x :: rest, last => x.sent = .asked (.payDebt epoch) ∧
      ∃ next, GoesOn x epoch next ∧ PaysTo next rest last

/-- The exchanges of a run, which may have stopped anywhere. -/
inductive Run (genesis : Int) : List Exchange → Prop where
  | unposted {payments : List Exchange} (pays : Pays genesis payments) : Run genesis payments
  | posted {payments : List Exchange} {last post : Exchange}
      (pays : Pays genesis (payments ++ [last])) (exhausted : isRefused last .exhausted)
      (sums : post.sent = .posted (totals (payments ++ [last]))) :
      Run genesis (payments ++ [last] ++ [post])

theorem PaysTo.pays {xs : List Exchange} {epoch last : Int} (h : PaysTo epoch xs last) :
    Pays epoch xs := by
  induction xs generalizing epoch with
  | nil => trivial
  | cons x rest ih =>
    obtain ⟨sent, next, goesOn, rest⟩ := h
    exact ⟨sent, .inr ⟨next, goesOn, ih rest⟩⟩

/-- One more payment, with whatever reply. -/
theorem PaysTo.pays_concat {xs : List Exchange} {epoch last : Int} (h : PaysTo epoch xs last)
    {x : Exchange} (sent : x.sent = .asked (.payDebt last)) : Pays epoch (xs ++ [x]) := by
  induction xs generalizing epoch with
  | nil =>
    obtain rfl : epoch = last := h
    exact ⟨sent, .inl rfl⟩
  | cons y rest ih =>
    obtain ⟨sent', next, goesOn, rest⟩ := h
    exact ⟨sent', .inr ⟨next, goesOn, ih rest⟩⟩

/-- One more payment that lets the sweep go on. -/
theorem PaysTo.concat {xs : List Exchange} {epoch last next : Int} (h : PaysTo epoch xs last)
    {x : Exchange} (sent : x.sent = .asked (.payDebt last)) (goesOn : GoesOn x last next) :
    PaysTo epoch (xs ++ [x]) next := by
  induction xs generalizing epoch with
  | nil =>
    obtain rfl : epoch = last := h
    exact ⟨sent, next, goesOn, rfl⟩
  | cons y rest ih =>
    obtain ⟨sent', next', goesOn', rest⟩ := h
    exact ⟨sent', next', goesOn', ih rest⟩

theorem batches_concat_of_some {xs : List Exchange} {x : Exchange} {c : Collection}
    (made : batch? x = some c) : batches (xs ++ [x]) = batches xs ++ [c] := by
  simp [batches, made]

theorem batches_concat_of_none {xs : List Exchange} {x : Exchange} (unpaid : batch? x = none) :
    batches (xs ++ [x]) = batches xs := by
  simp [batches, unpaid]

/-! ### Courses -/

/-- How far a talk has come: to a rest, a payment or a post of a sweep that has kept its books, or to
its end. -/
inductive Course (genesis : Int) (xs : List Exchange) (u : Turn (Worker δ) δ) : Prop where
  | resting {s : Sweep δ} (worker : u.worker = .sweep s) (next : u.next = .pause s.delay)
      (pays : PaysTo genesis xs s.progress.epoch) (books : s.progress = .of genesis (batches xs))
  | paying {s : Sweep δ} (worker : u.worker = .sweep s)
      (next : u.next = .ask (.payDebt s.progress.epoch))
      (pays : PaysTo genesis xs s.progress.epoch) (books : s.progress = .of genesis (batches xs))
  | posting {s : Sweep δ} {payments : List Exchange} {last : Exchange}
      (worker : u.worker = .sweep s) (next : u.next = .post s.progress.summary)
      (parts : xs = payments ++ [last]) (pays : Pays genesis xs)
      (exhausted : isRefused last .exhausted) (books : s.progress = .of genesis (batches xs))
  | ended (stop : u.isOver) (run : Run genesis xs)

/-- The answer to a payment takes the sweep on its course. -/
theorem course_hear {genesis : Int} {xs : List Exchange} {s : Sweep δ}
    (pays : PaysTo genesis xs s.progress.epoch) (books : s.progress = .of genesis (batches xs))
    (i : Instance) (a : Answer) :
    Course genesis (xs ++ [⟨i, .asked (.payDebt s.progress.epoch), some (.ok (.answered a))⟩])
      ((s.hear a).map Worker.sweep) := by
  have run : ∀ reply, Pays genesis (xs ++ [⟨i, .asked (.payDebt s.progress.epoch), reply⟩]) :=
    fun reply => pays.pays_concat rfl
  cases a with
  | ok p =>
    cases p with
    | batch c =>
      refine .resting rfl rfl (pays.concat rfl (.paid rfl)) ?_
      rw [batches_concat_of_some rfl, ← Progress.absorb_of, ← books]
      rfl
    | _ => exact .ended ⟨rfl, rfl⟩ (.unposted (run _))
  | error reason =>
    have refused : ∀ {kind}, paymentFailure reason = kind →
        isRefused ⟨i, .asked (.payDebt s.progress.epoch), some (.ok (.answered (.error reason)))⟩
          kind := fun h => ⟨reason, rfl, h⟩
    have books' : s.progress = .of genesis (batches
        (xs ++ [⟨i, .asked (.payDebt s.progress.epoch), some (.ok (.answered (.error reason)))⟩])) := by
      rw [batches_concat_of_none rfl]
      exact books
    cases kind : paymentFailure reason with
    | retryable =>
      simp only [hear, Outcome.ofPayment, kind]
      exact .resting rfl rfl (pays.concat rfl (.again (refused kind))) books'
    | exhausted =>
      simp only [hear, Outcome.ofPayment, kind]
      exact .posting rfl rfl rfl (run _) (refused kind) books'
    | unexpected =>
      simp only [hear, Outcome.ofPayment, kind]
      exact .ended ⟨rfl, rfl⟩ (.unposted (run _))
    | noop =>
      simp only [hear, Outcome.ofPayment, kind]
      exact .ended ⟨rfl, rfl⟩ (.unposted (run _))

/-- Books that are kept say what is to be posted. -/
theorem posted_of_books {genesis : Int} {xs : List Exchange} {p : Progress}
    (books : p = .of genesis (batches xs)) : Outbound.posted p.summary = .posted (totals xs) := by
  rw [books, Progress.summary_of, totals]

theorem Course.of_talk {i : Instance} {genesis : Int} {delay : δ} {xs : List Exchange}
    {u : Turn (Worker δ) δ}
    (h : Talk i (Machine.begin (Worker.sweep (.fresh genesis delay))) xs u) :
    Course genesis xs u := by
  induction h with
  | begin => exact .resting rfl rfl rfl (Progress.of_nil genesis).symm
  | @rested xs u talk rest ih =>
    cases ih with
    | resting worker next pays books =>
      rw [worker]
      exact .paying rfl rfl pays books
    | paying worker next pays books =>
      rw [next] at rest
      cases rest
    | posting worker next parts pays exhausted books =>
      rw [next] at rest
      cases rest
    | ended stop _ => exact absurd rest stop.not_rest
  | @replied xs u o r talk wants fits ih =>
    cases ih with
    | resting worker next pays books =>
      rw [next] at wants
      cases wants
    | paying worker next pays books =>
      rw [next] at wants
      cases wants
      rw [worker]
      cases r with
      | answered a => exact course_hear pays books i a
      | rested => cases fits
      | posted => cases fits
    | posting worker next parts pays exhausted books =>
      rw [next] at wants
      cases wants
      rw [worker]
      subst parts
      have run : Run genesis (_ ++ [⟨i, .posted _, some (.ok r)⟩]) :=
        .posted pays exhausted (posted_of_books books)
      cases r with
      | posted => exact .ended ⟨rfl, rfl⟩ run
      | rested => cases fits
      | answered a => cases fits
    | ended stop _ => exact absurd wants (stop.not_word _)

/-- The exchanges of a sweep are those of a run. -/
theorem run_of_conversation {i : Instance} {genesis : Int} {delay : δ} {xs : List Exchange}
    (h : Conversation i (Machine.begin (Worker.sweep (.fresh genesis delay))) xs) :
    Run genesis xs := by
  cases h with
  | whole talk =>
    cases Course.of_talk talk with
    | resting worker next pays books => exact .unposted pays.pays
    | paying worker next pays books => exact .unposted pays.pays
    | posting worker next parts pays exhausted books => exact .unposted pays
    | ended _ run => exact run
  | cut talk wants unanswered split =>
    rw [split]
    cases Course.of_talk talk with
    | resting worker next pays books =>
      rw [next] at wants
      cases wants
    | paying worker next pays books =>
      rw [next] at wants
      cases wants
      exact .unposted (pays.pays_concat rfl)
    | posting worker next parts pays exhausted books =>
      rw [next] at wants
      cases wants
      subst parts
      exact .posted pays exhausted (posted_of_books books)
    | ended stop _ => exact absurd wants (stop.not_word _)

end Sweep

end Settler
