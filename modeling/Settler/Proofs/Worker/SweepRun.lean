import Settler.Proofs.Text.Occurrences
import Settler.Proofs.Worker.Solo
import Settler.Proofs.Worker.Sweep

/-!
What a whole sweep comes to.

A sweep is told one result after another, and goes on up to the first one that ends it. The invariant
is `Reached`: at its k-th pause the sweep has said the words for the first k results, and its progress
is that of the epochs paid so far, whatever failures came in between. So what it comes to depends on
the paid epochs alone, and not on their order (`Done`).
-/

namespace Settler

open Settler.Settlement

namespace Settlement.Outcome

variable {α : Type}

/-- The failure may be tried again. -/
def isRetryable : Outcome α → Bool
  | .retryable _ => true
  | _ => false

/-- There is no further record. -/
def isTerminal : Outcome α → Bool
  | .terminal _ => true
  | _ => false

/-- The sweep ends with it. -/
def isFinal : Outcome α → Bool
  | .terminal _ => true
  | .unexpected _ => true
  | _ => false

/-- A result that is not final is a payment, or a failure that may be tried again. -/
theorem of_not_final {result : Except Str α} (h : (ofPayment result).isFinal = false) :
    (∃ value, result = .ok value) ∨
      ∃ reason, result = .error reason ∧ paymentFailure reason = .retryable := by
  cases result with
  | ok value => exact .inl ⟨value, rfl⟩
  | error reason =>
    refine .inr ⟨reason, rfl, ?_⟩
    cases kind : paymentFailure reason with
    | retryable => rfl
    | _ =>
      rw [ofPayment, kind] at h
      cases h

/-- A final result is a refusal, for there is no further record or for an unexpected reason. -/
theorem of_final {result : Except Str α} (h : (ofPayment result).isFinal) :
    ∃ reason, result = .error reason ∧ (ofPayment result = .terminal reason ∨
      ofPayment result = .unexpected reason) := by
  cases result with
  | ok value => cases h
  | error reason =>
    refine ⟨reason, rfl, ?_⟩
    cases kind : paymentFailure reason with
    | retryable =>
      rw [ofPayment, kind] at h
      cases h
    | exhausted => exact .inl (by rw [ofPayment, kind])
    | _ => exact .inr (by rw [ofPayment, kind])

end Settlement.Outcome

namespace Sweep

variable {δ : Type}

/-- The epochs paid by the first `k` results. -/
def paid (results : Nat → Except Str Collection) (k : Nat) : List Collection :=
  (List.range k).filterMap fun i => (results i).toOption

/-- How many of the first `k` results are tried again. -/
def retried (results : Nat → Except Str Collection) (k : Nat) : Nat :=
  (List.range k).countP fun i => (Outcome.ofPayment (results i)).isRetryable

/-- The call that the `k`-th result is the answer to. -/
def call (genesis : Int) (results : Nat → Except Str Collection) (k : Nat) : Operation :=
  .payDebt (genesis + (paid results k).length)

/-- The words that the first `k` results are the answers to. -/
def words (genesis : Int) (results : Nat → Except Str Collection) (k : Nat) : List Outbound :=
  (List.range k).map fun i => .asked (call genesis results i)

variable [Seconds δ]

/-- The services give one result after another, the `n`-th of them is the first one that ends the
sweep, and every wait comes to its end: `clock k` is when the sweep has heard `k` results. -/
structure Told (services : Services δ) (delay : δ) (genesis : Int)
    (results : Nat → Except Str Collection) (n : Nat) (start : Instant)
    (clock : Nat → Instant) : Prop where
  settle : ∀ earlier op, (services.settle earlier op).outcome
    = .ok ((results earlier.length).map .batch)
  post : ∀ earlier sums, (services.post earlier sums).outcome = .ok ()
  goesOn : ∀ k < n, (Outcome.ofPayment (results k)).isFinal = false
  final : (Outcome.ofPayment (results n)).isFinal
  begins : clock 0 = start
  heard : ∀ k ≤ n, ((Solo.restFrom? (clock k) delay).bind fun t => Solo.awaitFrom? t
      (services.settle (words genesis results k).reverse (call genesis results k)).latency)
    = some (clock (k + 1))
  posted : (Outcome.ofPayment (results n)).isTerminal → (Solo.awaitFrom? (clock (n + 1))
    (services.post (words genesis results (n + 1)).reverse
      (Summary.of (paid results n))).latency).isSome

/-- What the sweep comes to. -/
structure Done (genesis : Int) (results : Nat → Except Str Collection) (n : Nat)
    (ended : Stop δ × Solo (Sweep δ)) : Prop where
  stop : ended.1 = .exited
    (if (Outcome.ofPayment (results n)).isTerminal then .normal else .faulted)
  sent : ended.2.sent.reverse = words genesis results (n + 1) ++
    if (Outcome.ofPayment (results n)).isTerminal
    then [.posted (Summary.of (paid results (n + 1)))] else []
  progress : ended.2.worker.progress = .of genesis (paid results (n + 1))
  retries : ended.2.worker.retries = retried results (n + 1)

/-- The sweep has heard `k` results, and all of them let it go on. -/
structure Reached (delay : δ) (genesis : Int) (results : Nat → Except Str Collection)
    (clock : Nat → Instant) (k : Nat) (s : Solo (Sweep δ)) : Prop where
  worker : s.worker = ⟨delay, .of genesis (paid results k), retried results k⟩
  clock : s.clock = clock k
  sent : s.sent = (words genesis results k).reverse

/-! ### One result more -/

omit [Seconds δ] in
theorem hear_retryable (s : Sweep δ) {reason : Str}
    (kind : paymentFailure reason = .retryable) :
    ∃ notes, s.hear (.error reason) = ⟨{ s with retries := s.retries + 1 }, notes, .pause s.delay⟩ := by
  simp only [hear, Outcome.ofPayment, kind]
  exact ⟨_, rfl⟩

omit [Seconds δ] in
theorem hear_terminal (s : Sweep δ) {reason : Str}
    (h : Outcome.ofPayment (.error reason : Except Str Collection) = .terminal reason) :
    ∃ notes, s.hear (.error reason) = ⟨s, notes, .post s.progress.summary⟩ := by
  cases kind : paymentFailure reason with
  | exhausted =>
    simp only [hear, Outcome.ofPayment, kind]
    exact ⟨_, rfl⟩
  | _ =>
    rw [Outcome.ofPayment, kind] at h
    cases h

omit [Seconds δ] in
theorem hear_unexpected (s : Sweep δ) {reason : Str}
    (h : Outcome.ofPayment (.error reason : Except Str Collection) = .unexpected reason) :
    ∃ notes, s.hear (.error reason) = ⟨s, notes, .exit .faulted⟩ := by
  simp only [hear]
  rw [show Outcome.ofPayment (.error reason : Answer) = .unexpected reason from ?_]
  · exact ⟨_, rfl⟩
  · cases kind : paymentFailure reason <;> simp_all [Outcome.ofPayment]

section

variable {genesis : Int} {results : Nat → Except Str Collection} {k : Nat}

theorem paid_succ_of_ok {c : Collection} (h : results k = .ok c) :
    paid results (k + 1) = paid results k ++ [c] := by
  simp [paid, List.range_succ, h, Except.toOption]

theorem paid_succ_of_error {reason : Str} (h : results k = .error reason) :
    paid results (k + 1) = paid results k := by
  simp [paid, List.range_succ, h, Except.toOption]

theorem retried_succ (results : Nat → Except Str Collection) (k : Nat) :
    retried results (k + 1)
      = retried results k + if (Outcome.ofPayment (results k)).isRetryable then 1 else 0 := by
  simp [retried, List.range_succ, List.countP_singleton]

theorem reverse_words_succ (genesis : Int) (results : Nat → Except Str Collection) (k : Nat) :
    (words genesis results (k + 1)).reverse
      = .asked (call genesis results k) :: (words genesis results k).reverse := by
  simp [words, List.range_succ]

theorem length_reverse_words (genesis : Int) (results : Nat → Except Str Collection) (k : Nat) :
    (words genesis results k).reverse.length = k := by
  simp [words]

end

section

variable {services : Services δ} {delay : δ} {genesis : Int}
  {results : Nat → Except Str Collection} {n k : Nat} {start : Instant} {clock : Nat → Instant}
  {s : Solo (Sweep δ)}

/-- After its k-th pause the sweep pays, and hears the k-th result. -/
theorem work_paid (told : Told services delay genesis results n start clock) (le : k ≤ n)
    (reached : Reached delay genesis results clock k s) (turns : Nat) :
    ∃ t s', Solo.restFrom? s.clock delay = some t ∧
      s'.clock = clock (k + 1) ∧ s'.sent = (words genesis results (k + 1)).reverse ∧
      ({ s with clock := t } : Solo (Sweep δ)).step services (turns + 1) = Solo.work services turns s'
        (s.worker.hear ((results k).map .batch)) := by
  obtain ⟨t, rests, comes⟩ := Option.bind_eq_some_iff.mp (told.heard k le)
  have outcome := told.settle s.sent (call genesis results k)
  have length : s.sent.length = k := by rw [reached.sent, length_reverse_words]
  rw [length] at outcome
  have asks : (Machine.resume s.worker .rested : Turn (Sweep δ) δ).next
      = .ask (call genesis results k) := by
    rw [reached.worker]
    rfl
  rw [← reached.sent] at comes
  rw [← reached.clock] at rests
  refine ⟨t, _, rests, ?_, ?_, Solo.work_ask services turns _ asks comes outcome⟩
  · rfl
  · rw [reverse_words_succ, reached.sent]

/-- A result that lets the sweep go on takes it to the next pause. -/
theorem step_goesOn (told : Told services delay genesis results n start clock) (lt : k < n)
    (reached : Reached delay genesis results clock k s) (turns : Nat) :
    ∃ t s', Solo.restFrom? s.clock delay = some t ∧
      ({ s with clock := t } : Solo (Sweep δ)).step services (turns + 2) = (.paused delay, s') ∧
      Reached delay genesis results clock (k + 1) s' := by
  obtain ⟨t, s', rests, clock', sent', steps⟩ :=
    work_paid told (Nat.le_of_lt lt) reached (turns + 1)
  have retries := retried_succ results k
  rcases Outcome.of_not_final (told.goesOn k lt) with ⟨c, result⟩ | ⟨reason, result, kind⟩
  · rw [result] at steps retries
    have next : (s.worker.hear (.ok (.batch c))).next = .pause delay := by
      rw [reached.worker]
      rfl
    refine ⟨t, _, rests, steps.trans (Solo.work_pause services turns s' next), ?_, clock', sent'⟩
    rw [reached.worker, retries, paid_succ_of_ok result, ← Progress.absorb_of]
    rfl
  · obtain ⟨notes, heard⟩ := hear_retryable s.worker kind
    have next : (s.worker.hear (.error reason)).next = .pause delay := by
      rw [heard, reached.worker]
    rw [result] at steps
    refine ⟨t, _, rests, steps.trans (Solo.work_pause services turns s' next), ?_, clock', sent'⟩
    rw [result, Outcome.ofPayment, kind] at retries
    rw [Except.map, heard, reached.worker, retries, paid_succ_of_error result]
    rfl

/-- The result that ends the sweep is the last one, and then the totals are posted if there is no
further record. -/
theorem step_final (told : Told services delay genesis results n start clock)
    (reached : Reached delay genesis results clock n s) (turns : Nat) :
    ∃ t e s', Solo.restFrom? s.clock delay = some t ∧
      ({ s with clock := t } : Solo (Sweep δ)).step services (turns + 3) = (.exited e, s') ∧
      Done genesis results n (.exited e, s') := by
  obtain ⟨t, s', rests, clock', sent', steps⟩ := work_paid told (Nat.le_refl n) reached (turns + 2)
  obtain ⟨reason, result, final⟩ := Outcome.of_final told.final
  have retries := retried_succ results n
  have paid' := paid_succ_of_error result
  rcases final with terminal | unexpected
  · obtain ⟨notes, heard⟩ := hear_terminal s.worker (result ▸ terminal)
    rw [result, Except.map, heard] at steps
    obtain ⟨t', comes⟩ := Option.isSome_iff_exists.mp (told.posted (by rw [terminal]; rfl))
    rw [← clock', ← sent'] at comes
    have next : (⟨s.worker, notes, .post s.worker.progress.summary⟩ : Turn (Sweep δ) δ).next
        = .post (Summary.of (paid results n)) := by
      rw [reached.worker, ← Progress.summary_of genesis]
    have posts := Solo.work_post services (turns + 1) s' next comes (told.post _ _)
    refine ⟨t, .normal, _, rests,
      steps.trans (posts.trans (Solo.work_exit services turns _ rfl)), ?_⟩
    rw [terminal] at retries
    refine ⟨by rw [terminal]; rfl, ?_, ?_, ?_⟩
    · rw [terminal, paid', reached.worker]
      show (Outbound.posted _ :: s'.sent).reverse = _
      rw [List.reverse_cons, sent', List.reverse_reverse]
      rfl
    · rw [paid']
      show s.worker.progress = _
      rw [reached.worker]
    · rw [retries]
      show s.worker.retries = _
      rw [reached.worker]
      rfl
  · obtain ⟨notes, heard⟩ := hear_unexpected s.worker (result ▸ unexpected)
    rw [result, Except.map, heard] at steps
    refine ⟨t, .faulted, _, rests, steps.trans (Solo.work_exit services (turns + 1) s' rfl), ?_⟩
    rw [unexpected] at retries
    refine ⟨by rw [unexpected]; rfl, ?_, ?_, ?_⟩
    · rw [unexpected]
      show s'.sent.reverse = _
      rw [sent', List.reverse_reverse]
      exact (List.append_nil _).symm
    · rw [paid', reached.worker]
    · rw [retries, reached.worker]
      rfl

/-! ### The whole run -/

/-- From its k-th pause the sweep comes to its end. -/
theorem go_reached (told : Told services delay genesis results n start clock) (turns : Nat) {left : Nat}
    (hleft : k + left = n) (reached : Reached delay genesis results clock k s) {rests : Nat}
    (enough : left + 2 ≤ rests) :
    Done genesis results n (Solo.go services (turns + 3) rests (.paused delay, s)) := by
  -- by the number of results that are left before the last one
  induction left generalizing k s rests with
  | zero =>
    obtain rfl : k = n := hleft
    obtain ⟨rests, rfl⟩ := Nat.exists_eq_add_of_le' enough
    obtain ⟨t, e, s', ends, steps, done⟩ := step_final told reached turns
    rw [Solo.go_paused services _ s ends, steps]
    exact done
  | succ left ih =>
    cases rests with
    | zero => omega
    | succ rests =>
      obtain ⟨t, s', ends, steps, reached'⟩ := step_goesOn told (by omega) reached (turns + 1)
      rw [Solo.go_paused services _ s ends, steps]
      exact ih (by omega) reached' (by omega)

/-- A told sweep comes to its end. -/
theorem done_run (told : Told services delay genesis results n start clock) {turns rests : Nat}
    (long : 3 ≤ turns) (often : n + 2 ≤ rests) :
    Done genesis results n
      (Solo.run services turns rests ⟨Sweep.fresh genesis delay, start, [], []⟩) := by
  obtain ⟨turns, rfl⟩ := Nat.exists_eq_add_of_le' long
  have begins := Solo.work_pause services (turns + 2) ⟨Sweep.fresh genesis delay, start, [], []⟩
    (rfl : (Machine.begin (Sweep.fresh genesis delay) : Turn (Sweep δ) δ).next = .pause delay)
  have reached : Reached delay genesis results clock 0
      ⟨Sweep.fresh genesis delay, start, [],
        (Machine.begin (Sweep.fresh genesis delay) : Turn (Sweep δ) δ).notes⟩ := by
    refine ⟨?_, told.begins.symm, rfl⟩
    show Sweep.fresh genesis delay = ⟨delay, .of genesis [], 0⟩
    rw [Progress.of_nil]
    rfl
  rw [Solo.run, begins]
  exact go_reached told turns (Nat.zero_add n) reached often

/-- The sweep makes one call for each result up to the one that ends it, and comes to what the epochs
paid by then amount to. Two sweeps that are paid the same epochs' results, in whatever order and with
whatever failures in between, come to the same totals. -/
theorem run_told (told : Told services delay genesis results n start clock) {turns rests : Nat}
    (long : 3 ≤ turns) (often : n + 2 ≤ rests) :
    let ended := Solo.run services turns rests ⟨Sweep.fresh genesis delay, start, [], []⟩
    Done genesis results n ended ∧
      ∀ {services' : Services δ} {delay' : δ} {genesis' : Int}
        {results' : Nat → Except Str Collection} {n' : Nat} {start' : Instant}
        {clock' : Nat → Instant}, Told services' delay' genesis' results' n' start' clock' →
        (paid results' (n' + 1)).Perm (paid results (n + 1)) → ∀ rests', n' + 2 ≤ rests' →
        (Solo.run services' turns rests'
            ⟨Sweep.fresh genesis' delay', start', [], []⟩).2.worker.progress.summary
          = ended.2.worker.progress.summary := by
  intro ended
  have done : Done genesis results n ended := done_run told long often
  refine ⟨done, ?_⟩
  intro services' delay' genesis' results' n' start' clock' told' perm rests' often'
  rw [(done_run told' long often').progress, done.progress, Progress.summary_of,
    Progress.summary_of, Summary.of_perm perm]

end

/-! ### Services that tell -/

/-- Services that answer at once, with one result after another. -/
def telling (results : Nat → Except Str Collection) : Services Micros where
  settle earlier _ := .now (.ok ((results earlier.length).map .batch))
  post _ _ := .now (.ok ())

/-- They tell a sweep with pauses of a length whatever results there are, up to one that ends it. -/
theorem told_telling {results : Nat → Except Str Collection} {n : Nat}
    (goesOn : ∀ k < n, (Outcome.ofPayment (results k)).isFinal = false)
    (final : (Outcome.ofPayment (results n)).isFinal) (length : Nat) (genesis : Int) :
    Told (telling results) (⟨(length + 1 : Nat)⟩ : Micros) genesis results n 0
      fun k => k * (length + 1) where
  settle _ _ := rfl
  post _ _ := rfl
  goesOn := goesOn
  final := final
  begins := Nat.zero_mul _
  heard := by
    intro k _
    show (Solo.restFrom? (k * (length + 1)) (⟨(length + 1 : Nat)⟩ : Micros)).bind some = _
    have pause : Seconds.takesTime (⟨(length + 1 : Nat)⟩ : Micros) = true :=
      decide_eq_true (Int.natCast_pos.mpr (Nat.succ_pos length))
    rw [Solo.restFrom?, if_pos pause, Nat.succ_mul]
    rfl
  posted := fun _ => rfl

theorem ofPayment_transientText :
    Outcome.ofPayment (.error transientText : Except Str Collection)
      = .retryable transientText := by
  rw [Outcome.ofPayment, paymentFailure, if_pos (Str.contains_ofString.mpr List.infix_rfl)]

theorem ofPayment_exhausted :
    Outcome.ofPayment (.error "Failed to fetch record" : Except Str Collection)
      = .terminal "Failed to fetch record" := by
  have kind : paymentFailure "Failed to fetch record" = .exhausted := by decide +kernel
  rw [Outcome.ofPayment, kind]

/-- Two epochs are paid, with a failure in between that may be tried again. -/
def sampleResults : Nat → Except Str Collection
  | 0 => .ok ⟨10, 8, 1, 4⟩
  | 1 => .error transientText
  | 2 => .ok ⟨5, 5, 0, 3⟩
  | _ => .error "Failed to fetch record"

/-- The same in another order, with the failure first. -/
def shuffledResults : Nat → Except Str Collection
  | 0 => .error transientText
  | 1 => .ok ⟨5, 5, 0, 3⟩
  | 2 => .ok ⟨10, 8, 1, 4⟩
  | _ => .error "Failed to fetch record"

/-- The first sweep pays its two epochs and posts the totals, and the second comes to the same. -/
theorem run_told_shuffled :
    Done 31 sampleResults 3
        (Solo.run (telling sampleResults) 3 5 ⟨Sweep.fresh 31 ⟨10⟩, 0, [], []⟩) ∧
      (Solo.run (telling shuffledResults) 3 5
          ⟨Sweep.fresh 7 ⟨10⟩, 0, [], []⟩).2.worker.progress.summary
        = (Solo.run (telling sampleResults) 3 5
          ⟨Sweep.fresh 31 ⟨10⟩, 0, [], []⟩).2.worker.progress.summary := by
  have final := congrArg Outcome.isFinal ofPayment_exhausted
  have goesOn : ∀ k < 3, (Outcome.ofPayment (sampleResults k)).isFinal = false := by
    intro k hk
    rcases k with _ | _ | _ | k
    · rfl
    · exact congrArg Outcome.isFinal ofPayment_transientText
    · rfl
    · omega
  have goesOn' : ∀ k < 3, (Outcome.ofPayment (shuffledResults k)).isFinal = false := by
    intro k hk
    rcases k with _ | _ | _ | k
    · exact congrArg Outcome.isFinal ofPayment_transientText
    · rfl
    · rfl
    · omega
  have told : Told (telling sampleResults) ⟨10⟩ 31 sampleResults 3 0 (· * 10) :=
    told_telling goesOn final 9 31
  have told' : Told (telling shuffledResults) ⟨10⟩ 7 shuffledResults 3 0 (· * 10) :=
    told_telling goesOn' final 9 7
  have shuffled : (paid shuffledResults (3 + 1)).Perm (paid sampleResults (3 + 1)) := by
    decide +kernel
  obtain ⟨done, same⟩ := run_told told (Nat.le_refl 3) (Nat.le_refl 5)
  exact ⟨done, same told' shuffled 5 (Nat.le_refl 5)⟩

end Sweep

end Settler
