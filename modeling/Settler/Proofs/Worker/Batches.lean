import Settler.Proofs.Settlement.Collections
import Settler.Proofs.Worker.Solo
import Settler.Proofs.Worker.Sweep

/-!
What moves a sweep.

A sweep behind HTTP goes on by one epoch when a validated batch arrives, and by nothing else
(`progress_step_ne_iff`). So its books are those of the batches that the far side sent, and along a run the
epoch and the totals never go back (`progress_moves`).
-/

namespace Settler

open Settler.Settlement Settler.Http

variable {δ : Type} [Seconds δ]

namespace Progress

/-- The second progress is the first one or beyond it: of the same sweep, and nothing has gone back. -/
structure UpTo (p q : Progress) : Prop where
  genesis : q.genesis = p.genesis
  epoch : p.epoch ≤ q.epoch
  totalDebt : p.totalDebt ≤ q.totalDebt
  totalPaid : p.totalPaid ≤ q.totalPaid
  insufficientFunds : p.insufficientFunds ≤ q.insufficientFunds

theorem UpTo.refl (p : Progress) : p.UpTo p :=
  ⟨rfl, Int.le_refl _, Nat.le_refl _, Nat.le_refl _, Nat.le_refl _⟩

theorem UpTo.trans {p q r : Progress} (h : p.UpTo q) (h' : q.UpTo r) : p.UpTo r :=
  ⟨h'.genesis.trans h.genesis, Int.le_trans h.epoch h'.epoch, Nat.le_trans h.totalDebt h'.totalDebt,
    Nat.le_trans h.totalPaid h'.totalPaid, Nat.le_trans h.insufficientFunds h'.insufficientFunds⟩

theorem upTo_absorb (p : Progress) (c : Collection) : p.UpTo (p.absorb c) :=
  ⟨rfl, Int.le_of_lt (Int.lt_succ p.epoch), Nat.le_add_right _ _, Nat.le_add_right _ _,
    Nat.le_add_right _ _⟩

theorem absorb_ne (p : Progress) (c : Collection) : p.absorb c ≠ p := by
  intro same
  have epoch : p.epoch + 1 = p.epoch := congrArg Progress.epoch same
  omega

end Progress

/-! ### One step -/

namespace Solo

variable {ω : Type} [Machine ω δ]

/-- While its answer does not come the worker stays as it is. -/
theorem worker_work_unanswered (services : Services δ) (fuel : Nat) (s : Solo ω) {turn : Turn ω δ}
    {op : Operation} (next : turn.next = .ask op)
    (unanswered : awaitFrom? s.clock (services.settle s.sent op).latency = none ∨
      ∃ f, (services.settle s.sent op).outcome = .error f) :
    (work services (fuel + 1) s turn).2.worker = turn.worker := by
  rw [work, next]
  simp only [hear, await_eq]
  rcases unanswered with never | ⟨f, fault⟩
  · rw [never]
    rfl
  · cases awaitFrom? s.clock (services.settle s.sent op).latency with
    | none => rfl
    | some t =>
      rw [fault]
      rfl

end Solo

namespace Sweep

omit [Seconds δ] in
/-- A sweep that has rested pays the debt of its present epoch. -/
theorem next_rested (s : Sweep δ) :
    (Machine.resume s .rested : Turn (Sweep δ) δ).next = .ask (.payDebt s.progress.epoch) := rfl

omit [Seconds δ] in
/-- What is no batch leaves the progress as it is, and nothing more is asked at once. -/
theorem hear_cases (s : Sweep δ) (a : Answer) : (∃ c, a = .ok (.batch c)) ∨
    (s.hear a).worker.progress = s.progress ∧ ∀ op, (s.hear a).next ≠ .ask op := by
  cases a with
  | ok p =>
    cases p with
    | batch c => exact .inl ⟨c, rfl⟩
    | _ =>
      refine .inr ⟨rfl, fun op asks => ?_⟩
      cases asks
  | error reason =>
    right
    cases kind : paymentFailure reason <;> simp [hear, Outcome.ofPayment, kind]

/-- A sweep that asks nothing more is at the next pause or at its end what it was before the turn or after
it: posting its totals does not change it. -/
theorem worker_work (services : Services δ) (fuel : Nat) (s : Solo (Sweep δ)) {turn : Turn (Sweep δ) δ}
    (quiet : ∀ op, turn.next ≠ .ask op) :
    (Solo.work services fuel s turn).2.worker = s.worker ∨
      (Solo.work services fuel s turn).2.worker = turn.worker := by
  induction fuel generalizing s turn with
  | zero => exact .inl rfl
  | succ fuel ih =>
    right
    rw [Solo.work]
    cases next : turn.next with
    | ask op => exact absurd next (quiet op)
    | post sums =>
      simp only [Solo.hear, Solo.await_eq]
      cases Solo.awaitFrom? s.clock (services.post s.sent sums).latency with
      | none => rfl
      | some t =>
        cases (services.post s.sent sums).outcome with
        | error f => rfl
        | ok posted =>
          have silent : ∀ op, (Machine.resume turn.worker .posted : Turn (Sweep δ) δ).next ≠ .ask op := by
            intro op asks
            cases asks
          have ends := ih ⟨turn.worker, t, .posted sums :: s.sent,
            s.notes ++ turn.notes ++ (services.post s.sent sums).notes⟩ silent
          exact ends.elim id id
    | _ => rfl

/-- Its progress is as it was if the turn left it. -/
theorem progress_work (services : Services δ) (fuel : Nat) (s : Solo (Sweep δ)) {turn : Turn (Sweep δ) δ}
    (keeps : turn.worker.progress = s.worker.progress) (quiet : ∀ op, turn.next ≠ .ask op) :
    (Solo.work services fuel s turn).2.worker.progress = s.worker.progress := by
  rcases worker_work services fuel s quiet with same | turned
  · rw [same]
  · rw [turned, keeps]

end Sweep

namespace Remote

/-- The request for the payment that a sweep makes next. -/
def paying (remote : Remote δ) (s : Solo (Sweep δ)) : Request :=
  remote.wire.request (.payDebt s.worker.progress.epoch)

/-- What comes of it. -/
def payment (remote : Remote δ) (s : Solo (Sweep δ)) : Pending δ Response :=
  remote.exchange (s.sent.filterMap remote.request?) (remote.paying s)

/-- The payment that a sweep makes next comes to a response that the library hands over and that is a
validated batch. -/
structure Pays (remote : Remote δ) (s : Solo (Sweep δ)) (c : Collection) : Prop where
  comes : (Solo.awaitFrom? s.clock (remote.payment s).latency).isSome
  response : ∃ sent r, (remote.payment s).outcome = .ok sent ∧
    remote.library.receive (remote.paying s) sent = .ok r ∧ Carries r.content c

/-- A plain response is a validated batch exactly if its own bytes are one. -/
theorem pays_plain_iff {remote : Remote δ} (lawful : remote.library.Lawful) {s : Solo (Sweep δ)}
    {sent : Response} (outcome : (remote.payment s).outcome = .ok sent) (plain : sent.IsPlain)
    (c : Collection) : remote.Pays s c ↔
      (Solo.awaitFrom? s.clock (remote.payment s).latency).isSome ∧ Carries sent.body c := by
  obtain ⟨refusal, received⟩ := lawful.plain (remote.paying s) sent plain
  constructor
  · rintro ⟨comes, sent', r, outcome', received', carries⟩
    cases outcome.symm.trans outcome'
    cases received.symm.trans received'
    exact ⟨comes, carries⟩
  · rintro ⟨comes, carries⟩
    exact ⟨comes, sent, _, outcome, received, carries⟩

end Remote

namespace Sweep

/-- A validated batch moves the sweep by what it says. -/
theorem progress_step_paid (remote : Remote δ) (s : Solo (Sweep δ)) (turns : Nat) {c : Collection}
    (paid : remote.Pays s c) :
    (s.step remote.services (turns + 2)).2.worker.progress = s.worker.progress.absorb c := by
  obtain ⟨sent, r, outcome, received, carries⟩ := paid.response
  obtain ⟨t, comes⟩ := Option.isSome_iff_exists.mp paid.comes
  have answered : (remote.services.settle s.sent (.payDebt s.worker.progress.epoch)).outcome
      = .ok (.ok (.batch c)) :=
    settle_payDebt_iff.mpr ⟨sent, r, c, outcome, received, carries, rfl⟩
  rw [Solo.step, Solo.work_ask remote.services (turns + 1) s s.worker.next_rested comes answered,
    Solo.work_pause _ _ _ rfl]
  rfl

/-- Anything else does not. -/
theorem progress_step_unpaid (remote : Remote δ) (s : Solo (Sweep δ)) (turns : Nat)
    (unpaid : ¬ ∃ c, remote.Pays s c) :
    (s.step remote.services (turns + 2)).2.worker.progress = s.worker.progress := by
  rw [Solo.step]
  cases comes : Solo.awaitFrom? s.clock (remote.payment s).latency with
  | none =>
    exact congrArg Sweep.progress (Solo.worker_work_unanswered remote.services (turns + 1) s
      s.worker.next_rested (.inl comes))
  | some t =>
    cases outcome : (remote.services.settle s.sent (.payDebt s.worker.progress.epoch)).outcome with
    | error f =>
      exact congrArg Sweep.progress (Solo.worker_work_unanswered remote.services (turns + 1) s
        s.worker.next_rested (.inr ⟨f, outcome⟩))
    | ok a =>
      rw [Solo.work_ask remote.services (turns + 1) s s.worker.next_rested comes outcome]
      rcases s.worker.hear_cases a with ⟨c, rfl⟩ | ⟨keeps, quiet⟩
      · obtain ⟨sent, r, c', came, received, carries, same⟩ := settle_payDebt_iff.mp outcome
        exact absurd ⟨c', by rw [comes]; rfl, sent, r, came, received, carries⟩ unpaid
      · exact progress_work remote.services (turns + 1) _ keeps quiet

/-- A step changes the progress exactly if a validated batch is handed over. -/
theorem progress_step_ne_iff (remote : Remote δ) (s : Solo (Sweep δ)) (turns : Nat) :
    (s.step remote.services (turns + 2)).2.worker.progress ≠ s.worker.progress ↔
      ∃ c, remote.Pays s c := by
  constructor
  · intro moved
    by_contra unpaid
    exact moved (progress_step_unpaid remote s turns unpaid)
  · rintro ⟨c, paid⟩
    rw [progress_step_paid remote s turns paid]
    exact Progress.absorb_ne _ c

/-! ### Whole runs -/

/-- What every step keeps, every stretch of a run keeps. -/
theorem go_keeps {P : Progress → Prop} {services : Services δ} {turns : Nat}
    (step : ∀ s : Solo (Sweep δ), P s.worker.progress →
      P (s.step services turns).2.worker.progress)
    (rests : Nat) (ended : Stop δ × Solo (Sweep δ)) (h : P ended.2.worker.progress) :
    P (Solo.go services turns rests ended).2.worker.progress := by
  induction rests generalizing ended with
  | zero => exact h
  | succ rests ih =>
    obtain ⟨stop, s⟩ := ended
    cases stop with
    | paused span =>
      rw [Solo.go, Solo.rest_eq]
      cases Solo.restFrom? s.clock span with
      | none => exact h
      | some t => exact ih _ (step { s with clock := t } h)
    | _ => exact h

/-- A longer run goes on from where a shorter one stopped. -/
theorem go_upTo {services : Services δ} {turns : Nat}
    (step : ∀ s : Solo (Sweep δ), s.worker.progress.UpTo (s.step services turns).2.worker.progress)
    (rests more : Nat) (ended : Stop δ × Solo (Sweep δ)) :
    (Solo.go services turns rests ended).2.worker.progress.UpTo
      (Solo.go services turns (rests + more) ended).2.worker.progress := by
  induction rests generalizing ended with
  | zero =>
    have start : (Solo.go services turns 0 ended).2.worker.progress = ended.2.worker.progress := rfl
    rw [start]
    exact go_keeps (P := ended.2.worker.progress.UpTo) (fun s h => h.trans (step s)) _ _ (.refl _)
  | succ rests ih =>
    obtain ⟨stop, s⟩ := ended
    rw [Nat.succ_add]
    cases stop with
    | paused span =>
      rw [Solo.go, Solo.go, Solo.rest_eq]
      cases Solo.restFrom? s.clock span with
      | none => exact .refl _
      | some t => exact ih _
    | _ => exact .refl _

/-- The far side sends a validated batch as an answer to some request. -/
def Sent (remote : Remote δ) (c : Collection) : Prop :=
  ∃ earlier request sent r, (remote.exchange earlier request).outcome = .ok sent ∧
    remote.library.receive request sent = .ok r ∧ Carries r.content c

theorem sent_of_pays {remote : Remote δ} {s : Solo (Sweep δ)} {c : Collection}
    (pays : remote.Pays s c) : Sent remote c := by
  obtain ⟨sent, r, outcome, received, carries⟩ := pays.response
  exact ⟨_, _, sent, r, outcome, received, carries⟩

/-- No step goes back. -/
theorem progress_step_upTo (remote : Remote δ) (turns : Nat) (s : Solo (Sweep δ)) :
    s.worker.progress.UpTo (s.step remote.services (turns + 2)).2.worker.progress := by
  by_cases paid : ∃ c, remote.Pays s c
  · obtain ⟨c, paid⟩ := paid
    rw [progress_step_paid remote s turns paid]
    exact Progress.upTo_absorb _ c
  · rw [progress_step_unpaid remote s turns paid]
    exact .refl _

/-- A step keeps the books: the totals are those of validated batches. -/
theorem progress_step_of {genesis : Int} (remote : Remote δ) (s : Solo (Sweep δ)) (turns : Nat)
    {paid : List Collection} (sent : ∀ c ∈ paid, Sent remote c)
    (books : s.worker.progress = .of genesis paid) :
    ∃ paid, (∀ c ∈ paid, Sent remote c) ∧
      (s.step remote.services (turns + 2)).2.worker.progress = .of genesis paid := by
  by_cases pays : ∃ c, remote.Pays s c
  · obtain ⟨c, pays⟩ := pays
    have last : ∀ c' ∈ [c], Sent remote c' := List.forall_mem_singleton.mpr (sent_of_pays pays)
    refine ⟨paid ++ [c], List.forall_mem_append.mpr ⟨sent, last⟩, ?_⟩
    rw [progress_step_paid remote s turns pays, books, Progress.absorb_of]
  · exact ⟨paid, sent, by rw [progress_step_unpaid remote s turns pays, books]⟩

/-- The first turn of a run is a pause. -/
theorem progress_begin (services : Services δ) (turns : Nat) (s : Solo (Sweep δ)) :
    (Solo.work services turns s (Machine.begin s.worker)).2.worker.progress = s.worker.progress :=
  progress_work services turns s rfl fun op asks => by cases asks

/-- A step of a sweep behind HTTP changes its epoch or its totals exactly if the payment comes to a
response that is handed over and is a validated batch, and then the epoch grows by one and each total by what
the batch says. Of a plain response its own bytes decide. So along a run the totals are those of validated
batches, the epoch is not below the genesis epoch, and neither ever goes back. -/
theorem progress_moves (remote : Remote δ) :
    (∀ (s : Solo (Sweep δ)) (turns : Nat),
      ((s.step remote.services (turns + 2)).2.worker.progress ≠ s.worker.progress ↔
        ∃ c, remote.Pays s c) ∧
      ∀ c, remote.Pays s c → (s.step remote.services (turns + 2)).2.worker.progress =
        { genesis := s.worker.progress.genesis
          epoch := s.worker.progress.epoch + 1
          totalDebt := s.worker.progress.totalDebt + c.totalDebt
          totalPaid := s.worker.progress.totalPaid + c.totalPaid
          insufficientFunds := s.worker.progress.insufficientFunds + c.insufficientFunds }) ∧
    (remote.library.Lawful → ∀ (s : Solo (Sweep δ)) (sent : Response),
      (remote.payment s).outcome = .ok sent → sent.IsPlain → ∀ c, remote.Pays s c ↔
        (Solo.awaitFrom? s.clock (remote.payment s).latency).isSome ∧ Carries sent.body c) ∧
    ∀ (genesis : Int) (delay : δ) (start : Instant) (turns rests : Nat),
      let after (rests : Nat) : Progress := (Solo.run remote.services (turns + 2) rests
        ⟨Sweep.fresh genesis delay, start, [], []⟩).2.worker.progress
      (∃ paid, (∀ c ∈ paid, Sent remote c) ∧ after rests = .of genesis paid) ∧
        genesis ≤ (after rests).epoch ∧ ∀ more, (after rests).UpTo (after (rests + more)) := by
  refine ⟨fun s turns => ⟨progress_step_ne_iff remote s turns,
    fun c paid => progress_step_paid remote s turns paid⟩,
    fun lawful s sent outcome plain => Remote.pays_plain_iff lawful outcome plain, ?_⟩
  intro genesis delay start turns rests after
  have begins := progress_begin remote.services (turns + 2)
    (⟨Sweep.fresh genesis delay, start, [], []⟩ : Solo (Sweep δ))
  have books : ∃ paid, (∀ c ∈ paid, Sent remote c) ∧ after rests = .of genesis paid := by
    refine go_keeps (P := fun p => ∃ paid, (∀ c ∈ paid, Sent remote c) ∧ p = .of genesis paid) ?_ rests
      _ ⟨[], List.forall_mem_nil _, by rw [begins, Progress.of_nil]; rfl⟩
    rintro s ⟨_, sent, books⟩
    exact progress_step_of remote s turns sent books
  refine ⟨books, ?_, fun more => go_upTo (progress_step_upTo remote turns) rests more _⟩
  obtain ⟨paid, -, counted⟩ := books
  rw [counted]
  exact Int.le_add_of_nonneg_right (Int.natCast_nonneg _)

/-! ### Responses that carry a batch -/

/-- The body of a response that accepts a payment, with a batch. -/
def acceptance : List UInt8 := Script.bytes
  "\x7b\"ok\":true,\"result\":\x7b\"total_debt\":5,\"total_paid\":4,\"insufficient_funds_count\":1\x7d\x7d"

/-- The response with it. -/
def accepting : Response := { status := 200, body := acceptance }

/-- The same as an answer that sends the client to an address with a port that is no number. -/
def misdirecting : Response := astray acceptance

/-- A far side that gives every request the same response. -/
def repeating (r : Response) : Remote Micros where
  library := .standard {}
  wire := .rehearsed
  webhook := ⟨"https://hooks.test/sweeps"⟩
  exchange _ _ := .now (.ok r)

/-- The batch that an answer holds, if it does. -/
def batchOf? : Except Fault Answer → Option Collection
  | .ok (.ok (.batch c)) => some c
  | _ => none

theorem eq_of_batchOf? {outcome : Except Fault Answer} {c : Collection} (h : batchOf? outcome = some c) :
    outcome = .ok (.ok (.batch c)) := by
  unfold batchOf? at h
  split at h
  · cases h
    rfl
  · cases h

theorem carries_acceptance : Carries acceptance ⟨5, 4, 1, 0⟩ := by
  have read : batchOf? (Wire.conclude (.payDebt 31) (.ok ⟨200, acceptance, .ok "", ""⟩)).1
      = some ⟨5, 4, 1, 0⟩ := by decide +kernel
  obtain ⟨r, result, came, accepts, given⟩ := Wire.accepts_of_conclude (eq_of_batchOf? read)
  obtain ⟨c, valid, same⟩ := Wire.payload_payDebt_iff.mp given
  cases came
  cases same
  exact carries_iff.mpr ⟨result, accepts, valid⟩

/-- The batch moves a fresh sweep to the next epoch. -/
theorem progress_moves_accepting :
    (repeating accepting).library.Lawful ∧ accepting.IsPlain ∧
      (repeating accepting).Pays { worker := Sweep.fresh 31 ⟨0⟩ } ⟨5, 4, 1, 0⟩ ∧
      (({ worker := Sweep.fresh 31 ⟨0⟩ } : Solo (Sweep Micros)).step
        (repeating accepting).services 2).2.worker.progress = ⟨31, 32, 5, 4, 1⟩ := by
  have lawful : (repeating accepting).library.Lawful := Library.lawful_standard Library.Lookups.lawful_default
  have plain : accepting.IsPlain := ⟨.inl rfl, rfl, nofun⟩
  obtain ⟨steps, plainly, -⟩ := progress_moves (repeating accepting)
  have pays : (repeating accepting).Pays { worker := Sweep.fresh 31 ⟨0⟩ } ⟨5, 4, 1, 0⟩ :=
    (plainly lawful _ accepting rfl plain _).mpr ⟨rfl, carries_acceptance⟩
  exact ⟨lawful, plain, pays, (steps { worker := Sweep.fresh 31 ⟨0⟩ } 0).2 _ pays⟩

/-- The same body does not, if the response sends the client to an address that is none: the exchange is
broken then, whatever the body says. -/
theorem misdirecting_unmoved :
    Carries misdirecting.body ⟨5, 4, 1, 0⟩ ∧
      ((repeating misdirecting).payment { worker := Sweep.fresh 31 ⟨0⟩ }).outcome = .ok misdirecting ∧
      (({ worker := Sweep.fresh 31 ⟨0⟩ } : Solo (Sweep Micros)).step
        (repeating misdirecting).services 2).2.worker.progress = ⟨31, 31, 0, 0, 0⟩ := by
  refine ⟨carries_acceptance, rfl, ?_⟩
  refine progress_step_unpaid (repeating misdirecting) { worker := Sweep.fresh 31 ⟨0⟩ } 0 ?_
  rintro ⟨c, pays⟩
  obtain ⟨sent, r, outcome, received, -⟩ := pays.response
  cases outcome
  cases (receive_astray _ acceptance).symm.trans received

end Sweep

end Settler
