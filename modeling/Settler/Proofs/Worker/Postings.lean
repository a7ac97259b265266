import Settler.Proofs.Summary.Delivery
import Settler.Proofs.Supervisor.Course
import Settler.Proofs.Worker.Malformed
import Settler.Proofs.Worker.Refusals

/-!
What posting its totals has a sweep come to.

A sweep at the end of the records posts its totals and ends as done, whether they are delivered or not. Only
a fault that comes out of the post (`Remote.Escapes`) has it end otherwise; then its supervisor takes it for
crashed, and may begin the sweep once more.
-/

namespace Settler

open Settlement Http

variable {δ : Type}

namespace Remote

/-- What the far sides have for a request, after what went out before. -/
def after (remote : Remote δ) (earlier : List Outbound) : Request → Pending δ Response :=
  remote.exchange (earlier.filterMap remote.request?)

/-- The faults that come out of posting totals. -/
def Escapes (remote : Remote δ) (earlier : List Outbound) (sums : Summary) : Fault → Prop :=
  Webhook.Escapes remote.library remote.webhook (remote.after earlier) sums

theorem post_eq (remote : Remote δ) (earlier : List Outbound) (sums : Summary) :
    remote.services.post earlier sums
      = remote.webhook.postSummary remote.library (remote.after earlier) sums := by
  rw [services, after]

theorem posts_post (remote : Remote δ) (lawful : remote.library.Lawful) (earlier : List Outbound)
    (sums : Summary) : Webhook.Posts remote.library remote.webhook (remote.after earlier) sums
      (remote.services.post earlier sums) := by
  rw [post_eq]
  exact Webhook.posts_postSummary lawful remote.webhook (remote.after earlier) sums

theorem post_returns (remote : Remote δ) (earlier : List Outbound) (sums : Summary) :
    (remote.services.post earlier sums).outcome = .ok () ↔ ∀ f, ¬ remote.Escapes earlier sums f := by
  rw [post_eq]
  exact Webhook.postSummary_returns

theorem post_fails (remote : Remote δ) (earlier : List Outbound) (sums : Summary) (f : Fault) :
    (remote.services.post earlier sums).outcome = .error f ↔ remote.Escapes earlier sums f := by
  rw [post_eq]
  exact Webhook.postSummary_fails

/-- A sweep whose last word was to post its totals ends as done, unless a fault comes out of that. -/
def Parts (remote : Remote δ) (ended : Stop δ × Solo (Sweep δ)) : Prop :=
  ∀ sums earlier, ended.2.sent = .posted sums :: earlier → ended.1 ≠ .stuck →
    (ended.1 = .exited .normal ↔ ∀ f, ¬ remote.Escapes earlier sums f) ∧
      ∀ f, ended.1 = .failed f ↔ remote.Escapes earlier sums f

theorem parts_stuck (remote : Remote δ) {ended : Stop δ × Solo (Sweep δ)} (stuck : ended.1 = .stuck) :
    remote.Parts ended :=
  fun _ _ _ goes => absurd stuck goes

theorem parts_of_silent (remote : Remote δ) {ended : Stop δ × Solo (Sweep δ)}
    (silent : ∀ sums earlier, ended.2.sent ≠ .posted sums :: earlier) : remote.Parts ended :=
  fun sums earlier sent _ => absurd sent (silent sums earlier)

end Remote

namespace Sweep

variable [Seconds δ] (remote : Remote δ)

/-! ### One step -/

/-- A sweep that wants its totals posted ends with it. -/
theorem parts_post (fuel : Nat) (s : Solo (Sweep δ)) {turn : Turn (Sweep δ) δ} {sums : Summary}
    (next : turn.next = .post sums) : remote.Parts (Solo.work remote.services (fuel + 1) s turn) := by
  rw [Solo.work, next]
  simp only [Solo.hear, Solo.await_eq]
  cases Solo.awaitFrom? s.clock (remote.services.post s.sent sums).latency with
  | none => exact remote.parts_stuck rfl
  | some t =>
    cases came : (remote.services.post s.sent sums).outcome with
    | error f =>
      have escapes : remote.Escapes s.sent sums f := (remote.post_fails s.sent sums f).mp came
      rintro sums' earlier ⟨⟩ -
      refine ⟨iff_of_false (by rintro ⟨⟩) fun none => none f escapes, fun g => ?_⟩
      rw [← remote.post_fails, came]
      exact ⟨by rintro ⟨⟩; rfl, by rintro ⟨⟩; rfl⟩
    | ok made =>
      have kept := (remote.post_returns s.sent sums).mp came
      cases fuel with
      | zero => exact remote.parts_stuck rfl
      | succ fuel =>
        rintro sums' earlier ⟨⟩ -
        exact ⟨iff_of_true rfl kept, fun g => iff_of_false (by rintro ⟨⟩) (kept g)⟩

/-- A sweep that asks nothing more ends with its post, if it makes one. -/
theorem parts_work (fuel : Nat) (s : Solo (Sweep δ)) {turn : Turn (Sweep δ) δ}
    (quiet : ∀ op, turn.next ≠ .ask op) (silent : ∀ sums earlier, s.sent ≠ .posted sums :: earlier) :
    remote.Parts (Solo.work remote.services fuel s turn) := by
  cases fuel with
  | zero => exact remote.parts_stuck rfl
  | succ fuel =>
    cases next : turn.next with
    | ask op => exact absurd next (quiet op)
    | post sums => exact parts_post remote fuel s next
    | _ =>
      rw [Solo.work, next]
      exact remote.parts_of_silent silent

omit [Seconds δ] in
theorem quiet_hear (s : Sweep δ) (a : Answer) : ∀ op, (s.hear a).next ≠ .ask op := by
  rcases s.hear_cases a with ⟨c, rfl⟩ | ⟨-, quiet⟩
  · rintro op ⟨⟩
  · exact quiet

/-- A step makes one payment, and then at most posts. -/
theorem parts_step (s : Solo (Sweep δ)) (turns : Nat) : remote.Parts (s.step remote.services turns) := by
  cases turns with
  | zero => exact remote.parts_stuck rfl
  | succ turns =>
    rw [Solo.step]
    cases comes : Solo.awaitFrom? s.clock
        (remote.services.settle s.sent (.payDebt s.worker.progress.epoch)).latency with
    | none =>
      rw [Solo.work, s.worker.next_rested]
      simp only [Solo.hear, Solo.await_eq, comes]
      exact remote.parts_stuck rfl
    | some t =>
      cases answered : (remote.services.settle s.sent (.payDebt s.worker.progress.epoch)).outcome with
      | error f =>
        rw [Solo.work, s.worker.next_rested]
        simp only [Solo.hear, Solo.await_eq, comes, answered]
        exact remote.parts_of_silent (by rintro sums earlier ⟨⟩)
      | ok a =>
        rw [Solo.work_ask remote.services turns s s.worker.next_rested comes answered]
        exact parts_work remote turns _ (s.worker.quiet_hear a) (by rintro sums earlier ⟨⟩)

/-- A sweep that is told of the end of the records posts its totals, and ends with that if anything comes of
it. -/
theorem step_posts (s : Solo (Sweep δ)) {turns : Nat} {reason : Str} {t : Instant} (long : 3 ≤ turns)
    (comes : Solo.awaitFrom? s.clock
      (remote.services.settle s.sent (.payDebt s.worker.progress.epoch)).latency = some t)
    (answered : (remote.services.settle s.sent (.payDebt s.worker.progress.epoch)).outcome
      = .ok (.error reason))
    (kind : paymentFailure reason = .exhausted)
    (delivers : (Solo.awaitFrom? t (remote.services.post
      (.asked (.payDebt s.worker.progress.epoch) :: s.sent) s.worker.progress.summary).latency).isSome) :
    let asked := .asked (.payDebt s.worker.progress.epoch) :: s.sent
    let ended := s.step remote.services turns
    ended.2.sent = .posted s.worker.progress.summary :: asked ∧
      (ended.1 = .exited .normal ↔ ∀ f, ¬ remote.Escapes asked s.worker.progress.summary f) ∧
        ∀ f, ended.1 = .failed f ↔ remote.Escapes asked s.worker.progress.summary f := by
  intro asked ended
  obtain ⟨more, rfl⟩ := Nat.exists_eq_add_of_le' long
  obtain ⟨u, delivers⟩ := Option.isSome_iff_exists.mp delivers
  obtain ⟨notes, notes', steps⟩ := step_told remote.services s (more + 2) comes answered kind
  have posts : ended.2.sent = .posted s.worker.progress.summary :: asked ∧ ended.1 ≠ .stuck := by
    rw [show ended = _ from steps, Solo.work]
    simp only [Solo.hear, Solo.await_eq, delivers]
    cases (remote.services.post asked s.worker.progress.summary).outcome with
    | error f => exact ⟨rfl, by rintro ⟨⟩⟩
    | ok made => exact ⟨rfl, by rintro ⟨⟩⟩
  exact ⟨posts.1, parts_step remote s (more + 3) _ _ posts.1 posts.2⟩

/-! ### Runs -/

theorem parts_go (turns rests : Nat) {ended : Stop δ × Solo (Sweep δ)} (h : remote.Parts ended) :
    remote.Parts (Solo.go remote.services turns rests ended) := by
  induction rests generalizing ended with
  | zero => exact remote.parts_stuck rfl
  | succ rests ih =>
    obtain ⟨stop, s⟩ := ended
    cases stop with
    | paused span =>
      rw [Solo.go, Solo.rest_eq]
      cases Solo.restFrom? s.clock span with
      | none => exact remote.parts_stuck rfl
      | some t => exact ih (parts_step remote _ turns)
    | _ => exact h

theorem parts_run (genesis : Int) (delay : δ) (start : Instant) (turns rests : Nat) :
    remote.Parts (Solo.run remote.services turns rests ⟨Sweep.fresh genesis delay, start, [], []⟩) :=
  parts_go remote turns rests (parts_work remote turns _ (by rintro op ⟨⟩) (by rintro sums earlier ⟨⟩))

end Sweep

/-! ### Sweeps with a supervisor -/

namespace Supervisor.Slot

variable {ω : Type} [Seconds δ]

/-- The slot's run is over, with no restart and no instance more than before. -/
structure Retired (before after : Slot ω) : Prop where
  rests : after.isRunning = false
  built : after.built = before.built
  restarts : after.health.restarts = before.health.restarts

theorem retired_waiting {s s' : Slot ω} (l : Live ω) (phase : Phase ω) (wake : Wake) :
    (s.waiting l phase wake).Retired s' ↔ s.Retired s' :=
  ⟨fun h => ⟨h.rests, h.built, h.restarts⟩, fun h => ⟨h.rests, h.built, h.restarts⟩⟩

/-- A run that exits as done is over, also if the clock has left the calendar. -/
theorem retired_finish (su : Setup δ) (o : Occasion) (s : Slot ω) (l : Live ω) (error : String) :
    s.Retired (s.finish su o l .normal error).1 := by
  unfold finish
  cases su.moment o.now with
  | error f => exact ⟨rfl, rfl, rfl⟩
  | ok m => exact ⟨rfl, rfl, rfl⟩

theorem Closes.not_normal {su : Setup δ} {o : Occasion} {m : Calendar.Moment} {s s' : Slot ω} {l : Live ω}
    {f : Fault} {events : List Event} (closes : Closes su o m s l (.fault f) s' events) :
    s'.run ≠ some (.ended (.ok .normal)) := by
  cases closes with
  | told => rintro ⟨⟩
  | restarts untold crash granted => rintro ⟨⟩
  | givesUp untold crash refused => rintro ⟨⟩

variable (su : Setup δ) (o : Occasion) (s : Slot (Worker δ)) {l : Live (Worker δ)} {w : Sweep δ}

/-- A sweep that hears of the end of the records goes on to wait for its post. -/
theorem move_exhausted {reason : Str} {notes abandoned : List Note}
    (phase : l.phase = .awaiting (.sweep w) (.ok (.answered (.error reason))) notes abandoned)
    (kind : paymentFailure reason = .exhausted) :
    let post := su.services.post o.earlier w.progress.summary
    ∃ l', (s.move su o l).1.live? = some l' ∧
      l'.phase = .awaiting (.sweep w) (post.outcome.map fun () => .posted) post.notes post.abandoned ∧
      ∀ s', (s.move su o l).1.Retired s' ↔ s.Retired s' := by
  intro post
  obtain ⟨noted, heard⟩ := Sweep.hear_terminal w (by rw [Outcome.ofPayment, kind])
  have turn : (Machine.resume (.sweep w : Worker δ) (.answered (.error reason)) : Turn (Worker δ) δ)
      = ⟨.sweep w, noted, .post w.progress.summary⟩ :=
    congrArg (Turn.map Worker.sweep) heard
  rw [move, phase]
  simp only [turn, follow]
  exact ⟨_, rfl, rfl, fun s' => retired_waiting l _ _⟩

/-- A sweep whose post comes in is told of it, and exits as done. -/
theorem move_posted {notes abandoned : List Note}
    (phase : l.phase = .awaiting (.sweep w) (.ok .posted) notes abandoned) :
    (s.move su o l).1 = (s.finish su o l .normal "").1 := by
  rw [move, phase]
  rfl

/-- While the clock is in the calendar, its run ends as done unless a fault came out of the post. -/
theorem run_posted {m : Calendar.Moment} (clock : su.moment o.now = .ok m) {came : Except Fault Unit}
    {notes abandoned : List Note}
    (phase : l.phase = .awaiting (.sweep w) (came.map fun () => .posted) notes abandoned) :
    (s.move su o l).1.run = some (.ended (.ok .normal)) ↔ came = .ok () := by
  cases came with
  | ok made =>
    rw [move_posted su o s phase, finish, clock]
    exact iff_of_true rfl rfl
  | error f =>
    refine iff_of_false ?_ (by rintro ⟨⟩)
    rw [move, phase]
    exact (closes_fail clock f s l).not_normal

end Supervisor.Slot

/-! ### All of it -/

namespace Remote

variable [Seconds δ]

/-- What posting totals to a webhook comes to, for the post itself, for a sweep that makes it, and for the
supervisor of such a sweep. -/
structure Posting (remote : Remote δ) : Prop where
  /-- The post is one request at most, and fails by nothing but a fault that comes out of it. -/
  posts : ∀ earlier sums,
    Webhook.Posts remote.library remote.webhook (remote.after earlier) sums
      (remote.services.post earlier sums)
  /-- At the end of the records the totals are posted. -/
  steps : ∀ (s : Solo (Sweep δ)) {turns : Nat} {reason : Str} {t : Instant}, 3 ≤ turns →
    let payment := remote.services.settle s.sent (.payDebt s.worker.progress.epoch)
    let asked := .asked (.payDebt s.worker.progress.epoch) :: s.sent
    Solo.awaitFrom? s.clock payment.latency = some t → payment.outcome = .ok (.error reason) →
      paymentFailure reason = .exhausted →
        (Solo.awaitFrom? t (remote.services.post asked s.worker.progress.summary).latency).isSome →
          let ended := s.step remote.services turns
          ended.2.sent = .posted s.worker.progress.summary :: asked ∧
            (ended.1 = .exited .normal ↔ ∀ f, ¬ remote.Escapes asked s.worker.progress.summary f) ∧
            ∀ f, ended.1 = .failed f ↔ remote.Escapes asked s.worker.progress.summary f
  /-- Whenever a run has posted its totals it ends with that. -/
  runs : ∀ (genesis : Int) (delay : δ) (start : Instant) (turns rests : Nat),
    remote.Parts (Solo.run remote.services turns rests ⟨Sweep.fresh genesis delay, start, [], []⟩)
  /-- A supervisor has done with the sweep two moves after the sweep hears of the end of the records. -/
  supervised : ∀ (su : Supervisor.Setup δ) (o o' : Supervisor.Slot.Occasion) (s : Supervisor.Slot (Worker δ))
    {l : Supervisor.Live (Worker δ)} {w : Sweep δ} {reason : Str} {notes abandoned : List Note},
    su.services = remote.services →
      l.phase = .awaiting (.sweep w) (.ok (.answered (.error reason))) notes abandoned →
        paymentFailure reason = .exhausted →
          let told := (s.move su o l).1
          ∃ l', told.live? = some l' ∧
            ((∀ f, ¬ remote.Escapes o.earlier w.progress.summary f) → s.Retired (told.move su o' l').1) ∧
              ∀ m, su.moment o'.now = .ok m → ((told.move su o' l').1.run = some (.ended (.ok .normal)) ↔
                ∀ f, ¬ remote.Escapes o.earlier w.progress.summary f)

/-- A far side that responds at once has the post come in. -/
theorem comes_of_prompt {remote : Remote δ}
    (prompt : ∀ earlier request, (remote.exchange earlier request).latency = .immediate) (t : Instant)
    (earlier : List Outbound) (sums : Summary) :
    (Solo.awaitFrom? t (remote.services.post earlier sums).latency).isSome := by
  have latency :
      (remote.webhook.postSummary remote.library (remote.after earlier) sums).latency = .immediate :=
    Webhook.latency_postSummary fun request => prompt _ request
  rw [post_eq, latency]
  rfl

omit [Seconds δ] in
/-- A far side that refuses every request for a reason, and plainly, refuses a payment for it. -/
theorem settle_refusing {remote : Remote δ} (lawful : remote.library.Lawful) {reason : Str} {sent : Response}
    (worded : reason ≠ "") (refuses : Settlement.Refuses sent.body reason) (plain : sent.IsPlain)
    (same : ∀ earlier request, (remote.exchange earlier request).outcome = .ok sent)
    (earlier : List Outbound) (op : Operation) :
    (remote.services.settle earlier op).outcome = .ok (.error reason) := by
  obtain ⟨refusal, received⟩ := lawful.plain (remote.wire.request op) sent plain
  rw [services]
  exact Settlement.settle_refused (same _ _) received refuses worded

/-- A far side that refuses every request, and says each time that there is no further record. -/
def closing : Remote Micros := Sweep.repeating (Sweep.refusing Sweep.pastRecords)

/-- The same with a webhook whose port is no number. -/
def misaddressed : Remote Micros := { closing with webhook := ⟨"https://hooks.test:port/sweeps"⟩ }

theorem settle_closing :
    (Library.standard {}).Lawful ∧ ∀ remote ∈ [closing, misaddressed], ∀ earlier op,
      (remote.services.settle earlier op).outcome = .ok (.error Sweep.pastRecords) := by
  have lawful : (Library.standard {}).Lawful := Library.lawful_standard Library.Lookups.lawful_default
  have worded : (Sweep.pastRecords : Str) ≠ "" := mt Str.ofString_inj.mp (by decide)
  have plain : (Sweep.refusing Sweep.pastRecords).IsPlain := ⟨.inl rfl, rfl, nofun⟩
  refine ⟨lawful, List.forall_mem_cons.mpr ⟨?_, List.forall_mem_singleton.mpr ?_⟩⟩
  · exact settle_refusing lawful worded Sweep.refuses_pastRecords plain fun _ _ => rfl
  · exact settle_refusing lawful worded Sweep.refuses_pastRecords plain fun _ _ => rfl

end Remote

end Settler
