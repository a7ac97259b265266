import Settler.Proofs.Supervisor.Step
import Settler.Proofs.Worker.Talk

/-!
The talk of supervised workers with their services.

In every state that a script leads to, what went out for a job comes in blocks, one for each
instance that began, in the order in which they began; and each block is a conversation of a worker
that the job built for that instance. This is `Slot.Documented`. It has to say more of the instance
at work, which is the last one: how far its talk has come, and what it waits for (`Phase.Fits`).
-/

namespace Settler.Supervisor

variable {ω δ : Type}

/-- There is a worker at work. -/
def Phase.isBusy : Phase ω → Bool
  | .resting _ => true
  | .awaiting _ _ _ _ => true
  | _ => false

namespace Slot

/-! ### Moves that end an instance -/

/-- A move that ends the instance, or leaves it ended: nothing is said of the talk any more. -/
structure Quiet (s : Slot ω) (r : Slot ω × List Event) : Prop where
  job : r.1.job = s.job
  built : r.1.built = s.built
  idle : ∀ l, r.1.live? = some l → l.phase.isBusy = false
  silent : ∀ e ∈ r.2, e.speaker? = none

theorem quiet_ended {s t : Slot ω} (job : t.job = s.job) (built : t.built = s.built)
    (result : Except Fault Exit) {events : List Event} (silent : ∀ e ∈ events, e.speaker? = none) :
    Quiet s (t.ended result, events) where
  job := job
  built := built
  idle := by intro l hl; cases hl
  silent := silent

/-- One more event that says nothing of the talk. -/
theorem Quiet.cons {s : Slot ω} {r : Slot ω × List Event} (h : Quiet s r) {e : Event}
    (silent : e.speaker? = none) : Quiet s (r.1, e :: r.2) where
  job := h.job
  built := h.built
  idle := h.idle
  silent := List.forall_mem_cons.mpr ⟨silent, h.silent⟩

section

variable [Seconds δ] (su : Setup δ) (o : Occasion)

theorem quiet_recover (s : Slot ω) (l : Live ω) : Quiet s (s.recover su o l) := by
  unfold recover
  dsimp only
  generalize l.budget.request _ o.now = answer
  obtain ⟨granted, budget⟩ := answer
  cases granted with
  | false => exact quiet_ended (by rfl) (by rfl) _ (by simp [Event.speaker?])
  | true =>
    refine ⟨rfl, rfl, ?_, by simp [Event.speaker?]⟩
    intro l' hl
    cases hl
    rfl

theorem quiet_finish (s : Slot ω) (l : Live ω) (e : Exit) (error : Str) :
    Quiet s (s.finish su o l e error) := by
  unfold finish
  cases su.moment o.now with
  | error f =>
    dsimp only
    exact quiet_ended (by rfl) (by rfl) _ (by simp)
  | ok m =>
    cases e with
    | normal =>
      dsimp only
      exact quiet_ended (by rfl) (by rfl) _ (by simp [Event.speaker?])
    | faulted =>
      dsimp only
      exact quiet_ended (by rfl) (by rfl) _ (by simp [Event.speaker?])
    | crashed =>
      dsimp only
      have quiet := quiet_recover su o { s with
        health.running := false, health.lastExit := some Exit.crashed, health.lastError := error,
        health.lastFinished := some m } l
      exact Quiet.cons (s := s) ⟨quiet.job, quiet.built, quiet.idle, quiet.silent⟩ rfl

theorem quiet_fail (s : Slot ω) (l : Live ω) (f : Fault) : Quiet s (s.fail su o l f) := by
  have crash : ∀ f : Fault, Quiet s ((s.finish su o l .crashed f.describe).1,
      .crashed s.current :: (s.finish su o l .crashed f.describe).2) :=
    fun f => (quiet_finish su o s l .crashed f.describe).cons rfl
  cases f with
  | cancelled => exact quiet_ended (by rfl) (by rfl) _ (by simp)
  | _ => exact crash _

end

end Slot

/-! ### What is on record -/

variable [Machine ω δ]

/-- The record of a job that has built so many workers. -/
structure Recorded (j : Journal) (job : Job ω) (built : Nat) : Prop where
  blocks : Blocks (j.instances job.name) (j.exchangesFor job.name)
  numbers : ∀ i ∈ j.instances job.name, i.job = job.name ∧ i.number ≤ built
  conversations : ∀ i ∈ j.instances job.name, ∃ w, job.build (i.number - 1) = .ok w ∧
    Conversation i (Machine.begin w) (j.exchangesOf i)

/-- What is on record of an instance fits what its run is in the middle of. -/
inductive Phase.Fits (i : Instance) (first : Turn ω δ) (xs : List Exchange) : Phase ω → Prop where
  | resting {t : Turn ω δ} (talk : Talk i first xs t) (rest : t.next.isRest) :
      Fits i first xs (.resting t.worker)
  | awaiting {ys : List Exchange} {t : Turn ω δ} {o : Outbound} {outcome : Except Fault Reply}
      {notes abandoned : List Note} (talk : Talk i first ys t)
      (wants : t.next.outbound? = some o) (split : xs = ys ++ [⟨i, o, none⟩])
      (fits : ∀ r, outcome = .ok r → o.admits r) :
      Fits i first xs (.awaiting t.worker outcome notes abandoned)

/-- The instance at work is the last one that began, and its record fits its phase. -/
structure AtWork (j : Journal) (s : Slot ω) (phase : Phase ω) : Prop where
  last : ∃ earlier, j.instances s.job.name = earlier ++ [s.current]
  fits : ∃ w, s.job.build (s.built - 1) = .ok w ∧
    phase.Fits s.current (Machine.begin w) (j.exchangesOf s.current)

/-- Everything on record of a slot's job is as it should be. -/
structure Slot.Documented (j : Journal) (s : Slot ω) : Prop where
  recorded : Recorded j s.job s.built
  atWork : ∀ l, s.live? = some l → l.phase.isBusy → AtWork j s l.phase

namespace Recorded

variable {j j' : Journal} {job : Job ω} {built : Nat}

theorem fresh (job : Job ω) : Recorded [] job 0 where
  blocks := .empty
  numbers := by simp [Journal.instances]
  conversations := by simp [Journal.instances]

/-- Only the exchanges and the instances of the job count. -/
theorem congr (h : Recorded j job built) (exchanges : j'.exchangesFor job.name = j.exchangesFor job.name)
    (instances : j'.instances job.name = j.instances job.name) : Recorded j' job built where
  blocks := by rw [exchanges, instances]; exact h.blocks
  numbers := by rw [instances]; exact h.numbers
  conversations := by
    rw [instances]
    intro i hi
    have same : j'.exchangesOf i = j.exchangesOf i := by
      rw [Journal.exchangesOf_eq_filter, Journal.exchangesOf_eq_filter, (h.numbers i hi).1, exchanges]
    rw [same]
    exact h.conversations i hi

theorem mono (h : Recorded j job built) {more : Nat} (le : built ≤ more) : Recorded j job more where
  blocks := h.blocks
  numbers := fun i hi => ⟨(h.numbers i hi).1, Nat.le_trans (h.numbers i hi).2 le⟩
  conversations := h.conversations

theorem silent (h : Recorded j job built) (time : Instant) {events : List Event}
    (quiet : ∀ e ∈ events, e.speaker? = none) : Recorded (j.record time events) job built := by
  refine h.congr ?_ (Journal.instances_record_of_silent j time quiet _)
  rw [Journal.exchangesFor, Journal.exchanges_record_of_silent j time quiet, Journal.exchangesFor]

/-- An instance that has not begun has no exchanges. -/
theorem exchangesOf_eq_nil (h : Recorded j job built) {i : Instance} (same : i.job = job.name)
    (new : i ∉ j.instances job.name) : j.exchangesOf i = [] := by
  rw [Journal.exchangesOf_eq_filter, same, List.filter_eq_nil_iff]
  intro x hx
  have ne : x.owner ≠ i := fun owner => new (owner ▸ h.blocks.owner_mem hx)
  simpa using ne

/-- A fresh instance begins. -/
theorem began (h : Recorded j job built) (time : Instant) {w : ω} (build : job.build built = .ok w) :
    Recorded (j.record time [.began ⟨job.name, built + 1⟩]) job (built + 1) := by
  have new : (⟨job.name, built + 1⟩ : Instance) ∉ j.instances job.name :=
    fun mem => Nat.not_succ_le_self built (h.numbers _ mem).2
  have none_yet := h.exchangesOf_eq_nil rfl new
  have instances := j.instances_began time ⟨job.name, built + 1⟩
  have exchanges := j.exchanges_began time ⟨job.name, built + 1⟩
  refine ⟨?_, ?_, ?_⟩
  · rw [instances, Journal.exchangesFor, exchanges]
    exact h.blocks.began new
  · rw [instances]
    intro i hi
    rcases List.mem_append.mp hi with hi | hi
    · exact ⟨(h.numbers i hi).1, Nat.le_succ_of_le (h.numbers i hi).2⟩
    · obtain rfl := List.mem_singleton.mp hi
      exact ⟨rfl, Nat.le_refl _⟩
  · rw [instances]
    intro i hi
    rw [Journal.exchangesOf, exchanges, ← Journal.exchangesOf]
    rcases List.mem_append.mp hi with hi | hi
    · exact h.conversations i hi
    · obtain rfl := List.mem_singleton.mp hi
      refine ⟨w, build, .whole (t := Machine.begin w) ?_⟩
      rw [none_yet]
      exact .begin

/-- What the last instance sends goes on record at the end of its conversation. -/
theorem sent (h : Recorded j job built) (time : Instant) {earlier : List Instance} {i : Instance}
    (last : j.instances job.name = earlier ++ [i]) {w : ω} {t : Turn ω δ} {o : Outbound}
    (build : job.build (i.number - 1) = .ok w) (talk : Talk i (Machine.begin w) (j.exchangesOf i) t)
    (wants : t.next.outbound? = some o) : Recorded (j.record time [.sent i o]) job built := by
  have same : i.job = job.name := (h.numbers i (by simp [last])).1
  refine ⟨?_, ?_, ?_⟩
  · have blocks := h.blocks
    rw [last] at blocks
    rw [j.instances_sent, last, ← same, j.exchangesFor_sent, same]
    exact blocks.sent o
  · rw [j.instances_sent]
    exact h.numbers
  · rw [j.instances_sent]
    intro k hk
    by_cases own : i = k
    · subst own
      rw [j.exchangesOf_sent_self]
      exact ⟨w, build, talk.opened wants⟩
    · rw [j.exchangesOf_sent_of_ne time own]
      exact h.conversations k hk

/-- What an instance hears goes on record as the reply to its last word. -/
theorem heard (h : Recorded j job built) (time : Instant) {i : Instance} {w : ω}
    {outcome : Except Fault Reply} (build : job.build (i.number - 1) = .ok w)
    (conversation : Conversation i (Machine.begin w)
      ((j.exchangesOf i).map (·.hear i outcome))) :
    Recorded (j.record time [.heard i outcome]) job built := by
  refine ⟨?_, ?_, ?_⟩
  · rw [j.instances_heard, j.exchangesFor_heard]
    exact h.blocks.heard i outcome
  · rw [j.instances_heard]
    exact h.numbers
  · rw [j.instances_heard]
    intro k hk
    rw [j.exchangesOf_heard]
    by_cases own : i = k
    · subst own
      exact ⟨w, build, conversation⟩
    · rw [map_hear_of_forall_ne]
      · exact h.conversations k hk
      · intro x hx same
        exact own (same.symm.trans (Journal.owner_of_mem_exchangesOf hx))

end Recorded

/-! ### One move of a slot -/

namespace Slot

theorem Quiet.documented {j : Journal} {s : Slot ω} {r : Slot ω × List Event} (h : Quiet s r)
    (recorded : Recorded j s.job s.built) (time : Instant) :
    r.1.Documented (j.record time r.2) where
  recorded := by
    rw [h.job, h.built]
    exact recorded.silent time h.silent
  atWork := by
    intro l hl busy
    rw [h.idle l hl] at busy
    cases busy

section

variable {j : Journal} {s : Slot ω} {earlier : List Instance} {w : ω} {t : Turn ω δ}

/-- The worker at work rests. -/
theorem documented_rest (recorded : Recorded j s.job s.built)
    (last : j.instances s.job.name = earlier ++ [s.current])
    (build : s.job.build (s.built - 1) = .ok w)
    (talk : Talk s.current (Machine.begin w) (j.exchangesOf s.current) t) (rest : t.next.isRest)
    (l : Live ω) (wake : Wake) : (s.waiting l (.resting t.worker) wake).Documented j where
  recorded := recorded
  atWork := by
    intro l' hl _
    cases hl
    exact ⟨⟨earlier, last⟩, w, build, .resting talk rest⟩

/-- The worker at work sends something out and waits for what comes of it. -/
theorem documented_await (recorded : Recorded j s.job s.built)
    (last : j.instances s.job.name = earlier ++ [s.current])
    (build : s.job.build (s.built - 1) = .ok w)
    (talk : Talk s.current (Machine.begin w) (j.exchangesOf s.current) t) {o : Outbound}
    (wants : t.next.outbound? = some o) {outcome : Except Fault Reply}
    (fits : ∀ r, outcome = .ok r → o.admits r) (time : Instant) (l : Live ω) (wake : Wake)
    (notes abandoned : List Note) :
    (s.waiting l (.awaiting t.worker outcome notes abandoned) wake).Documented
      (j.record time [.sent s.current o]) where
  recorded := recorded.sent time last build talk wants
  atWork := by
    intro l' hl _
    cases hl
    refine ⟨⟨earlier, ?_⟩, w, build, .awaiting talk wants ?_ fits⟩
    · exact (j.instances_sent time _ _ _).trans last
    · exact j.exchangesOf_sent_self time _ _

variable [Seconds δ] (su : Setup δ) (o : Occasion)

/-- A turn of the worker at work goes on record. -/
theorem documented_follow (recorded : Recorded j s.job s.built)
    (last : j.instances s.job.name = earlier ++ [s.current])
    (build : s.job.build (s.built - 1) = .ok w)
    (talk : Talk s.current (Machine.begin w) (j.exchangesOf s.current) t)
    (time : Instant) (l : Live ω) :
    (s.follow su o l t).1.Documented (j.record time (s.follow su o l t).2) := by
  have silent : ∀ e ∈ t.notes.map Event.note, e.speaker? = none := by simp [Event.speaker?]
  -- the notes come first and change nothing, so the rest is about the journal after them
  generalize noted : j.record time (t.notes.map Event.note) = j'
  have recorded' : Recorded j' s.job s.built := noted ▸ recorded.silent time silent
  have last' : j'.instances s.job.name = earlier ++ [s.current] := by
    rw [← noted, Journal.instances_record_of_silent j time silent, last]
  have talk' : Talk s.current (Machine.begin w) (j'.exchangesOf s.current) t := by
    rw [← noted, Journal.exchangesOf, Journal.exchanges_record_of_silent j time silent,
      ← Journal.exchangesOf]
    exact talk
  unfold follow
  dsimp only
  rw [Journal.record_append, noted]
  cases next : t.next with
  | pause span => exact documented_rest recorded' last' build talk' (by rw [next]; rfl) l _
  | hold => exact documented_rest recorded' last' build talk' (by rw [next]; rfl) l _
  | ask op =>
    refine documented_await recorded' last' build talk' (by rw [next]; rfl) ?_ time l _ _ _
    exact fun r => Outbound.admits_of_map fun _ => rfl
  | post totals =>
    refine documented_await recorded' last' build talk' (by rw [next]; rfl) ?_ time l _ _ _
    exact fun r => Outbound.admits_of_map fun _ => rfl
  | exit e => exact (quiet_finish su o s l e "").documented recorded' time
  | fail f => exact (quiet_fail su o s l f).documented recorded' time

/-- A fresh instance goes on record with its first turn. -/
theorem documented_launch (recorded : Recorded j s.job s.built) (time : Instant) (l : Live ω) :
    (s.launch su o l).1.Documented (j.record time (s.launch su o l).2) := by
  have ended : ∀ {t : Slot ω} (f : Fault), t.job = s.job → t.built = s.built + 1 →
      (t.ended (.error f)).Documented (j.record time []) := by
    intro t f job built
    refine (quiet_ended (s := t) rfl rfl _ (List.forall_mem_nil _)).documented ?_ time
    rw [job, built]
    exact recorded.mono (Nat.le_succ _)
  unfold launch
  cases build : s.job.build s.built with
  | error f => exact ended f rfl rfl
  | ok w =>
    dsimp only
    cases su.moment o.now with
    | error f => exact ended f rfl rfl
    | ok m =>
      dsimp only
      rw [Journal.record_cons]
      have new : (⟨s.job.name, s.built + 1⟩ : Instance) ∉ j.instances s.job.name :=
        fun mem => Nat.not_succ_le_self _ (recorded.numbers _ mem).2
      have none_yet : (j.record time [.began ⟨s.job.name, s.built + 1⟩]).exchangesOf
          ⟨s.job.name, s.built + 1⟩ = [] := by
        rw [j.exchangesOf_began, recorded.exchangesOf_eq_nil rfl new]
      have talk : Talk ⟨s.job.name, s.built + 1⟩ (Machine.begin w)
          ((j.record time [.began ⟨s.job.name, s.built + 1⟩]).exchangesOf
            ⟨s.job.name, s.built + 1⟩) (Machine.begin w) := none_yet ▸ .begin
      refine documented_follow su o (recorded.began time build) (j.instances_began time _) build ?_
        time l
      exact talk

/-- The next move of a live run goes on record. -/
theorem documented_move (h : s.Documented j) {l : Live ω} (live : s.live? = some l)
    (time : Instant) : (s.move su o l).1.Documented (j.record time (s.move su o l).2) := by
  obtain ⟨recorded, atWork⟩ := h
  have working := atWork l live
  unfold move
  cases phase : l.phase with
  | created => exact documented_launch su o recorded time l
  | backingOff => exact documented_launch su o recorded time l
  | resting w =>
    rw [phase] at working
    obtain ⟨⟨earlier, last⟩, w₀, build, fits⟩ := working rfl
    cases fits with
    | resting talk rest => exact documented_follow su o recorded last build (talk.rested rest) time l
  | awaiting w outcome notes abandoned =>
    rw [phase] at working
    obtain ⟨⟨earlier, last⟩, w₀, build, fits⟩ := working rfl
    cases fits with
    | @awaiting ys t ob _ _ _ talk wants split fits =>
      have silent : ∀ e ∈ notes.map Event.note, e.speaker? = none := by simp [Event.speaker?]
      -- the notes on the outcome change nothing; after them the worker hears it
      generalize noted : j.record time (notes.map Event.note) = j₁
      have recorded₁ : Recorded j₁ s.job s.built := noted ▸ recorded.silent time silent
      have last₁ : j₁.instances s.job.name = earlier ++ [s.current] := by
        rw [← noted, Journal.instances_record_of_silent j time silent, last]
      have heard : (j₁.exchangesOf s.current).map (·.hear s.current outcome)
          = ys ++ [⟨s.current, ob, some outcome⟩] := by
        rw [← noted, Journal.exchangesOf, Journal.exchanges_record_of_silent j time silent,
          ← Journal.exchangesOf, split, talk.map_hear_open]
      have last₂ := (j₁.instances_heard time s.current outcome s.job.name).trans last₁
      have exchanges₂ := (j₁.exchangesOf_heard time s.current s.current outcome).trans heard
      dsimp only
      rw [Journal.record_append, noted, Journal.record_cons]
      cases outcome with
      | error f =>
        refine (quiet_fail su o s l f).documented (recorded₁.heard time build ?_) time
        rw [heard]
        exact talk.failed wants f
      | ok r =>
        have talk₂ := talk.replied wants (fits r rfl)
        refine documented_follow su o (recorded₁.heard time build ?_) last₂ build ?_ time l
        · rw [heard]
          exact .whole talk₂
        · exact exchanges₂ ▸ talk₂

end

end Slot

end Settler.Supervisor
