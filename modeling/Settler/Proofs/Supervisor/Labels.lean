import Settler.Proofs.Journal.About
import Settler.Proofs.Supervisor.Course

/-!
Slots under labels.

Turns only say who goes first, and the notes on an outcome are only written down, so a run that differs
from another one in these makes the same moves. `Slot.seen` puts labels in place of the turns and leaves
the notes out; two slots that are seen as the same are seen as the same after their moves, as long as the
services have the same for them (`Slot.move_seen`).
-/

namespace Settler

open Settler.Supervisor

variable {ω δ : Type}

/-- The same comes of both, and at the same time, whatever is noted. -/
structure Pending.Same {α : Type} (p q : Pending δ α) : Prop where
  latency : p.latency = q.latency
  outcome : p.outcome = q.outcome

theorem Pending.Same.symm {α : Type} {p q : Pending δ α} (h : p.Same q) : q.Same p :=
  ⟨h.latency.symm, h.outcome.symm⟩

/-- Notes that count nothing concern no job. -/
theorem Event.filter_notes {notes : List Note} (quiet : ∀ n ∈ notes, n.token? = none) (job : String) :
    (notes.map Event.note).filter (·.concerns job) = [] := by
  rw [List.filter_eq_nil_iff]
  intro e mem
  obtain ⟨n, listed, rfl⟩ := List.mem_map.mp mem
  simp [Event.concerns, Event.counts, Event.sentFor?, quiet n listed]

namespace Supervisor

/-- The setup with other services, and an event loop that orders timers in another way. -/
def Setup.serving (su : Setup δ) (services : Services δ) (ties : Ties) : Setup δ := { su with services, ties }

/-- Labels for turns: those of who is ready, and those in which timers were set. -/
structure Labels where
  ready : Nat → Nat
  timer : Nat → Nat

/-- The same labels for both. -/
def Labels.both (f : Nat → Nat) : Labels := ⟨f, f⟩

/-- Labels for labels. -/
def Labels.after (g f : Labels) : Labels := ⟨g.ready ∘ f.ready, g.timer ∘ f.timer⟩

/-- Both labels of a turn are the same. -/
def Labels.Level (f : Labels) (n : Nat) : Prop := f.timer n = f.ready n

theorem Labels.level_both (f : Nat → Nat) (n : Nat) : (both f).Level n := rfl

/-- The two give a turn the same labels. -/
def Labels.Meet (f g : Labels) (n : Nat) : Prop := f.ready n = g.ready n ∧ f.timer n = g.timer n

/-- The wake with a label in place of its turn. -/
def Wake.label (f : Labels) : Wake → Wake
  | .ready n => .ready (f.ready n)
  | .due t n => .due t (f.timer n)
  | .never => .never

/-- The phase without the notes on what is waited for. -/
def Phase.bare : Phase ω → Phase ω
  | .awaiting w outcome _ _ => .awaiting w outcome [] []
  | phase => phase

/-- No note on what is waited for counts a worker event. -/
def Phase.IsQuiet : Phase ω → Prop
  | .awaiting _ _ notes _ => ∀ n ∈ notes, n.token? = none
  | _ => True

/-- The run as it is seen, with labels for turns. -/
def Live.seen (f : Labels) (l : Live ω) : Live ω where
  phase := l.phase.bare
  budget := l.budget
  wake := l.wake.label f

/-- The run as it is seen, live or with its result. -/
def Run.seen (f : Labels) : Run ω → Run ω
  | .live l => .live (l.seen f)
  | .ended result => .ended result

/-! ### Wakes -/

namespace Wake

/-- The turn, whatever else is waited for. -/
def place? : Wake → Option Nat
  | .ready n => some n
  | .due _ n => some n
  | .never => none

/-- It is ready, or due by an instant. -/
def callsBy (now : Instant) : Wake → Bool
  | .ready _ => true
  | .due t _ => t ≤ now
  | .never => false

variable {f g : Labels} {w : Wake}

theorem label_label : (w.label f).label g = w.label (g.after f) := by
  cases w <;> rfl

theorem label_congr (same : ∀ n ∈ w.place?, f.Meet g n) : w.label f = w.label g := by
  cases w with
  | ready n => exact congrArg ready (same n rfl).1
  | due t n => exact congrArg (due t) (same n rfl).2
  | never => rfl

theorem place_label (f : Nat → Nat) : (w.label (.both f)).place? = w.place?.map f := by
  cases w <;> rfl

@[simp]
theorem turn_label : (w.label f).turn? = w.turn?.map f.ready := by
  cases w <;> rfl

@[simp]
theorem time_label : (w.label f).time? = w.time? := by
  cases w <;> rfl

@[simp]
theorem callsBy_label (now : Instant) : (w.label f).callsBy now = w.callsBy now := by
  cases w <;> rfl

/-- What is due gets a turn before the fresh one, if it was set before that. -/
theorem place_arrive_lt {turn : Nat → Nat} {fresh : Nat} (early : ∀ n < fresh, turn n < fresh)
    (now : Instant) (set : ∀ n ∈ w.place?, n < fresh) : ∀ n ∈ (w.arrive turn now).place?, n < fresh := by
  cases w with
  | due t n =>
    have lt : n < fresh := set n rfl
    simp only [arrive]
    split
    · rintro _ ⟨⟩
      exact early n lt
    · rintro _ ⟨⟩
      exact lt
  | _ => exact set

theorem place_of_turn {n : Nat} (ready : w.turn? = some n) : w.place? = some n := by
  cases w with
  | ready m => exact ready
  | _ => cases ready

theorem arrive_of_not_calls {turn : Nat → Nat} {now : Instant} (quiet : w.callsBy now = false) :
    w.arrive turn now = w := by
  cases w with
  | ready n => cases quiet
  | due t n => exact if_neg (of_decide_eq_false quiet)
  | never => rfl

variable [Seconds δ]

theorem label_afterPause (now : Instant) {turn : Nat} (level : f.Level turn) (span : δ) :
    (afterPause now turn span).label f = afterPause now (f.ready turn) span := by
  unfold afterPause
  split
  · split
    · exact congrArg (due _) level
    · rfl
  · rfl

/-- The end of a pause has no turn but the one it is given. -/
theorem place_afterPause (now : Instant) (turn : Nat) (span : δ) :
    ∀ n ∈ (afterPause now turn span).place?, n = turn := by
  unfold afterPause
  split
  · split
    · rintro n ⟨⟩
      rfl
    · exact nofun
  · rintro n ⟨⟩
    rfl

theorem label_afterLatency (now : Instant) {fresh : Nat} (level : f.Level fresh) (present : Nat)
    (latency : Latency δ) : (afterLatency now fresh present latency).label f
      = afterLatency now (f.ready fresh) (f.ready present) latency := by
  cases latency with
  | after span => exact label_afterPause now level span
  | _ => rfl

end Wake

namespace Slot

/-- The slot as it is seen, with labels for turns, and without its place. -/
def seen (f : Labels) (t : Slot ω) : Slot ω := { t with run := t.run.map (Run.seen f), place := 0 }

/-- The turn of the slot's run, whatever the run waits for. -/
def place? (t : Slot ω) : Option Nat := t.live?.bind (·.wake.place?)

/-- The occasion with labels for turns, and without what went out before. -/
def Occasion.label (f : Labels) (o : Occasion) : Occasion :=
  ⟨o.now, f.ready o.present, f.ready o.fresh, []⟩

variable {f g f₁ f₂ : Labels}

theorem live_seen (f : Labels) (t : Slot ω) : (t.seen f).live? = t.live?.map (Live.seen f) := by
  obtain ⟨job, health, built, run, place⟩ := t
  rcases run with _ | _ | _ <;> rfl

theorem seen_of_live {t : Slot ω} {l : Live ω} (live : t.live? = some l) :
    (t.seen f).live? = some (l.seen f) := by
  rw [live_seen, live, Option.map_some]

theorem isRunning_seen (f : Labels) (t : Slot ω) : (t.seen f).isRunning = t.isRunning := by
  rw [isRunning, live_seen, Option.isSome_map, ← isRunning]

theorem seen_seen (t : Slot ω) : (t.seen f).seen g = t.seen (g.after f) := by
  obtain ⟨job, health, built, run, place⟩ := t
  rcases run with _ | ⟨phase, budget, wake⟩ | _
  · rfl
  · have bare : phase.bare.bare = phase.bare := by cases phase <;> rfl
    simp only [seen, Option.map_some, Run.seen, Live.seen, Wake.label_label, bare]
  · rfl

theorem seen_congr {t : Slot ω} (same : ∀ n ∈ t.place?, f.Meet g n) : t.seen f = t.seen g := by
  obtain ⟨job, health, built, run, place⟩ := t
  rcases run with _ | l | _
  · rfl
  · have wakes : l.wake.label f = l.wake.label g := Wake.label_congr same
    simp only [seen, Option.map_some, Run.seen, Live.seen, wakes]
  · rfl

/-! ### Endings -/

section

variable [Seconds δ] (su : Setup δ) (o : Occasion)

/-- A move as it is seen. -/
def under (f : Labels) (r : Slot ω × List Event) : Slot ω × List Event := (r.1.seen f, r.2)

/-- The same events may come first. -/
theorem under_append {r₁ r₂ : Slot ω × List Event} (same : under f₁ r₁ = under f₂ r₂)
    {first₁ first₂ : List Event} (firsts : first₁ = first₂) :
    under f₁ (r₁.1, first₁ ++ r₁.2) = under f₂ (r₂.1, first₂ ++ r₂.2) :=
  firsts ▸ congrArg (fun r : Slot ω × List Event => (r.1, first₁ ++ r.2)) same

theorem under_recover (level : f.Level o.fresh) (s : Slot ω) (l : Live ω) :
    under f (s.recover su o l) = (s.seen f).recover su (o.label f) (l.seen f) := by
  unfold recover
  dsimp only [Live.seen, Occasion.label]
  split
  · rfl
  · simp only [under, seen, waiting, Option.map_some, Run.seen, Live.seen, Phase.bare,
      Wake.label_afterPause _ level]

theorem under_finish (level : f.Level o.fresh) (s : Slot ω) (l : Live ω) (e : Exit) (error : Str) :
    under f (s.finish su o l e error) = (s.seen f).finish su (o.label f) (l.seen f) e error := by
  unfold finish
  dsimp only [Occasion.label]
  cases su.moment o.now with
  | error fault => rfl
  | ok m =>
    cases e with
    | crashed =>
      have recovered := under_recover su o level { s with
        health.running := false, health.lastExit := some .crashed, health.lastError := error,
        health.lastFinished := some m } l
      exact congrArg (fun r : Slot ω × List Event => (r.1, .ended s.current .crashed :: r.2)) recovered
    | _ => rfl

theorem under_fail (level : f.Level o.fresh) (s : Slot ω) (l : Live ω) (fault : Fault) :
    under f (s.fail su o l fault) = (s.seen f).fail su (o.label f) (l.seen f) fault := by
  cases fault with
  | cancelled => rfl
  | _ =>
    simp only [fail, ← under_finish su o level]
    rfl

/-! ### Turns -/

/-- What the services have for the words of a turn is the same after what went out before. -/
def Heeded (su₁ su₂ : Setup δ) (o₁ o₂ : Occasion) (t : Turn ω δ) : Prop :=
  ∀ out, t.next.outbound? = some out → (su₁.echo o₁.earlier out).Same (su₂.echo o₂.earlier out)

variable {su} {σ₁ σ₂ : Services δ} {τ₁ τ₂ : Ties} {o₁ o₂ : Occasion} {s₁ s₂ : Slot ω} {l₁ l₂ : Live ω}
  (level₁ : f₁.Level o₁.fresh) (level₂ : f₂.Level o₂.fresh)
include level₁ level₂

theorem finish_seen (slots : s₁.seen f₁ = s₂.seen f₂) (runs : l₁.seen f₁ = l₂.seen f₂)
    (occasions : o₁.label f₁ = o₂.label f₂) (e : Exit) (error : Str) :
    under f₁ (s₁.finish (su.serving σ₁ τ₁) o₁ l₁ e error)
      = under f₂ (s₂.finish (su.serving σ₂ τ₂) o₂ l₂ e error) := by
  rw [under_finish _ _ level₁, under_finish _ _ level₂, slots, runs, occasions]
  rfl

theorem fail_seen (slots : s₁.seen f₁ = s₂.seen f₂) (runs : l₁.seen f₁ = l₂.seen f₂)
    (occasions : o₁.label f₁ = o₂.label f₂) (fault : Fault) :
    under f₁ (s₁.fail (su.serving σ₁ τ₁) o₁ l₁ fault)
      = under f₂ (s₂.fail (su.serving σ₂ τ₂) o₂ l₂ fault) := by
  rw [under_fail _ _ level₁, under_fail _ _ level₂, slots, runs, occasions]
  rfl

theorem follow_seen (slots : s₁.seen f₁ = s₂.seen f₂) (runs : l₁.seen f₁ = l₂.seen f₂)
    (occasions : o₁.label f₁ = o₂.label f₂) {t : Turn ω δ}
    (heeded : Heeded (su.serving σ₁ τ₁) (su.serving σ₂ τ₂) o₁ o₂ t) :
    under f₁ (s₁.follow (su.serving σ₁ τ₁) o₁ l₁ t) = under f₂ (s₂.follow (su.serving σ₂ τ₂) o₂ l₂ t) := by
  obtain ⟨now, present, fresh, -⟩ := Occasion.mk.inj occasions
  have current : s₁.current = s₂.current := (congrArg Slot.current slots :)
  have waits : ∀ {phase₁ phase₂ : Phase ω} {wake₁ wake₂ : Wake}, phase₁.bare = phase₂.bare →
      wake₁.label f₁ = wake₂.label f₂ →
      (s₁.waiting l₁ phase₁ wake₁).seen f₁ = (s₂.waiting l₂ phase₂ wake₂).seen f₂ := by
    intro phase₁ phase₂ wake₁ wake₂ phases wakes
    calc
      (s₁.waiting l₁ phase₁ wake₁).seen f₁
          = (s₁.seen f₁).waiting (l₁.seen f₁) phase₁.bare (wake₁.label f₁) := rfl
      _ = (s₂.seen f₂).waiting (l₂.seen f₂) phase₂.bare (wake₂.label f₂) := by
        rw [slots, runs, phases, wakes]
  have awaits : ∀ out, t.next.outbound? = some out →
      (s₁.waiting l₁ (.awaiting t.worker ((su.serving σ₁ τ₁).echo o₁.earlier out).outcome
        ((su.serving σ₁ τ₁).echo o₁.earlier out).notes ((su.serving σ₁ τ₁).echo o₁.earlier out).abandoned)
        (.afterLatency o₁.now o₁.fresh o₁.present ((su.serving σ₁ τ₁).echo o₁.earlier out).latency)).seen f₁
      = (s₂.waiting l₂ (.awaiting t.worker ((su.serving σ₂ τ₂).echo o₂.earlier out).outcome
        ((su.serving σ₂ τ₂).echo o₂.earlier out).notes ((su.serving σ₂ τ₂).echo o₂.earlier out).abandoned)
        (.afterLatency o₂.now o₂.fresh o₂.present
          ((su.serving σ₂ τ₂).echo o₂.earlier out).latency)).seen f₂ := by
    intro out wants
    have same := heeded out wants
    refine waits ?_ ?_
    · rw [Phase.bare, Phase.bare, same.outcome]
    · rw [Wake.label_afterLatency _ level₁, Wake.label_afterLatency _ level₂, now, fresh, present,
        same.latency]
  unfold follow
  refine under_append ?_ rfl
  cases next : t.next with
  | pause span =>
    refine Prod.ext (waits rfl ?_) rfl
    rw [Wake.label_afterPause _ level₁, Wake.label_afterPause _ level₂, now, fresh]
  | hold => exact Prod.ext (waits rfl rfl) rfl
  | ask op =>
    refine Prod.ext (awaits (.asked op) (by rw [next]; rfl)) ?_
    exact congrArg (fun i => [Event.sent i (.asked op)]) current
  | post totals =>
    refine Prod.ext (awaits (.posted totals) (by rw [next]; rfl)) ?_
    exact congrArg (fun i => [Event.sent i (.posted totals)]) current
  | exit e => exact finish_seen level₁ level₂ slots runs occasions e ""
  | fail fault => exact fail_seen level₁ level₂ slots runs occasions fault

variable [Machine ω δ]

theorem launch_seen (slots : s₁.seen f₁ = s₂.seen f₂) (runs : l₁.seen f₁ = l₂.seen f₂)
    (occasions : o₁.label f₁ = o₂.label f₂)
    (heeded : ∀ w, s₁.job.build s₁.built = .ok w →
      Heeded (su.serving σ₁ τ₁) (su.serving σ₂ τ₂) o₁ o₂ (Machine.begin w)) :
    under f₁ (s₁.launch (su.serving σ₁ τ₁) o₁ l₁) = under f₂ (s₂.launch (su.serving σ₂ τ₂) o₂ l₂) := by
  have now : o₁.now = o₂.now := (congrArg Occasion.now occasions :)
  have builds : s₂.job.build s₂.built = s₁.job.build s₁.built :=
    (congrArg (fun s : Slot ω => s.job.build s.built) slots.symm :)
  unfold launch
  rw [builds]
  cases build : s₁.job.build s₁.built with
  | error fault =>
    exact congrArg (fun s : Slot ω => ({ s with built := s.built + 1 }.ended (.error fault), [])) slots
  | ok w =>
    have moment : (su.serving σ₂ τ₂).moment o₂.now = (su.serving σ₁ τ₁).moment o₁.now := by
      rw [now]
      rfl
    dsimp only
    rw [moment]
    cases (su.serving σ₁ τ₁).moment o₁.now with
    | error fault =>
      exact congrArg (fun s : Slot ω => ({ s with
        built := s.built + 1, health.running := true,
        health.runs := s.health.runs + 1 }.ended (.error fault), [])) slots
    | ok m =>
      have begun : (s₁.begun m).seen f₁ = (s₂.begun m).seen f₂ :=
        congrArg (fun s : Slot ω => s.begun m) slots
      have current : (s₁.begun m).current = (s₂.begun m).current := (congrArg Slot.current begun :)
      exact under_append (follow_seen level₁ level₂ begun runs occasions (heeded w build))
        (congrArg (fun i => [Event.began i]) current)

/-- The turn that the worker takes in the next move of a run, if it takes one. -/
def turn? (s : Slot ω) (l : Live ω) : Option (Turn ω δ) :=
  match l.phase with
  | .created => (s.job.build s.built).toOption.map Machine.begin
  | .backingOff => (s.job.build s.built).toOption.map Machine.begin
  | .resting w => some (Machine.resume w .rested)
  | .awaiting w outcome _ _ => outcome.toOption.map (Machine.resume w)

/-- The runs of two slots that are seen as the same are seen as the same after their moves, and what is
recorded of these says the same of every job. -/
theorem move_seen (slots : s₁.seen f₁ = s₂.seen f₂) (runs : l₁.seen f₁ = l₂.seen f₂)
    (occasions : o₁.label f₁ = o₂.label f₂) (quiet₁ : l₁.phase.IsQuiet) (quiet₂ : l₂.phase.IsQuiet)
    (heeded : ∀ t, s₁.turn? l₁ = some t → Heeded (su.serving σ₁ τ₁) (su.serving σ₂ τ₂) o₁ o₂ t)
    (job : String) :
    (s₁.move (su.serving σ₁ τ₁) o₁ l₁).1.seen f₁ = (s₂.move (su.serving σ₂ τ₂) o₂ l₂).1.seen f₂ ∧
      (s₁.move (su.serving σ₁ τ₁) o₁ l₁).2.filter (·.concerns job)
        = (s₂.move (su.serving σ₂ τ₂) o₂ l₂).2.filter (·.concerns job) := by
  have apart : ∀ {r₁ r₂ : Slot ω × List Event}, under f₁ r₁ = under f₂ r₂ →
      r₁.1.seen f₁ = r₂.1.seen f₂ ∧ r₁.2.filter (·.concerns job) = r₂.2.filter (·.concerns job) :=
    fun same => ⟨congrArg Prod.fst same, congrArg (fun r => r.2.filter (·.concerns job)) same⟩
  have launched : l₁.phase.isBusy = false →
      under f₁ (s₁.launch (su.serving σ₁ τ₁) o₁ l₁) = under f₂ (s₂.launch (su.serving σ₂ τ₂) o₂ l₂) := by
    intro idle
    refine launch_seen level₁ level₂ slots runs occasions fun w build => heeded _ ?_
    unfold turn?
    cases phase : l₁.phase with
    | created =>
      dsimp only
      rw [build]
      rfl
    | backingOff =>
      dsimp only
      rw [build]
      rfl
    | _ =>
      rw [phase] at idle
      cases idle
  have phases : l₁.phase.bare = l₂.phase.bare := (congrArg Live.phase runs :)
  unfold move
  cases phase₁ : l₁.phase with
  | created =>
    cases phase₂ : l₂.phase with
    | created => exact apart (launched (by rw [phase₁]; rfl))
    | _ =>
      rw [phase₁, phase₂] at phases
      cases phases
  | backingOff =>
    cases phase₂ : l₂.phase with
    | backingOff => exact apart (launched (by rw [phase₁]; rfl))
    | _ =>
      rw [phase₁, phase₂] at phases
      cases phases
  | resting w =>
    cases phase₂ : l₂.phase with
    | resting w' =>
      rw [phase₁, phase₂] at phases
      cases phases
      exact apart (follow_seen level₁ level₂ slots runs occasions (heeded _ (by rw [turn?, phase₁])))
    | _ =>
      rw [phase₁, phase₂] at phases
      cases phases
  | awaiting w outcome notes₁ abandoned₁ =>
    cases phase₂ : l₂.phase with
    | awaiting w' outcome' notes₂ abandoned₂ =>
      rw [phase₁, phase₂] at phases
      rw [phase₁] at quiet₁
      rw [phase₂] at quiet₂
      cases phases
      have current : s₁.current = s₂.current := (congrArg Slot.current slots :)
      have heard : ∀ {r₁ r₂ : Slot ω × List Event}, under f₁ r₁ = under f₂ r₂ →
          r₁.1.seen f₁ = r₂.1.seen f₂ ∧
            (notes₁.map Event.note ++ .heard s₁.current outcome :: r₁.2).filter (·.concerns job)
              = (notes₂.map Event.note ++ .heard s₂.current outcome :: r₂.2).filter (·.concerns job) := by
        intro r₁ r₂ same
        rw [List.filter_append, List.filter_append, Event.filter_notes quiet₁, Event.filter_notes quiet₂]
        have both := under_append same (congrArg (fun i => [Event.heard i outcome]) current)
        exact ⟨(apart same).1, (apart both).2⟩
      cases outcome with
      | error fault => exact heard (fail_seen level₁ level₂ slots runs occasions fault)
      | ok reply =>
        have resumed : s₁.turn? l₁ = some (Machine.resume w reply) := by
          rw [turn?, phase₁]
          rfl
        exact heard (follow_seen level₁ level₂ slots runs occasions (heeded _ resumed))
    | _ =>
      rw [phase₁, phase₂] at phases
      cases phases

end

end Slot

end Supervisor

end Settler
