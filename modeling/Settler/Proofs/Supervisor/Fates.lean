import Settler.Proofs.Journal.Counters
import Settler.Proofs.Supervisor.Course

/-!
What an act does to the slot of one job, with all that it records.

Each act is one of few things to a slot (`State.Fate`): a move of its own run or of another one, a trigger
of its own job or of another one, or a change that says nothing of any run. A property of a job's slot and
the journal that survives each of these (`State.Keeps`) holds as long as nothing is stopped.
-/

namespace Settler.Supervisor

open Settler.Calendar Relation

variable {ω δ : Type}

/-- While the clock is in the calendar, it was so before. -/
theorem Setup.moment_of_later {su : Setup δ} {now later : Instant} (le : now ≤ later) {m' : Moment}
    (clock : su.moment later = .ok m') : ∃ m, su.moment now = .ok m := by
  have inRange : ∀ {time : Instant},
      (∃ m, su.moment time = .ok m) ↔ Moment.staysInRange su.origin.wall time = true := by
    intro time
    unfold Setup.moment Moment.add?
    cases Moment.staysInRange su.origin.wall time <;> simp
  have late := inRange.mp ⟨m', clock⟩
  rw [inRange]
  have le : (now : Int) ≤ later := by exact_mod_cast le
  simp only [Moment.staysInRange, Bool.and_eq_true, decide_eq_true_eq] at late ⊢
  omega

/-! ### What is waited for -/

/-- What is waited for is what the services have for something that goes out. -/
def Phase.Echoes (su : Setup δ) : Phase ω → Prop
  | .awaiting _ outcome notes abandoned => ∃ earlier out,
      outcome = (su.echo earlier out).outcome ∧ notes = (su.echo earlier out).notes ∧
        abandoned = (su.echo earlier out).abandoned
  | _ => True

namespace Slot

/-- The run waits for nothing but what the services have for it. -/
def Echoed (su : Setup δ) (t : Slot ω) : Prop := ∀ l, t.live? = some l → l.phase.Echoes su

theorem echoed_of_not_live {su : Setup δ} {t : Slot ω} (dead : t.live? = none) : t.Echoed su := by
  intro l live
  rw [dead] at live
  cases live

theorem echoed_waiting {su : Setup δ} (s : Slot ω) (l : Live ω) (phase : Phase ω) (wake : Wake)
    (echoes : phase.Echoes su) : (s.waiting l phase wake).Echoed su := by
  intro k live
  cases live
  exact echoes

variable [Seconds δ] {su : Setup δ} {o : Occasion} {m : Moment} {s s' : Slot ω} {l : Live ω}
  {events : List Event}

theorem Closes.echoed {ending : Ending} (closes : Closes su o m s l ending s' events) :
    s'.Echoed su := by
  cases closes with
  | told => exact echoed_of_not_live rfl
  | exits final => exact echoed_of_not_live rfl
  | restarts untold crash granted => exact echoed_waiting _ _ _ _ trivial
  | givesUp untold crash refused => exact echoed_of_not_live rfl

theorem Goes.echoed {t : Turn ω δ} (goes : Goes su o m s l t s' events) : s'.Echoed su := by
  cases goes with
  | rests rest => exact echoed_waiting _ _ _ _ trivial
  | awaits wants => exact echoed_waiting _ _ _ _ ⟨o.earlier, _, rfl, rfl, rfl⟩
  | ends ending_eq closes => exact closes.echoed

theorem Moves.echoed [Machine ω δ] (moves : Moves su o m s l s' events) : s'.Echoed su := by
  cases moves with
  | unbuilt fresh build => exact echoed_of_not_live rfl
  | launched fresh build goes => exact goes.echoed
  | resumed hears goes => exact goes.echoed
  | failed phase closes => exact closes.echoed

end Slot

/-- The next turn of a worker at work is one that its talk comes to. -/
theorem Slot.Documented.talk_hears [Machine ω δ] {j : Journal} {s : Slot ω} (h : s.Documented j)
    {l : Live ω} (live : s.live? = some l) {w : ω} {r : Reply} {events : List Event}
    (hears : s.Hears l w r events) : ∃ w₀ i xs, s.job.build (s.built - 1) = .ok w₀ ∧
      Talk i (Machine.begin w₀) xs (Machine.resume w r) := by
  cases hears with
  | rested phase =>
    obtain ⟨-, w₀, build, fits⟩ := h.atWork l live (by rw [phase]; rfl)
    rw [phase] at fits
    cases fits with
    | resting talk rest => exact ⟨w₀, _, _, build, talk.rested rest⟩
  | heard phase =>
    obtain ⟨-, w₀, build, fits⟩ := h.atWork l live (by rw [phase]; rfl)
    rw [phase] at fits
    cases fits with
    | awaiting talk wants split fits => exact ⟨w₀, _, _, build, talk.replied wants (fits _ rfl)⟩

/-! ### What a move records -/

/-- A note that a worker of the job may leave. -/
def Job.Leaves [Machine ω δ] (job : Job ω) (n : Note) : Prop :=
  ∃ number w i xs t, job.build number = .ok w ∧ Talk i (Machine.begin w) xs t ∧ n ∈ t.notes

/-- A note that the services may leave when an outcome comes in. -/
def Setup.Leaves (su : Setup δ) (n : Note) : Prop := ∃ earlier out, n ∈ (su.echo earlier out).notes

/-- An event that is no note, belongs to no history but that of the job, and speaks of no instance of
another. -/
structure IsOwn (job : String) (e : Event) : Prop where
  token : e.token? = none
  subject : ∀ name, e.subject? = some name → name = job
  speaker : ∀ i, e.speaker? = some i → i.job = job

theorem own_cry (job : String) (ending : Ending) (i : Instance) : ∀ e ∈ ending.cry i, IsOwn job e := by
  cases ending with
  | exit e => exact List.forall_mem_nil _
  | fault f => exact List.forall_mem_singleton.mpr ⟨rfl, nofun, nofun⟩

namespace Slot

theorem own_ended (s : Slot ω) (e : Exit) : IsOwn s.job.name (.ended s.current e) where
  token := rfl
  subject := by
    rintro name ⟨⟩
    rfl
  speaker := nofun

theorem Echoed.leaves {su : Setup δ} {s : Slot ω} (echoed : s.Echoed su) {l : Live ω}
    (live : s.live? = some l) {w : ω} {outcome : Except Fault Reply} {notes abandoned : List Note}
    (phase : l.phase = .awaiting w outcome notes abandoned) : ∀ n ∈ notes, su.Leaves n := by
  intro n mem
  have echoes := echoed l live
  rw [phase] at echoes
  obtain ⟨earlier, out, -, same, -⟩ := echoes
  exact ⟨earlier, out, same ▸ mem⟩

variable [Seconds δ] {su : Setup δ} {o : Occasion} {m : Moment} {s s' : Slot ω} {l : Live ω}
  {events : List Event}

theorem Closes.job {ending : Ending} (closes : Closes su o m s l ending s' events) : s'.job = s.job := by
  cases closes <;> rfl

theorem Goes.job {t : Turn ω δ} (goes : Goes su o m s l t s' events) : s'.job = s.job := by
  cases goes with
  | rests rest => rfl
  | awaits wants => rfl
  | ends ends closes => exact closes.job

theorem Moves.job [Machine ω δ] (moves : Moves su o m s l s' events) : s'.job = s.job := by
  cases moves with
  | unbuilt fresh build => rfl
  | launched fresh build goes => exact goes.job
  | resumed hears goes => exact goes.job
  | failed phase closes => exact closes.job

/-- What is recorded of an ending says nothing of the talk. -/
theorem Closes.silent {ending : Ending} (closes : Closes su o m s l ending s' events) :
    ∀ e ∈ events, e.speaker? = none := by
  have cried : ∀ e ∈ ending.cry s.current, e.speaker? = none := by
    cases ending <;> simp [Ending.cry, Event.speaker?]
  cases closes with
  | told => exact List.forall_mem_nil _
  | exits final => exact List.forall_mem_singleton.mpr rfl
  | restarts untold crash granted => exact List.forall_mem_append.mpr ⟨cried, by simp [Event.speaker?]⟩
  | givesUp untold crash refused => exact List.forall_mem_append.mpr ⟨cried, by simp [Event.speaker?]⟩

theorem Closes.own {ending : Ending} (closes : Closes su o m s l ending s' events) :
    ∀ e ∈ events, IsOwn s.job.name e := by
  cases closes with
  | told => exact List.forall_mem_nil _
  | exits final => exact List.forall_mem_singleton.mpr (own_ended s _)
  | restarts untold crash granted =>
    refine List.forall_mem_append.mpr ⟨own_cry _ ending _, List.forall_mem_cons.mpr ⟨own_ended s _, ?_⟩⟩
    exact List.forall_mem_singleton.mpr ⟨rfl, nofun, nofun⟩
  | givesUp untold crash refused =>
    refine List.forall_mem_append.mpr ⟨own_cry _ ending _, List.forall_mem_cons.mpr ⟨own_ended s _, ?_⟩⟩
    refine List.forall_mem_singleton.mpr ⟨rfl, ?_, nofun⟩
    rintro name ⟨⟩
    rfl

theorem Goes.own {t : Turn ω δ} (goes : Goes su o m s l t s' events) :
    ∀ e ∈ events, IsOwn s.job.name e := by
  cases goes with
  | rests rest => exact List.forall_mem_nil _
  | awaits wants =>
    refine List.forall_mem_singleton.mpr ⟨rfl, nofun, ?_⟩
    rintro i ⟨⟩
    rfl
  | ends ends closes => exact closes.own

variable [Machine ω δ]

/-- All that a move records is the job's own, or a note of its worker or of the services. -/
theorem Moves.records {j : Journal} (documented : s.Documented j) (echoed : s.Echoed su)
    (live : s.live? = some l) (moves : Moves su o m s l s' events) :
    ∀ e ∈ events, IsOwn s.job.name e ∨ ∃ n, e = .note n ∧ (s.job.Leaves n ∨ su.Leaves n) := by
  have noted : ∀ {notes : List Note}, (∀ n ∈ notes, s.job.Leaves n ∨ su.Leaves n) →
      ∀ e ∈ notes.map Event.note,
        IsOwn s.job.name e ∨ ∃ n, e = .note n ∧ (s.job.Leaves n ∨ su.Leaves n) := by
    intro notes left e mem
    obtain ⟨n, listed, rfl⟩ := List.mem_map.mp mem
    exact .inr ⟨n, rfl, left n listed⟩
  cases moves with
  | unbuilt fresh build => exact List.forall_mem_nil _
  | @launched w s' events fresh build goes =>
    refine List.forall_mem_append.mpr ⟨?_, List.forall_mem_append.mpr ⟨noted ?_, ?_⟩⟩
    · refine List.forall_mem_singleton.mpr (.inl ⟨rfl, ?_, ?_⟩)
      · rintro name ⟨⟩
        rfl
      · rintro i ⟨⟩
        rfl
    · exact fun n mem => .inl ⟨_, w, s.current, _, _, build, .begin, mem⟩
    · exact fun e mem => .inl (goes.own e mem)
  | @resumed w r s' before events hears goes =>
    obtain ⟨w₀, i, xs, build, talk⟩ := documented.talk_hears live hears
    refine List.forall_mem_append.mpr ⟨?_, List.forall_mem_append.mpr ⟨noted ?_, ?_⟩⟩
    · cases hears with
      | rested phase => exact List.forall_mem_nil _
      | heard phase =>
        refine List.forall_mem_append.mpr ⟨noted fun n mem => .inr (echoed.leaves live phase n mem), ?_⟩
        refine List.forall_mem_singleton.mpr (.inl ⟨rfl, nofun, ?_⟩)
        rintro i ⟨⟩
        rfl
    · exact fun n mem => .inl ⟨_, w₀, i, xs, _, build, talk, mem⟩
    · exact fun e mem => .inl (goes.own e mem)
  | failed phase closes =>
    refine List.forall_mem_append.mpr ⟨noted fun n mem => .inr (echoed.leaves live phase n mem), ?_⟩
    refine List.forall_mem_cons.mpr ⟨.inl ⟨rfl, nofun, ?_⟩, fun e mem => .inl (closes.own e mem)⟩
    rintro i ⟨⟩
    rfl

end Slot

namespace State

variable [Machine ω δ] [Seconds δ] (su : Setup δ) (m : Moment)

/-- What an act other than a stop does to one slot, and all that it records. -/
inductive Fate (s : State ω) (t : Slot ω) : Slot ω → List Event → Prop where
  /-- Its live run makes its next move. -/
  | moved {l : Live ω} {present : Nat} {t' : Slot ω} {events : List Event} (live : t.live? = some l)
      (moves : t.Moves su ⟨s.now, present, s.turn, s.journal.outbound⟩ m l t' events) :
      Fate s t t' events
  /-- The run of another job makes its next move. -/
  | other {u u' : Slot ω} {l : Live ω} {present : Nat} {events : List Event} (mem : u ∈ s.slots)
      (ne : u.job.name ≠ t.job.name) (live : u.live? = some l)
      (moves : u.Moves su ⟨s.now, present, s.turn, s.journal.outbound⟩ m l u' events) :
      Fate s t t events
  /-- Its job is triggered. -/
  | attempted {t' : Slot ω} {reason : String} (tried : t.Attempted su t') :
      Fate s t t' [.triggered t.job.name reason (!t.isRunning)]
  /-- Another job is triggered. -/
  | otherAttempted {name reason : String} {accepted : Bool} (ne : name ≠ t.job.name) :
      Fate s t t [.triggered name reason accepted]
  /-- Its next run is looked up. -/
  | refreshed (nextRun : Option Moment) : Fate s t { t with health.nextRun := nextRun } []
  /-- The clock comes to an instant. -/
  | arrived (turn : Mover → Nat → Nat) (now : Instant) : Fate s t (arriveSlot turn now t) []
  | left : Fate s t t []
  | noteTick : Fate s t t [.tickFailed]
  | noteStart {names : List String} : Fate s t t [.started names]

variable {su m} {s s' : State ω} {name : String} {t : Slot ω}

theorem Fate.job {t' : Slot ω} {events : List Event} (fate : Fate su m s t t' events) :
    t'.job = t.job := by
  cases fate with
  | moved live moves => exact moves.job
  | attempted tried => exact tried.job
  | arrived turn now => exact (Slot.alike_arrive turn now t).job
  | _ => rfl

/-- All that an act records says nothing of what workers count, or is a note of a worker or of the
services. -/
theorem Fate.records {jobs : List (Job ω)} {t' : Slot ω} {events : List Event}
    (fate : Fate su m s t t' events) (mem : t ∈ s.slots) (documented : s.Documented jobs)
    (echoed : ∀ u ∈ s.slots, u.Echoed su) : ∀ e ∈ events, e.token? = none ∨
      ∃ n, e = .note n ∧ ((∃ job ∈ jobs, job.Leaves n) ∨ su.Leaves n) := by
  have moved : ∀ {u u' : Slot ω} {o : Slot.Occasion} {l : Live ω}, u ∈ s.slots → u.live? = some l →
      u.Moves su o m l u' events → ∀ e ∈ events, e.token? = none ∨
        ∃ n, e = .note n ∧ ((∃ job ∈ jobs, job.Leaves n) ∨ su.Leaves n) := by
    intro u u' o l listed live moves e recorded
    rcases moves.records (documented.slots u listed) (echoed u listed) live e recorded with
      own | ⟨n, same, left⟩
    · exact .inl own.token
    · have job : u.job ∈ jobs := documented.inOrder ▸ List.mem_map.mpr ⟨u, listed, rfl⟩
      exact .inr ⟨n, same, left.imp_left fun left => ⟨u.job, job, left⟩⟩
  have silent : ∀ {e : Event}, events = [e] → e.token? = none → ∀ e ∈ events, e.token? = none ∨
      ∃ n, e = .note n ∧ ((∃ job ∈ jobs, job.Leaves n) ∨ su.Leaves n) := by
    rintro e rfl token
    exact List.forall_mem_singleton.mpr (.inl token)
  cases fate with
  | moved live moves => exact moved mem live moves
  | other listed ne live moves => exact moved listed live moves
  | attempted tried => exact silent rfl rfl
  | otherAttempted ne => exact silent rfl rfl
  | noteTick => exact silent rfl rfl
  | noteStart => exact silent rfl rfl
  | _ => exact List.forall_mem_nil _

/-- No event that an act records speaks of an instance but one of the jobs. -/
theorem Fate.speakers {jobs : List (Job ω)} {t' : Slot ω} {events : List Event}
    (fate : Fate su m s t t' events) (mem : t ∈ s.slots) (documented : s.Documented jobs)
    (echoed : ∀ u ∈ s.slots, u.Echoed su) :
    ∀ e ∈ events, ∀ i, e.speaker? = some i → i.job ∈ jobs.map (·.name) := by
  have moved : ∀ {u u' : Slot ω} {o : Slot.Occasion} {l : Live ω}, u ∈ s.slots → u.live? = some l →
      u.Moves su o m l u' events → ∀ e ∈ events, ∀ i, e.speaker? = some i →
        i.job ∈ jobs.map (·.name) := by
    intro u u' o l listed live moves e recorded i speaker
    rcases moves.records (documented.slots u listed) (echoed u listed) live e recorded with
      own | ⟨n, rfl, -⟩
    · have job : u.job ∈ jobs := documented.inOrder ▸ List.mem_map.mpr ⟨u, listed, rfl⟩
      exact List.mem_map.mpr ⟨u.job, job, (own.speaker i speaker).symm⟩
    · cases speaker
  cases fate with
  | moved live moves => exact moved mem live moves
  | other listed ne live moves => exact moved listed live moves
  | attempted tried => exact List.forall_mem_singleton.mpr nofun
  | otherAttempted ne => exact List.forall_mem_singleton.mpr nofun
  | noteTick => exact List.forall_mem_singleton.mpr nofun
  | noteStart => exact List.forall_mem_singleton.mpr nofun
  | _ => exact List.forall_mem_nil _

/-- The slot of a job after an act, and what the act recorded. -/
def Fated (su : Setup δ) (m : Moment) (s s' : State ω) (name : String) (t : Slot ω) : Prop :=
  ∃ t' events, s'.slot? name = some t' ∧ s'.journal = s.journal.record s.now events ∧
    Fate su m s t t' events

/-- An act that records nothing. -/
theorem fated_silent {t' : Slot ω} (found' : s'.slot? name = some t') (journal : s'.journal = s.journal)
    (fate : Fate su m s t t' []) : Fated su m s s' name t :=
  ⟨t', [], found', journal, fate⟩

theorem fated_deed (found : s.slot? name = some t) (deed : Deed su s s') : Fated su m s s' name t := by
  cases deed with
  | @fire name₀ t₀ reason found₀ =>
    obtain ⟨t₁, turn, tried, fired⟩ := fire_spec su reason s t₀
    rw [fired]
    have named := name_of_slot found
    have named₀ := name_of_slot found₀
    by_cases same : name₀ = name
    · subst same
      obtain rfl := Option.some.inj (found₀.symm.trans found)
      refine ⟨t₁, _, slot_put_self (s := { s with turn }) found (by rw [tried.job, named]), rfl, ?_⟩
      exact .attempted tried
    · have other : t₁.job.name ≠ name := by rwa [tried.job, named₀]
      refine ⟨t, _, (slot_put_of_ne other).trans found, rfl, .otherAttempted ?_⟩
      rwa [named, named₀]
  | refresh after =>
    obtain ⟨nextRun, found'⟩ := slot_refresh after found
    exact fated_silent found' rfl (.refreshed nextRun)
  | mark own => exact fated_silent found rfl .left

theorem fated_motion (found : s.slot? name = some t) (clock : su.moment s.now = .ok m)
    (motion : Motion su s s') : Fated su m s s' name t := by
  cases motion with
  | @move name₀ t₀ l present first found₀ live =>
    have moves := Slot.moves_move (o := ⟨s.now, present, s.turn, s.journal.outbound⟩) clock t₀ l
    have own := Slot.own_move su ⟨s.now, present, s.turn, s.journal.outbound⟩ t₀ l
    have named := name_of_slot found
    have named₀ := name_of_slot found₀
    unfold moveJob
    generalize t₀.move su ⟨s.now, present, s.turn, s.journal.outbound⟩ l = r at moves own
    obtain ⟨t₁, events⟩ := r
    have job : t₁.job = t₀.job := own.job
    by_cases same : name₀ = name
    · subst same
      obtain rfl := Option.some.inj (found₀.symm.trans found)
      refine ⟨t₁, events, ?_, rfl, .moved live moves⟩
      exact slot_put_self (s := { s with turn := s.turn + 1 }) found (by rw [job, named])
    · have other : t₁.job.name ≠ name := by rwa [job, named₀]
      refine ⟨t, events, (slot_put_of_ne other).trans found, rfl, ?_⟩
      exact .other (mem_of_slot found₀) (by rwa [named, named₀]) live moves
  | @arrive time idle least =>
    let turn := su.ties.turn (max s.now time) s.turn
    have found' := slot_map s (fun t => (Slot.alike_arrive turn (max s.now time) t).job) name
    rw [found] at found'
    exact fated_silent found' rfl (.arrived turn _)
  | elapse idle early => exact fated_silent found rfl .left

/-- What an act other than a stop does to the slot of a job is one of few things. -/
theorem fated_going (found : s.slot? name = some t) (clock : su.moment s.now = .ok m)
    (going : Going su s s') : Fated su m s s' name t := by
  cases going with
  | deed deed => exact fated_deed found deed
  | motion motion => exact fated_motion found clock motion
  | openLoop closed => exact fated_silent found rfl .left
  | turnLoop live => exact fated_silent found rfl .left
  | noteTick => exact ⟨t, _, found, rfl, .noteTick⟩
  | noteStart => exact ⟨t, _, found, rfl, .noteStart⟩

/-! ### What every act keeps -/

theorem now_le_of_going (going : Going su s s') : s.now ≤ s'.now := by
  cases going with
  | deed deed => exact Nat.le_of_eq (frame_of_deeds su (.single deed)).2.symm
  | motion motion =>
    cases motion with
    | move first found live => exact Nat.le_refl _
    | arrive idle least => exact Nat.le_max_left _ _
    | elapse idle early => exact Nat.le_max_left _ _
  | openLoop closed => exact Nat.le_refl _
  | turnLoop live => exact Nat.le_refl _
  | noteTick => exact Nat.le_refl _
  | noteStart => exact Nat.le_refl _

theorem now_le_of_act (act : Act su s s') : s.now ≤ s'.now := by
  rcases act.going_or_stop with going | rfl
  · exact now_le_of_going going
  · exact Nat.le_refl _

variable {jobs : List (Job ω)} {P : Journal → Slot ω → Prop} {st : State ω}

theorem forall_slots_ofJobs (made : ofJobs jobs = .ok st) (fresh : ∀ job ∈ jobs, P [] { job }) :
    ∀ t ∈ st.slots, P st.journal t := by
  unfold ofJobs at made
  split at made
  · cases made
  · cases made
    intro t mem
    obtain ⟨job, listed, rfl⟩ := List.mem_map.mp mem
    exact fresh job listed

/-- A property of a slot and the journal that every act other than a stop keeps, if all slots have it. -/
def Keeps (su : Setup δ) (jobs : List (Job ω)) (P : Journal → Slot ω → Prop) : Prop :=
  ∀ ⦃s : State ω⦄ ⦃t t' : Slot ω⦄ ⦃m : Moment⦄ ⦃events : List Event⦄, s.Documented jobs →
    (∀ u ∈ s.slots, P s.journal u) → t ∈ s.slots → Fate su m s t t' events →
    P (s.journal.record s.now events) t'

namespace Keeps

variable (keeps : Keeps su jobs P)
include keeps

theorem going (documented : s.Documented jobs) (clock : su.moment s.now = .ok m)
    (going : Going su s s') (all : ∀ t ∈ s.slots, P s.journal t) : ∀ t ∈ s'.slots, P s'.journal t := by
  intro t' mem'
  have act := going.act su
  have found' := slot_of_mem (documented.step su (act.step su)).nodup_slots mem'
  have named : t'.job.name ∈ s.names :=
    documented.names_act act ▸ List.mem_map.mpr ⟨t', mem', rfl⟩
  obtain ⟨t, found⟩ := mem_names_iff.mp named
  obtain ⟨t₁, events, found₁, journal, fate⟩ := fated_going found clock going
  obtain rfl := Option.some.inj (found'.symm.trans found₁)
  rw [journal]
  exact keeps documented all (mem_of_slot found) fate

/-- What every act other than a stop keeps holds as long as nothing is stopped. -/
theorem goings (made : ofJobs jobs = .ok st) (fresh : ∀ job ∈ jobs, P [] { job })
    (goings : Goings su st s) (clock : su.moment s.now = .ok m) : ∀ t ∈ s.slots, P s.journal t := by
  induction goings generalizing m with
  | refl => exact forall_slots_ofJobs made fresh
  | tail before going ih =>
    obtain ⟨m₀, clock₀⟩ := Setup.moment_of_later (now_le_of_going going) clock
    exact keeps.going (documented_acts made (acts_of_goings su before)) clock₀ going (ih clock₀)

/-- What a stop keeps too always holds. -/
theorem acts (made : ofJobs jobs = .ok st) (fresh : ∀ job ∈ jobs, P [] { job })
    (stops : ∀ {s : State ω}, (∀ t ∈ s.slots, P s.journal t) → ∀ t ∈ s.slots, P s.stop.journal (stopped t))
    (acts : Acts su st s) (clock : su.moment s.now = .ok m) : ∀ t ∈ s.slots, P s.journal t := by
  induction acts generalizing m with
  | refl => exact forall_slots_ofJobs made fresh
  | @tail s₁ s₂ before act ih =>
    obtain ⟨m₀, clock₀⟩ := Setup.moment_of_later (now_le_of_act act) clock
    rcases act.going_or_stop with going | rfl
    · exact keeps.going (documented_acts made before) clock₀ going (ih clock₀)
    · intro t mem
      obtain ⟨t₀, mem₀, rfl⟩ := List.mem_map.mp mem
      exact stops (ih clock₀) t₀ mem₀

end Keeps

theorem keeps_echoed : Keeps su jobs fun _ t => t.Echoed su := by
  intro s t t' m events documented all mem fate
  have echoed := all t mem
  cases fate with
  | moved live moves => exact moves.echoed
  | other mem ne live moves => exact echoed
  | attempted tried =>
    cases tried with
    | skipped running => exact echoed
    | started idle turn place =>
      intro l live
      cases live
      trivial
  | otherAttempted ne => exact echoed
  | refreshed nextRun => exact echoed
  | arrived turn now =>
    unfold arriveSlot
    split
    · next l run =>
      intro k live
      cases live
      exact echoed l (Slot.live_iff.mpr run)
    · exact echoed
  | left => exact echoed
  | noteTick => exact echoed
  | noteStart => exact echoed

end State

end Settler.Supervisor
