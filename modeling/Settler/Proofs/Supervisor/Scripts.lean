import Mathlib.Data.List.Nodup
import Settler.Proofs.Supervisor.Transcript

/-!
Every script leaves the talk of all jobs documented.

One job moves at a time. What it does is on behalf of its own instances (`Slot.Own`), so it leaves
alone what is documented of the other slots; and no other change of the state says anything of the
talk or touches a worker (`Slot.Alike`).
-/

namespace Settler.Supervisor

open Settler.Calendar

variable {ω δ : Type}

namespace Slot

/-! ### Whose behalf a move is on -/

/-- A move that is made on behalf of the slot's own job. -/
structure Own (s : Slot ω) (r : Slot ω × List Event) : Prop where
  job : r.1.job = s.job
  speakers : ∀ e ∈ r.2, ∀ i, e.speaker? = some i → i.job = s.job.name

theorem Quiet.own {s : Slot ω} {r : Slot ω × List Event} (h : Quiet s r) : Own s r where
  job := h.job
  speakers := by
    intro e he i speaker
    rw [h.silent e he] at speaker
    cases speaker

/-- Events of the job may come first. -/
theorem Own.append {s : Slot ω} {r : Slot ω × List Event} (h : Own s r) {events : List Event}
    (speakers : ∀ e ∈ events, ∀ i, e.speaker? = some i → i.job = s.job.name) :
    Own s (r.1, events ++ r.2) where
  job := h.job
  speakers := by
    intro e he
    rcases List.mem_append.mp he with he | he
    · exact speakers e he
    · exact h.speakers e he

theorem own_notes (name : String) (notes : List Note) :
    ∀ e ∈ notes.map Event.note, ∀ i, e.speaker? = some i → i.job = name := by
  intro e he i speaker
  obtain ⟨n, -, rfl⟩ := List.mem_map.mp he
  cases speaker

section

variable [Seconds δ] (su : Setup δ) (o : Occasion)

theorem own_follow (s : Slot ω) (l : Live ω) (t : Turn ω δ) : Own s (s.follow su o l t) := by
  have sends : ∀ (u : Slot ω) (b : Outbound), u.job = s.job → Own s (u, [.sent s.current b]) := by
    intro u b job
    refine ⟨job, ?_⟩
    intro e he i speaker
    obtain rfl := List.mem_singleton.mp he
    cases speaker
    rfl
  have rests : ∀ u : Slot ω, u.job = s.job → Own s (u, []) := fun u job => ⟨job, by simp⟩
  unfold follow
  refine Own.append ?_ (own_notes s.job.name t.notes)
  cases t.next with
  | pause span => exact rests _ rfl
  | hold => exact rests _ rfl
  | ask op => exact sends _ _ rfl
  | post totals => exact sends _ _ rfl
  | exit e => exact (quiet_finish su o s l e "").own
  | fail f => exact (quiet_fail su o s l f).own

variable [Machine ω δ]

theorem own_launch (s : Slot ω) (l : Live ω) : Own s (s.launch su o l) := by
  unfold launch
  cases s.job.build s.built with
  | error f => exact ⟨rfl, by simp⟩
  | ok w =>
    dsimp only
    cases su.moment o.now with
    | error f => exact ⟨rfl, by simp⟩
    | ok m =>
      have followed := own_follow su o { s with
        built := s.built + 1, health.running := true, health.runs := s.health.runs + 1,
        health.lastStarted := some m } l (Machine.begin w)
      refine ⟨followed.job, ?_⟩
      intro e he i speaker
      rcases List.mem_cons.mp he with rfl | he
      · cases speaker
        rfl
      · exact followed.speakers e he i speaker

/-- A move is made on behalf of the job whose slot it is. -/
theorem own_move (s : Slot ω) (l : Live ω) : Own s (s.move su o l) := by
  unfold move
  cases l.phase with
  | created => exact own_launch su o s l
  | backingOff => exact own_launch su o s l
  | resting w => exact own_follow su o s l _
  | awaiting w outcome notes abandoned =>
    have heard : ∀ r : Slot ω × List Event, Own s r →
        Own s (r.1, notes.map Event.note ++ .heard s.current outcome :: r.2) := by
      intro r own
      refine Own.append (r := (r.1, .heard s.current outcome :: r.2)) ⟨own.job, ?_⟩ (own_notes _ _)
      intro e he i speaker
      rcases List.mem_cons.mp he with rfl | he
      · cases speaker
        rfl
      · exact own.speakers e he i speaker
    cases outcome with
    | error f => exact heard _ (quiet_fail su o s l f).own
    | ok r => exact heard _ (own_follow su o s l _)

end

/-! ### Changes that leave the workers alone -/

/-- The slots have the same job and built as many workers, and the second is at work only in a
phase that the first is in. -/
structure Alike (s t : Slot ω) : Prop where
  job : t.job = s.job
  built : t.built = s.built
  phase : ∀ l, t.live? = some l → l.phase.isBusy → ∃ k, s.live? = some k ∧ k.phase = l.phase

theorem Alike.refl (s : Slot ω) : Alike s s := ⟨rfl, rfl, fun l hl _ => ⟨l, hl, rfl⟩⟩

theorem alike_arrive (turn : Mover → Nat → Nat) (now : Instant) (s : Slot ω) :
    Alike s (State.arriveSlot turn now s) := by
  unfold State.arriveSlot
  split
  · next l run =>
    refine ⟨rfl, rfl, ?_⟩
    intro k hk _
    cases hk
    exact ⟨l, by rw [live?, run], rfl⟩
  · exact .refl s

theorem alike_stopped (s : Slot ω) : Alike s (State.stopped s) := by
  refine ⟨rfl, rfl, ?_⟩
  intro l hl _
  cases hl

theorem alike_refresh {after : Moment} {s t : Slot ω} (h : State.refreshSlot after s = .ok t) :
    Alike s t := by
  unfold State.refreshSlot at h
  split at h
  · cases h
    exact .refl s
  · next schedule _ =>
    cases found : schedule.nextAfter after with
    | error f =>
      rw [found] at h
      cases h
    | ok m =>
      rw [found] at h
      cases h
      exact ⟨rfl, rfl, fun l hl _ => ⟨l, hl, rfl⟩⟩

variable [Machine ω δ]

/-- What is documented of a slot is so of one that is alike. -/
theorem Alike.documented {j : Journal} {s t : Slot ω} (alike : Alike s t)
    (h : s.Documented j) : t.Documented j where
  recorded := by
    rw [alike.job, alike.built]
    exact h.recorded
  atWork := by
    intro l hl busy
    obtain ⟨k, hk, phase⟩ := alike.phase l hl busy
    obtain ⟨last, fits⟩ := h.atWork k hk (phase ▸ busy)
    have current : t.current = s.current := by rw [current, current, alike.job, alike.built]
    refine ⟨?_, ?_⟩
    · rw [alike.job, current]
      exact last
    · rw [alike.job, alike.built, current, ← phase]
      exact fits

/-- Events that speak of no instance of the job leave alone what is documented of its slot. -/
theorem Documented.frame {j : Journal} {s : Slot ω} (h : s.Documented j) (time : Instant)
    {events : List Event}
    (others : ∀ e ∈ events, ∀ i, e.speaker? = some i → i.job ≠ s.job.name) :
    s.Documented (j.record time events) := by
  have exchanges : (j.record time events).exchangesFor s.job.name = j.exchangesFor s.job.name :=
    Journal.filter_exchanges_record (fun i => decide (i.job = s.job.name)) j time
      fun e he i speaker => decide_eq_false (others e he i speaker)
  have instances : (j.record time events).instances s.job.name = j.instances s.job.name := by
    rw [Journal.instances_record, List.filterMap_eq_nil_iff.mpr, List.append_nil]
    exact fun e he => Event.began_of_speaker_ne (others e he)
  have own : (j.record time events).exchangesOf s.current = j.exchangesOf s.current := by
    rw [Journal.exchangesOf_eq_filter, Journal.exchangesOf_eq_filter]
    exact congrArg _ exchanges
  refine ⟨h.recorded.congr exchanges instances, ?_⟩
  intro l hl busy
  obtain ⟨last, fits⟩ := h.atWork l hl busy
  refine ⟨?_, ?_⟩
  · rw [instances]
    exact last
  · rw [own]
    exact fits

end Slot

/-! ### States -/

namespace State

/-- The slots are those of the jobs, what is on record of each is documented, and nothing went out
but on behalf of a job. -/
structure Documented [Machine ω δ] (jobs : List (Job ω)) (s : State ω) : Prop where
  inOrder : s.slots.map (·.job) = jobs
  distinct : (jobs.map (·.name)).Nodup
  slots : ∀ t ∈ s.slots, t.Documented s.journal
  owners : ∀ x ∈ s.journal.exchanges, x.owner.job ∈ jobs.map (·.name)

theorem nodup_of_repeated {before names : List String} (h : repeated? before names = none) :
    names.Nodup ∧ ∀ n ∈ names, n ∉ before := by
  induction names generalizing before with
  | nil => exact ⟨List.nodup_nil, by simp⟩
  | cons n rest ih =>
    rw [repeated?] at h
    split at h
    · cases h
    · next new =>
      obtain ⟨nodup, fresh⟩ := ih h
      refine ⟨List.nodup_cons.mpr ⟨?_, nodup⟩, ?_⟩
      · exact fun mem => fresh n mem List.mem_cons_self
      · intro m hm
        rcases List.mem_cons.mp hm with rfl | hm
        · simpa using new
        · exact fun mem => fresh m hm (List.mem_cons_of_mem _ mem)

theorem repeated_eq_none_of_nodup {before names : List String} (nodup : names.Nodup)
    (fresh : ∀ n ∈ names, n ∉ before) : repeated? before names = none := by
  induction names generalizing before with
  | nil => rfl
  | cons n rest ih =>
    obtain ⟨new, nodup⟩ := List.nodup_cons.mp nodup
    obtain ⟨here, there⟩ := List.forall_mem_cons.mp fresh
    rw [repeated?, if_neg (by simpa using here)]
    refine ih nodup fun m mem => List.not_mem_cons_of_ne_of_not_mem ?_ (there m mem)
    rintro rfl
    exact new mem

theorem mem_of_slot {s : State ω} {name : String} {t : Slot ω} (h : s.slot? name = some t) :
    t ∈ s.slots :=
  List.mem_of_find?_eq_some h

theorem mem_of_stopOrder {s : State ω} {t : Slot ω} (mem : t ∈ s.stopOrder) : t ∈ s.slots := by
  rcases List.mem_append.mp mem with ready | waiting
  · exact (List.mem_filter.mp (List.mem_mergeSort.mp ready)).1
  · exact (List.mem_filter.mp (List.mem_mergeSort.mp waiting)).1

/-- A slot in place of one of the same job leaves the jobs as they are. -/
theorem jobs_put {s : State ω} (distinct : (s.slots.map (·.job.name)).Nodup) {t t' : Slot ω}
    (mem : t ∈ s.slots) (job : t'.job = t.job) :
    (s.put t').slots.map (·.job) = s.slots.map (·.job) := by
  unfold put
  rw [List.map_map]
  apply List.map_congr_left
  intro u hu
  simp only [Function.comp_apply]
  split
  · next same =>
    obtain rfl := List.inj_on_of_nodup_map distinct hu mem (by rw [same, job])
    exact job
  · rfl

variable [Machine ω δ]

theorem documented_ofJobs {jobs : List (Job ω)} {s : State ω} (h : ofJobs jobs = .ok s) :
    s.Documented jobs := by
  unfold ofJobs at h
  split at h
  · cases h
  · next unrepeated =>
    cases h
    refine ⟨?_, (nodup_of_repeated unrepeated).1, ?_, by simp [Journal.exchanges]⟩
    · rw [List.map_map]
      exact List.map_id _
    · intro t ht
      obtain ⟨job, -, rfl⟩ := List.mem_map.mp ht
      exact ⟨.fresh job, by intro l hl; cases hl⟩

namespace Documented

variable {jobs : List (Job ω)} {s s' : State ω}

theorem nodup_slots (h : s.Documented jobs) : (s.slots.map (·.job.name)).Nodup := by
  have distinct := h.distinct
  rw [← h.inOrder, List.map_map] at distinct
  exact distinct

/-- Two slots of the same job are one. -/
theorem slot_unique (h : s.Documented jobs) {t u : Slot ω} (ht : t ∈ s.slots) (hu : u ∈ s.slots)
    (same : u.job.name = t.job.name) : u = t :=
  List.inj_on_of_nodup_map h.nodup_slots hu ht same

/-- A change that leaves the workers alone, with events that say nothing of the talk. -/
theorem quietly (h : s.Documented jobs) (same : s'.slots.map (·.job) = s.slots.map (·.job))
    (alike : ∀ t' ∈ s'.slots, ∃ t ∈ s.slots, t.Alike t') (time : Instant) (events : List Event)
    (journal : s'.journal = s.journal.record time events)
    (silent : ∀ e ∈ events, e.speaker? = none) : s'.Documented jobs where
  inOrder := same.trans h.inOrder
  distinct := h.distinct
  slots := by
    intro t' ht'
    obtain ⟨t, ht, alike⟩ := alike t' ht'
    rw [journal]
    refine alike.documented ((h.slots t ht).frame time ?_)
    intro e he i speaker
    rw [silent e he] at speaker
    cases speaker
  owners := by
    rw [journal, Journal.exchanges_record_of_silent _ _ silent]
    exact h.owners

/-- A slot with the same job and the same worker at work takes the place of another. -/
theorem replaced (h : s.Documented jobs) {t t' : Slot ω} (mem : t ∈ s.slots)
    (alike : t.Alike t') : ∀ u' ∈ (s.put t').slots, ∃ u ∈ s.slots, u.Alike u' := by
  intro u' hu'
  obtain ⟨u, hu, rfl⟩ := List.mem_map.mp hu'
  refine ⟨u, hu, ?_⟩
  split
  · next same =>
    obtain rfl := h.slot_unique mem hu (by rw [same, alike.job])
    exact alike
  · exact .refl u

theorem fired [Seconds δ] (su : Setup δ) (h : s.Documented jobs) {t : Slot ω} (mem : t ∈ s.slots)
    (reason : String) : (s.fire su reason t).1.Documented jobs := by
  unfold fire
  split
  · have alike : t.Alike { t with health.skippedTriggers := t.health.skippedTriggers + 1 } :=
      ⟨rfl, rfl, fun l hl _ => ⟨l, hl, rfl⟩⟩
    exact h.quietly (jobs_put h.nodup_slots mem rfl) (h.replaced mem alike) s.now _ rfl
      (by simp [Event.speaker?])
  · have alike : ∀ (l : Live ω) (place : Nat), l.phase = .created →
        t.Alike { t with run := some (.live l), place } := by
      intro l place phase
      refine ⟨rfl, rfl, ?_⟩
      intro k hk busy
      cases hk
      rw [phase] at busy
      cases busy
    exact h.quietly (jobs_put h.nodup_slots mem rfl) (h.replaced mem (alike _ _ rfl)) s.now _ rfl
      (by simp [Event.speaker?])

/-- The live run of a job makes its next move. -/
theorem moved [Seconds δ] (su : Setup δ) (h : s.Documented jobs) {t : Slot ω} (mem : t ∈ s.slots)
    {l : Live ω} (live : t.live? = some l) (present : Nat) :
    (s.moveJob su present t l).Documented jobs := by
  unfold moveJob
  have own := Slot.own_move su ⟨s.now, present, s.turn, s.journal.outbound⟩ t l
  have documented := Slot.documented_move su ⟨s.now, present, s.turn, s.journal.outbound⟩
    (h.slots t mem) live s.now
  generalize t.move su ⟨s.now, present, s.turn, s.journal.outbound⟩ l = r at own documented
  obtain ⟨t', events⟩ := r
  have job : t'.job = t.job := own.job
  have speakers : ∀ e ∈ events, ∀ i, e.speaker? = some i → i.job = t.job.name := own.speakers
  dsimp only at documented ⊢
  refine ⟨(jobs_put h.nodup_slots mem job).trans h.inOrder, h.distinct, ?_, ?_⟩
  · intro u' hu'
    obtain ⟨u, hu, rfl⟩ := List.mem_map.mp hu'
    split
    · exact documented
    · next other =>
      refine (h.slots u hu).frame s.now ?_
      intro e he i speaker same
      exact other (by rw [job, ← speakers e he i speaker, same])
  · have none_else : s.journal.exchanges.filter
        (fun x => decide (x.owner.job ∉ jobs.map (·.name))) = [] := by
      rw [List.filter_eq_nil_iff]
      intro x hx
      simpa using h.owners x hx
    have listed : t.job.name ∈ jobs.map (·.name) := by
      rw [← h.inOrder, List.map_map]
      exact List.mem_map.mpr ⟨t, mem, rfl⟩
    have same := Journal.filter_exchanges_record
      (fun i => decide (i.job ∉ jobs.map (·.name))) s.journal s.now fun e he i speaker => by
        rw [speakers e he i speaker, decide_eq_false (not_not_intro listed)]
    rw [none_else, List.filter_eq_nil_iff] at same
    intro x hx
    simpa using same x hx

end Documented

/-! ### Every change and every script -/

theorem jobs_refreshSlots (after : Moment) (slots : List (Slot ω)) :
    (refreshSlots after slots).1.map (·.job) = slots.map (·.job) := by
  induction slots with
  | nil => rfl
  | cons t rest ih =>
    rw [refreshSlots]
    split
    · rfl
    · next t' found => rw [List.map_cons, ih, (Slot.alike_refresh found).job, List.map_cons]

theorem alike_refreshSlots (after : Moment) (slots : List (Slot ω)) :
    ∀ t' ∈ (refreshSlots after slots).1, ∃ t ∈ slots, t.Alike t' := by
  induction slots with
  | nil => simp [refreshSlots]
  | cons t rest ih =>
    rw [refreshSlots]
    split
    · exact fun t' ht' => ⟨t', ht', .refl t'⟩
    · next u found =>
      intro t' ht'
      rcases List.mem_cons.mp ht' with rfl | ht'
      · exact ⟨t, List.mem_cons_self, Slot.alike_refresh found⟩
      · obtain ⟨v, hv, alike⟩ := ih t' ht'
        exact ⟨v, List.mem_cons_of_mem _ hv, alike⟩

theorem alike_map {f : Slot ω → Slot ω} (alike : ∀ t, Slot.Alike t (f t)) (slots : List (Slot ω)) :
    ∀ t' ∈ slots.map f, ∃ t ∈ slots, t.Alike t' := by
  intro t' ht'
  obtain ⟨t, ht, rfl⟩ := List.mem_map.mp ht'
  exact ⟨t, ht, alike t⟩

theorem jobs_map {f : Slot ω → Slot ω} (alike : ∀ t, Slot.Alike t (f t)) (slots : List (Slot ω)) :
    (slots.map f).map (·.job) = slots.map (·.job) := by
  rw [List.map_map]
  exact List.map_congr_left fun t _ => (alike t).job

variable [Seconds δ] (su : Setup δ)

/-- Every change keeps the talk of all jobs documented. -/
theorem Documented.step {jobs : List (Job ω)} {s s' : State ω} (step : Step su s s')
    (h : s.Documented jobs) : s'.Documented jobs := by
  have untouched : ∀ t ∈ s.slots, ∃ u ∈ s.slots, u.Alike t := fun t ht => ⟨t, ht, .refl t⟩
  cases step with
  | move present found live => exact h.moved su (mem_of_slot found) live present
  | fire reason found => exact h.fired su (mem_of_slot found) reason
  | refresh after =>
    exact h.quietly (jobs_refreshSlots after s.slots) (alike_refreshSlots after s.slots)
      s.now [] rfl (by simp)
  | @arrive now _ =>
    exact h.quietly (jobs_map (Slot.alike_arrive _ now) s.slots)
      (alike_map (Slot.alike_arrive _ now) s.slots) s.now [] rfl (by simp)
  | adjust slots journal _ =>
    exact h.quietly (by rw [slots]) (slots ▸ untouched) s.now [] journal
      (by simp)
  | noteTick => exact h.quietly rfl untouched s.now _ rfl (by simp [Event.speaker?])
  | noteStart => exact h.quietly rfl untouched s.now _ rfl (by simp [Event.speaker?])
  | stop =>
    refine h.quietly (jobs_map Slot.alike_stopped s.slots) (alike_map Slot.alike_stopped s.slots)
      s.now _ rfl ?_
    intro e he
    rcases List.mem_append.mp he with he | he
    · obtain ⟨n, -, rfl⟩ := List.mem_map.mp he
      rfl
    · obtain rfl := List.mem_singleton.mp he
      rfl

/-- Every sequence of acts keeps the talk of all jobs documented. -/
theorem documented_acts {su : Setup δ} {jobs : List (Job ω)} {st s : State ω}
    (h : ofJobs jobs = .ok st) (acts : Acts su st s) : s.Documented jobs := by
  induction acts with
  | refl => exact documented_ofJobs h
  | tail _ act ih => exact ih.step su (act.step su)

/-- An act leaves the jobs what they are. -/
theorem Documented.names_act {su : Setup δ} {jobs : List (Job ω)} {s s' : State ω}
    (h : s.Documented jobs) (act : Act su s s') : s'.names = s.names := by
  have same := (h.step su (act.step su)).inOrder.trans h.inOrder.symm
  have named := congrArg (List.map Job.name) same
  rwa [List.map_map, List.map_map] at named

/-- Every script leaves the talk of all jobs documented. -/
theorem documented_drive {jobs : List (Job ω)} {s : State ω} (h : ofJobs jobs = .ok s)
    (script : List (Nat × Command δ)) : (s.drive su script).Documented jobs :=
  drive_keeps su (Documented.step su) script (documented_ofJobs h)

end State

end Settler.Supervisor
