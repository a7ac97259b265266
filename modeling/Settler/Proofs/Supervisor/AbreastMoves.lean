import Settler.Proofs.Supervisor.AbreastTicks

/-!
Two supervisors abreast: the moves of jobs.

The services may do as they please for all jobs but one (`Services.AgreeOn`). The moves of that one keep two
supervisors abreast for it, and the moves of the others leave what it sees as it is.
-/

namespace Settler

open Settler.Supervisor

variable {δ : Type}

/-- The services do the same, and at the same time, for the words of one kind of worker, as long as the
same words of that kind went out before. -/
structure Services.AgreeOn (kind : String) (σ₁ σ₂ : Services δ) : Prop where
  settle : ∀ {before₁ before₂ : List Outbound},
    (before₁.filter fun o => o.sender = kind) = (before₂.filter fun o => o.sender = kind) →
    ∀ op, (Outbound.asked op).sender = kind → (σ₁.settle before₁ op).Same (σ₂.settle before₂ op)
  post : ∀ {before₁ before₂ : List Outbound},
    (before₁.filter fun o => o.sender = kind) = (before₂.filter fun o => o.sender = kind) →
    ∀ totals, (Outbound.posted totals).sender = kind →
      (σ₁.post before₁ totals).Same (σ₂.post before₂ totals)

theorem Services.AgreeOn.symm {kind : String} {σ₁ σ₂ : Services δ} (agree : σ₁.AgreeOn kind σ₂) :
    σ₂.AgreeOn kind σ₁ where
  settle := fun before op own => (agree.settle before.symm op own).symm
  post := fun before totals own => (agree.post before.symm totals own).symm

theorem Services.AgreeOn.echo {kind : String} {σ₁ σ₂ : Services δ} (agree : σ₁.AgreeOn kind σ₂)
    (su : Setup δ) (τ₁ τ₂ : Ties) {before₁ before₂ : List Outbound}
    (before : (before₁.filter fun o => o.sender = kind) = (before₂.filter fun o => o.sender = kind))
    {out : Outbound} (own : out.sender = kind) :
    ((su.serving σ₁ τ₁).echo before₁ out).Same ((su.serving σ₂ τ₂).echo before₂ out) := by
  cases out with
  | asked op =>
    have same := agree.settle before op own
    exact ⟨same.latency, congrArg (Except.map Reply.answered) same.outcome⟩
  | posted totals =>
    have same := agree.post before totals own
    exact ⟨same.latency, congrArg (Except.map fun _ => Reply.posted) same.outcome⟩

namespace Supervisor

/-- The next turn of a job's worker says and counts nothing but what is the job's own. -/
theorem Slot.Documented.turn_own {j : Journal} {t : Slot (Worker δ)} (documented : t.Documented j)
    {l : Live (Worker δ)} (live : t.live? = some l) (names : t.job.Names) {u : Turn (Worker δ) δ}
    (turn : t.turn? l = some u) :
    Worker.Minding t.job.name u ∧ Worker.Counts t.job.name u := by
  have begins : ((t.job.build t.built).toOption.map Machine.begin) = some u →
      Worker.Minding t.job.name u ∧ Worker.Counts t.job.name u := by
    intro begins
    cases build : t.job.build t.built with
    | error f =>
      rw [build] at begins
      cases begins
    | ok w =>
      rw [build] at begins
      cases begins
      rw [← names _ _ build]
      exact ⟨Worker.minding_begin w, Worker.counts_begin w⟩
  have resumes : ∀ {w₀ w : Worker δ} {r : Reply}, t.job.build (t.built - 1) = .ok w₀ → w.name = w₀.name →
      Worker.Minding t.job.name (Machine.resume w r) ∧ Worker.Counts t.job.name (Machine.resume w r) := by
    intro w₀ w r build named
    rw [← names _ _ build, ← named]
    exact ⟨Worker.minding_resume w r, Worker.counts_resume w r⟩
  unfold turn? at turn
  cases phase : l.phase with
  | created =>
    rw [phase] at turn
    exact begins turn
  | backingOff =>
    rw [phase] at turn
    exact begins turn
  | resting w =>
    rw [phase] at turn
    cases turn
    obtain ⟨-, w₀, build, fits⟩ := documented.atWork l live (by rw [phase]; rfl)
    rw [phase] at fits
    cases fits with
    | resting talk rest => exact resumes build (Worker.minding_of_talk talk).worker
  | awaiting w outcome notes abandoned =>
    rw [phase] at turn
    cases outcome with
    | error f => cases turn
    | ok r =>
      cases turn
      obtain ⟨-, w₀, build, fits⟩ := documented.atWork l live (by rw [phase]; rfl)
      rw [phase] at fits
      cases fits with
      | awaiting talk wants split fits => exact resumes build (Worker.minding_of_talk talk).worker

namespace State

open Relation

variable {jobs : List (Job (Worker δ))} {bound b₁ b₂ : Nat} {name : String}
  {s s₁ s₂ : State (Worker δ)} {t t₁ t₂ : Slot (Worker δ)} {l l₁ l₂ : Live (Worker δ)}

/-- What went out for the job is what went out of its kind. -/
theorem Sound.filter_outbound (h : s.Sound jobs bound) (names : ∀ job ∈ jobs, job.Names) (kind : String) :
    (s.journal.outbound.filter fun o => o.sender = kind)
      = ((s.journal.about kind).sentFor kind).map (·.2) := by
  rw [Journal.filter_outbound (h.documented.sender_eq_job names), Journal.sentFor_about]

/-- The next turn of a job's worker counts nothing but in its own life. -/
theorem Sound.turn_own (h : s.Sound jobs bound) (names : ∀ job ∈ jobs, job.Names) {other : String}
    (found : s.slot? other = some t) (live : t.live? = some l) {u : Settler.Turn (Worker δ) δ}
    (turn : t.turn? l = some u) : Worker.Minding t.job.name u ∧ Worker.Counts t.job.name u := by
  have mem := mem_of_slot found
  have own : t.job ∈ jobs := h.documented.inOrder ▸ List.mem_map.mpr ⟨t, mem, rfl⟩
  exact (h.documented.slots t mem).turn_own live (names t.job own) turn

variable [Seconds δ]

/-- The outlook of a job does not change while another one moves. -/
theorem Sound.seen_moveJob (h : s.Sound jobs bound) (su : Setup δ) (names : ∀ job ∈ jobs, job.Names)
    {other : String} (found : s.slot? other = some t) (live : t.live? = some l) (ne : other ≠ name)
    (present : Nat) : (s.moveJob su present t l).seen name bound = s.seen name bound := by
  have mem := mem_of_slot found
  have named := name_of_slot found
  have unconcerned := Slot.unconcerned_move su ⟨s.now, present, s.turn, s.journal.outbound⟩
    (h.regular.quiet t mem l live) (fun u turn n noted x token => ?_) (named ▸ ne)
  · exact seen_put_of_ne h.distinct found (Slot.own_move su _ t l).job ne _ unconcerned
  · exact ((h.turn_own names found live turn).2.own x (List.mem_filterMap.mpr ⟨n, noted, token⟩)).1

/-- The job moves in both. -/
theorem Abreast.moveJob (h : Abreast jobs name b₁ b₂ s₁ s₂) (su : Setup δ) {σ₁ σ₂ : Services δ}
    (τ₁ τ₂ : Ties) (mute₁ : σ₁.IsMute) (mute₂ : σ₂.IsMute) (names : ∀ job ∈ jobs, job.Names)
    (agree : σ₁.AgreeOn name σ₂)
    {p₁ p₂ : Nat} (first₁ : first? s₁.ready = some (p₁, .job name))
    (first₂ : first? s₂.ready = some (p₂, .job name))
    (found₁ : s₁.slot? name = some t₁) (found₂ : s₂.slot? name = some t₂)
    (live₁ : t₁.live? = some l₁) (live₂ : t₂.live? = some l₂) :
    Abreast jobs name b₁ b₂ (s₁.moveJob (su.serving σ₁ τ₁) p₁ t₁ l₁)
      (s₂.moveJob (su.serving σ₂ τ₂) p₂ t₂ l₂) := by
  refine h.acts mute₁ mute₂ (.single (.motion (.move first₁ found₁ live₁)))
    (.single (.motion (.move first₂ found₂ live₂))) ?_ h.now
  have slots := h.slots found₁ found₂
  have runs : l₁.seen (s₁.labels b₁) = l₂.seen (s₂.labels b₂) := by
    have lives := congrArg Slot.live? slots
    rw [Slot.seen_of_live live₁, Slot.seen_of_live live₂] at lives
    exact Option.some.inj lives
  have present : (s₁.labels b₁).ready p₁ = (s₂.labels b₂).ready p₂ := by
    have ready₁ := ready_of_mem h.sound₁.distinct (mem_of_first first₁) found₁ live₁
    have ready₂ := ready_of_mem h.sound₂.distinct (mem_of_first first₂) found₂ live₂
    have turns := congrArg (fun l : Live (Worker δ) => l.wake.turn?) runs
    simp only [Live.seen, Wake.turn_label, ready₁, ready₂, Option.map_some] at turns
    exact Option.some.inj turns
  have before : (s₁.journal.outbound.filter fun o => o.sender = name)
      = s₂.journal.outbound.filter fun o => o.sender = name := by
    have about : s₁.journal.about name = s₂.journal.about name := congrArg Outlook.journal h.seen
    rw [h.sound₁.filter_outbound names, h.sound₂.filter_outbound names, about]
  have occasions : Slot.Occasion.label (s₁.labels b₁)
        ⟨s₁.now, p₁, s₁.turn, s₁.journal.outbound⟩
      = Slot.Occasion.label (s₂.labels b₂) ⟨s₂.now, p₂, s₂.turn, s₂.journal.outbound⟩ := by
    rw [Slot.Occasion.label, Slot.Occasion.label, h.now, present, h.label_fresh]
  have heeded : ∀ u, t₁.turn? l₁ = some u →
      Slot.Heeded (su.serving σ₁ τ₁) (su.serving σ₂ τ₂) ⟨s₁.now, p₁, s₁.turn, s₁.journal.outbound⟩
        ⟨s₂.now, p₂, s₂.turn, s₂.journal.outbound⟩ u := by
    intro u turn out wants
    have minding := (h.sound₁.turn_own names found₁ live₁ turn).1
    exact agree.echo su τ₁ τ₂ before ((minding.words out wants).trans (name_of_slot found₁))
  have moved := Slot.move_seen h.sound₁.level_fresh h.sound₂.level_fresh slots runs occasions
    (h.sound₁.regular.quiet t₁ (mem_of_slot found₁) l₁ live₁)
    (h.sound₂.regular.quiet t₂ (mem_of_slot found₂) l₂ live₂) heeded name
  exact h.seen_put found₁ found₂ (Slot.own_move _ _ t₁ l₁).job (Slot.own_move _ _ t₂ l₂).job moved.1
    _ _ moved.2

end State

end Supervisor

end Settler
