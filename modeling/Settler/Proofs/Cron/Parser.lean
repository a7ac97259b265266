import Settler.Proofs.Cron.Grammar

/-!
The parser accepts the grammar and nothing else, and a parsed schedule is what its text stands for.

Each reader is compared with its part of the grammar, from the number of an item up to the expression
(`parse_eq_ok_iff`); the values of an item are those that its term yields (`denotes_item`).
-/

namespace Settler.Cron

open Settler.Text Settler.Calendar

variable {f : Field}

theorem bind_eq_ok_iff {ε α β : Type} {x : Except ε α} {g : α → Except ε β} {b : β} :
    (x >>= g) = .ok b ↔ ∃ a, x = .ok a ∧ g a = .ok b := by
  cases x with
  | ok a => simp [bind, Except.bind]
  | error e => simp [bind, Except.bind]

/-! ### Items -/

/-- The values of a term, as the parser keeps them. -/
def Term.item (f : Field) (t : Term) : Item :=
  ⟨(t.body.first f).toNat, (t.body.last f t.step).toNat, t.step⟩

theorem number_eq_ok_iff {s : List Char} {n : Int} : number f s = .ok n ↔ readInt? s = some n := by
  rw [number]
  cases readInt? s <;> simp

theorem stepOf_eq_ok_iff {s body : List Char} {n : Nat} :
    stepOf f s = .ok (body, n) ↔
      ('/' ∉ s ∧ body = s ∧ n = 1) ∨
        ∃ t, '/' ∉ body ∧ body ++ '/' :: t = s ∧ readInt? t = some (n : Int) ∧ 1 ≤ n := by
  have cuts : ∀ a t, cut? '/' s = some (a, t) ↔ '/' ∉ a ∧ a ++ '/' :: t = s :=
    fun a t => cut?_eq_some_iff
  rw [stepOf]
  cases cut : cut? '/' s with
  | none =>
    have slashless : '/' ∉ s := cut?_eq_none_iff.mp cut
    simp only [cut, reduceCtorEq, false_iff, not_and] at cuts
    constructor
    · rintro ⟨⟩
      exact .inl ⟨slashless, rfl, rfl⟩
    · rintro (⟨-, rfl, rfl⟩ | ⟨t, free, joined, -⟩)
      · rfl
      · exact absurd joined (cuts body t free)
  | some parts =>
    obtain ⟨a, t⟩ := parts
    obtain ⟨free, joined⟩ := (cuts a t).mp cut
    have slash : '/' ∈ s := by rw [← joined]; simp
    simp only [bind_eq_ok_iff, number_eq_ok_iff]
    constructor
    · rintro ⟨m, read, kept⟩
      split at kept
      · cases kept
      · cases kept
        exact .inr ⟨t, free, joined, by rw [read, Int.toNat_of_nonneg (by omega)], by omega⟩
    · rintro (⟨slashless, -⟩ | ⟨t', free', joined', read, pos⟩)
      · exact absurd slash slashless
      · have same := (cuts body t').mpr ⟨free', joined'⟩
        rw [cut] at same
        cases same
        exact ⟨n, read, by rw [if_neg (by omega), Int.toNat_natCast]⟩

namespace Body

theorem spelled_star {b : Body} : b.Spelled ['*'] ↔ b = .star := by
  constructor
  · intro spelled
    generalize text : ['*'] = s at spelled
    cases spelled with
    | star => rfl
    | range =>
      have dash : '-' ∈ ['*'] := by rw [text]; simp
      simp at dash
    | single dashless read =>
      subst text
      cases read
  · rintro rfl
    exact .star

/-- Without a dash a text writes a single value. -/
theorem spelled_of_dashless {b : Body} {s : List Char} (star : s ≠ ['*']) (dashless : '-' ∉ s) :
    b.Spelled s ↔ ∃ value, readInt? s = some value ∧ b = .single value := by
  constructor
  · intro spelled
    cases spelled with
    | star => exact absurd rfl star
    | range => simp at dashless
    | single _ read => exact ⟨_, read, rfl⟩
  · rintro ⟨value, read, rfl⟩
    exact .single dashless read

/-- With a dash it writes a range, around the first of its dashes. -/
theorem spelled_of_cut {b : Body} {s before after : List Char} (cut : cut? '-' s = some (before, after)) :
    b.Spelled s ↔ ∃ first, readInt? before = some first ∧
      ∃ last, readInt? after = some last ∧ b = .range first last := by
  obtain ⟨dashless, rfl⟩ := cut?_eq_some_iff.mp cut
  have dash : '-' ∈ before ++ '-' :: after := List.mem_append_right _ List.mem_cons_self
  constructor
  · intro spelled
    generalize text : before ++ '-' :: after = s at spelled cut dash
    cases spelled with
    | star => simp at dash
    | range free first last =>
      rw [cut?_append free] at cut
      cases cut
      exact ⟨_, first, _, last, rfl⟩
    | single free => exact absurd dash free
  · rintro ⟨first, first_read, last, last_read, rfl⟩
    exact .range dashless first_read last_read

end Body

theorem boundsOf_eq_ok_iff {s : List Char} {n : Nat} {bounds : Int × Int} :
    boundsOf f s n = .ok bounds ↔ ∃ b : Body, b.Spelled s ∧ bounds = (b.first f, b.last f n) := by
  rw [boundsOf]
  by_cases star : s = ['*']
  · subst star
    simp only [if_pos, Body.spelled_star, exists_eq_left, Except.ok.injEq]
    exact eq_comm
  · rw [if_neg star]
    cases cut : cut? '-' s with
    | none =>
      simp only [bind_eq_ok_iff, number_eq_ok_iff, Except.ok.injEq,
        Body.spelled_of_dashless star (cut?_eq_none_iff.mp cut)]
      constructor
      · rintro ⟨value, read, rfl⟩
        exact ⟨.single value, ⟨value, read, rfl⟩, rfl⟩
      · rintro ⟨_, ⟨value, read, rfl⟩, rfl⟩
        exact ⟨value, read, rfl⟩
    | some parts =>
      simp only [bind_eq_ok_iff, number_eq_ok_iff, Except.ok.injEq, Body.spelled_of_cut cut]
      constructor
      · rintro ⟨first, first_read, last, last_read, rfl⟩
        exact ⟨.range first last, ⟨first, first_read, last, last_read, rfl⟩, rfl⟩
      · rintro ⟨_, ⟨first, first_read, last, last_read, rfl⟩, rfl⟩
        exact ⟨first, first_read, last, last_read, rfl⟩

theorem Body.Spelled.ne_nil {b : Body} {s : List Char} (h : b.Spelled s) : s ≠ [] := by
  cases h with
  | star => simp
  | range => simp
  | single _ read =>
    rintro rfl
    cases read

theorem Term.Spelled.ne_nil {t : Term} {s : List Char} (h : t.Spelled s) : s ≠ [] := by
  cases h with
  | plain _ body => exact body.ne_nil
  | stepped => simp

theorem parseItem_eq_ok_iff {s : List Char} {i : Item} :
    parseItem f s = .ok i ↔ ∃ t : Term, t.Spelled s ∧ t.body.Fits f ∧ i = t.item f := by
  rw [parseItem]
  cases s with
  | nil =>
    simp only [List.isEmpty_nil, if_true, reduceCtorEq, false_iff]
    rintro ⟨t, spelled, -⟩
    exact spelled.ne_nil rfl
  | cons c s =>
    simp only [List.isEmpty_cons, Bool.false_eq_true, if_false, bind_eq_ok_iff, Prod.exists,
      stepOf_eq_ok_iff, boundsOf_eq_ok_iff]
    constructor
    · rintro ⟨body, n, stepped, first, last, ⟨b, spelled, bounds⟩, kept⟩
      cases bounds
      split at kept
      · cases kept
      · next inside =>
        cases kept
        refine ⟨⟨b, n⟩, ?_, (b.fits_iff n).mpr (by simpa [and_assoc] using inside), rfl⟩
        rcases stepped with ⟨slashless, rfl, rfl⟩ | ⟨t, slashless, joined, read, pos⟩
        · exact .plain slashless spelled
        · exact joined ▸ .stepped slashless spelled read pos
    · rintro ⟨t, spelled, fits, rfl⟩
      have inside := (t.body.fits_iff t.step).mp fits
      have kept : ¬ (t.body.first f < f.low || t.body.last f t.step > f.high
          || t.body.first f > t.body.last f t.step) = true := by simpa [and_assoc] using inside
      generalize c :: s = text at spelled
      cases spelled with
      | @plain b _ slashless body =>
        exact ⟨text, 1, .inl ⟨slashless, rfl, rfl⟩, _, _, ⟨b, body, rfl⟩, if_neg kept⟩
      | @stepped b s step n slashless body read pos =>
        exact ⟨s, n, .inr ⟨step, slashless, rfl, read, pos⟩, _, _, ⟨b, body, rfl⟩, if_neg kept⟩

/-- The parser's item denotes what the term yields. -/
theorem denotes_item {t : Term} (fits : t.body.Fits f) (v : Nat) :
    (t.item f).denotes v ↔ t.Yields f v := by
  obtain ⟨low, high, order⟩ := (Body.fits_iff t.step t.body).mp fits
  obtain ⟨first, first_eq⟩ := Int.eq_ofNat_of_zero_le (Int.le_trans (Int.natCast_nonneg _) low)
  obtain ⟨last, last_eq⟩ := Int.eq_ofNat_of_zero_le
    (Int.le_trans (Int.le_trans (Int.natCast_nonneg _) low) order)
  simp only [Term.item, Item.denotes, Term.Yields, first_eq, last_eq, Int.toNat_natCast,
    Bool.and_eq_true, decide_eq_true_eq, beq_iff_eq]
  constructor
  · rintro ⟨⟨from_first, to_last⟩, whole⟩
    refine ⟨(v - first) / t.step, ?_, by omega⟩
    have := Nat.div_mul_cancel (Nat.dvd_of_mod_eq_zero whole)
    rw [← Int.natCast_mul, this]
    omega
  · rintro ⟨k, place, to_last⟩
    have place : v = first + k * t.step := by exact_mod_cast place
    refine ⟨⟨by omega, by omega⟩, ?_⟩
    rw [place, Nat.add_sub_cancel_left, Nat.mul_mod_left]

/-! ### Fields -/

theorem parseItems_eq_ok_iff {pieces : List (List Char)} {items : List Item} :
    parseItems f pieces = .ok items ↔ ∃ ts : List Term, List.Forall₂ Term.Spelled ts pieces ∧
      (∀ t ∈ ts, t.body.Fits f) ∧ items = ts.map (Term.item f) := by
  induction pieces generalizing items with
  | nil =>
    constructor
    · rintro ⟨⟩
      exact ⟨[], .nil, by simp, rfl⟩
    · rintro ⟨ts, ⟨⟩, -, rfl⟩
      rfl
  | cons piece pieces ih =>
    simp only [parseItems, bind_eq_ok_iff, parseItem_eq_ok_iff, ih]
    constructor
    · rintro ⟨i, ⟨t, spelled, fits, rfl⟩, is, ⟨ts, others, fit, rfl⟩, ⟨⟩⟩
      exact ⟨t :: ts, .cons spelled others, List.forall_mem_cons.mpr ⟨fits, fit⟩, rfl⟩
    · rintro ⟨ts, ⟨⟩, fit, rfl⟩
      next t ts spelled others =>
        rw [List.forall_mem_cons] at fit
        exact ⟨_, ⟨t, spelled, fit.1, rfl⟩, _, ⟨ts, others, fit.2, rfl⟩, rfl⟩

theorem parseField_eq_ok_iff {token : List Char} {vs : List Nat} :
    parseField f token = .ok vs ↔ ∃ ts : List Term, Listed ts token ∧ (∀ t ∈ ts, t.body.Fits f) ∧
      vs = valuesOf f (ts.map (Term.item f)) := by
  have map_eq : parseField f token = .ok vs ↔
      ∃ items, parseItems f (splitAt ',' token) = .ok items ∧ vs = valuesOf f items := by
    rw [parseField]
    cases parseItems f (splitAt ',' token) <;> simp [Except.map, eq_comm]
  simp only [map_eq, parseItems_eq_ok_iff]
  constructor
  · rintro ⟨_, ⟨ts, spelled, fits, rfl⟩, rfl⟩
    obtain ⟨some, free, joined⟩ := splitAt_eq_iff.mp rfl
    exact ⟨ts, ⟨_, some, free, joined, spelled⟩, fits, rfl⟩
  · rintro ⟨ts, ⟨pieces, some, free, joined, spelled⟩, fits, rfl⟩
    rw [splitAt_eq_iff.mpr ⟨some, free, joined⟩]
    exact ⟨_, ⟨ts, spelled, fits, rfl⟩, rfl⟩

theorem Listed.ne_nil {ts : List Term} {token : List Char} (h : Listed ts token) : ts ≠ [] := by
  obtain ⟨pieces, some, -, -, spelled⟩ := h
  rintro rfl
  cases spelled
  exact some rfl

/-- What a term yields is a value of its field. -/
theorem Term.Yields.inRange {t : Term} {v : Nat} (fits : t.body.Fits f) (h : t.Yields f v) :
    f.low ≤ v ∧ v ≤ f.high := by
  obtain ⟨low, high, -⟩ := (Body.fits_iff t.step t.body).mp fits
  obtain ⟨k, place, to_last⟩ := h
  have : (0 : Int) ≤ k * t.step := Int.mul_nonneg (Int.natCast_nonneg k) (Int.natCast_nonneg _)
  omega

/-- A term yields the value that it starts from. -/
theorem Term.yields_first {t : Term} (fits : t.body.Fits f) : ∃ v, t.Yields f v := by
  obtain ⟨low, high, order⟩ := (Body.fits_iff t.step t.body).mp fits
  refine ⟨(t.body.first f).toNat, 0, ?_, ?_⟩ <;> omega

theorem mem_valuesOf_terms {ts : List Term} (fits : ∀ t ∈ ts, t.body.Fits f) (v : Nat) :
    v ∈ valuesOf f (ts.map (Term.item f)) ↔ ∃ t ∈ ts, t.Yields f v := by
  simp only [valuesOf, List.mem_filter, List.mem_range'_1, List.any_map, List.any_eq_true,
    Function.comp_apply]
  constructor
  · rintro ⟨-, t, mem, denotes⟩
    exact ⟨t, mem, (denotes_item (fits t mem) v).mp denotes⟩
  · rintro ⟨t, mem, yields⟩
    obtain ⟨low, high⟩ := yields.inRange (fits t mem)
    exact ⟨by omega, t, mem, (denotes_item (fits t mem) v).mpr yields⟩

/-- A lone star yields every value of its field. -/
theorem mem_valuesOf_star {ts : List Term} (listed : Listed ts ['*'])
    (fits : ∀ t ∈ ts, t.body.Fits f) (v : Nat) :
    v ∈ valuesOf f (ts.map (Term.item f)) ↔ f.low ≤ v ∧ v ≤ f.high := by
  have read := parseField_eq_ok_iff.mpr ⟨ts, listed, fits, rfl⟩
  have star : parseField f ['*'] = .ok (valuesOf f [⟨f.low, f.high, 1⟩]) := by cases f <;> rfl
  rw [star, Except.ok.injEq] at read
  rw [← read]
  simp only [valuesOf, List.mem_filter, List.mem_range'_1, List.any_cons, List.any_nil, Item.denotes]
  simp [Nat.mod_one]
  omega

/-! ### Expressions -/

theorem mem_foldSunday {days : List Nat} (inRange : ∀ v ∈ days, v ≤ 7) (d : Nat) :
    d ∈ foldSunday days ↔ ∃ v ∈ days, d = Field.dayOfWeek.fold v := by
  simp only [foldSunday, List.mem_filter, List.mem_range, Bool.or_eq_true, Bool.and_eq_true,
    List.contains_iff_mem, beq_iff_eq, Field.fold]
  constructor
  · rintro ⟨lt, here | ⟨rfl, sunday⟩⟩
    · exact ⟨d, here, by rw [if_neg (by omega)]⟩
    · exact ⟨7, sunday, rfl⟩
  · rintro ⟨v, mem, rfl⟩
    have le := inRange v mem
    split
    · next sunday => exact ⟨by omega, .inr ⟨rfl, sunday ▸ mem⟩⟩
    · exact ⟨by omega, .inl mem⟩

namespace Expression

/-- The values of a field that are written. -/
def written (e : Expression) (f : Field) : List Nat := valuesOf f ((e.terms f).map (Term.item f))

/-- The schedule of an expression that a text writes. -/
def schedule (e : Expression) (text : String) : Schedule where
  expression := trimmed text
  minutes := e.written .minute
  hours := e.written .hour
  daysOfMonth := e.written .dayOfMonth
  months := e.written .month
  daysOfWeek := foldSunday (e.written .dayOfWeek)
  dayOfMonthRestricted := e.token .dayOfMonth != ['*']
  dayOfWeekRestricted := e.token .dayOfWeek != ['*']

end Expression

theorem parseFields_eq_ok_iff {text : String} {s : Schedule} :
    parseFields text = .ok s ↔ ∃ mi h dm mo dw, words text.toList = [mi, h, dm, mo, dw] ∧
      ∃ a, parseField .minute mi = .ok a ∧ ∃ b, parseField .hour h = .ok b ∧
      ∃ c, parseField .dayOfMonth dm = .ok c ∧ ∃ d, parseField .month mo = .ok d ∧
      ∃ e, parseField .dayOfWeek dw = .ok e ∧
        s = ⟨text, a, b, c, d, foldSunday e, dm != ['*'], dw != ['*']⟩ := by
  rw [parseFields]
  split
  · next mi h dm mo dw tokens =>
    simp only [bind_eq_ok_iff, Except.ok.injEq, eq_comm (b := s), tokens]
    constructor
    · intro read
      exact ⟨mi, h, dm, mo, dw, rfl, read⟩
    · rintro ⟨_, _, _, _, _, ⟨⟩, read⟩
      exact read
  · next other =>
    simp only [reduceCtorEq, false_iff]
    rintro ⟨mi, h, dm, mo, dw, tokens, -⟩
    exact other mi h dm mo dw tokens

/-- One thing for each field. -/
def Field.choose {α : Type} (minute hour dayOfMonth month dayOfWeek : α) : Field → α
  | .minute => minute
  | .hour => hour
  | .dayOfMonth => dayOfMonth
  | .month => month
  | .dayOfWeek => dayOfWeek

/-- The parser accepts the texts that the grammar writes. -/
theorem parse_eq_ok_iff {text : String} {s : Schedule} :
    Schedule.parse text = .ok s ↔ ∃ e : Expression, e.Written text ∧ s = e.schedule text := by
  have fields : Schedule.parse text = .ok s ↔ parseFields (trimmed text) = .ok s := by
    rw [Schedule.parse]
    cases parseFields (trimmed text) <;> simp [Except.mapError]
  have tokens : words (trimmed text).toList = words text.toList := by
    rw [trimmed, String.toList_ofList, words_trim]
  simp only [fields, parseFields_eq_ok_iff, tokens, words_eq_iff, parseField_eq_ok_iff]
  constructor
  · rintro ⟨mi, h, dm, mo, dw, spaced, _, ⟨tmi, lmi, fmi, rfl⟩, _, ⟨th, lh, fh, rfl⟩, _,
      ⟨tdm, ldm, fdm, rfl⟩, _, ⟨tmo, lmo, fmo, rfl⟩, _, ⟨tdw, ldw, fdw, rfl⟩, rfl⟩
    refine ⟨⟨Field.choose mi h dm mo dw, Field.choose tmi th tdm tmo tdw⟩,
      ⟨spaced, fun f => ?_, fun f => ?_⟩, rfl⟩
    · cases f <;> assumption
    · cases f <;> assumption
  · rintro ⟨e, ⟨spaced, listed, fits⟩, rfl⟩
    exact ⟨_, _, _, _, _, spaced, _, ⟨_, listed _, fits _, rfl⟩, _, ⟨_, listed _, fits _, rfl⟩, _,
      ⟨_, listed _, fits _, rfl⟩, _, ⟨_, listed _, fits _, rfl⟩, _, ⟨_, listed _, fits _, rfl⟩, rfl⟩

namespace Expression.Written

variable {e : Expression} {text : String} (h : e.Written text)
include h

theorem mem_written (f : Field) (v : Nat) : v ∈ e.written f ↔ ∃ t ∈ e.terms f, t.Yields f v :=
  mem_valuesOf_terms (h.fits f) v

theorem inRange_written (f : Field) : ∀ v ∈ e.written f, f.low ≤ v ∧ v ≤ f.high := by
  intro v mem
  obtain ⟨t, here, yields⟩ := (h.mem_written f v).mp mem
  exact yields.inRange (h.fits f t here)

theorem mem_values_iff (f : Field) (v : Nat) :
    v ∈ (e.schedule text).values f ↔ ∃ w ∈ e.written f, v = f.fold w := by
  cases f with
  | dayOfWeek => exact mem_foldSunday (fun v mem => (h.inRange_written .dayOfWeek v mem).2) v
  | _ => simp [Schedule.values, schedule, Field.fold]

theorem mem_values (f : Field) (v : Nat) : v ∈ (e.schedule text).values f ↔ e.Allows f v := by
  simp only [h.mem_values_iff, h.mem_written, Allows]
  constructor
  · rintro ⟨w, ⟨t, mem, yields⟩, folded⟩
    exact ⟨t, mem, w, yields, folded⟩
  · rintro ⟨t, mem, w, yields, folded⟩
    exact ⟨w, ⟨t, mem, yields⟩, folded⟩

theorem values_nonempty (f : Field) : (e.schedule text).values f ≠ [] := by
  obtain ⟨t, mem⟩ := List.exists_mem_of_ne_nil _ (h.listed f).ne_nil
  obtain ⟨v, yields⟩ := t.yields_first (h.fits f t mem)
  exact List.ne_nil_of_mem ((h.mem_values f (f.fold v)).mpr ⟨t, mem, v, yields, rfl⟩)

theorem values_inRange (f : Field) :
    ∀ v ∈ (e.schedule text).values f, f.low ≤ v ∧ v ≤ f.top := by
  intro v mem
  obtain ⟨w, written, rfl⟩ := (h.mem_values_iff f v).mp mem
  have inRange := h.inRange_written f w written
  cases f with
  | dayOfWeek =>
    simp only [Field.low, Field.high, Field.fold, Field.top] at inRange ⊢
    split <;> omega
  | _ => exact inRange

theorem mem_values_of_starred {f : Field} (star : e.Starred f) {v : Nat} (low : f.low ≤ v)
    (top : v ≤ f.top) : v ∈ (e.schedule text).values f := by
  have listed := h.listed f
  rw [star] at listed
  have all : f.low ≤ v ∧ v ≤ f.high → v ∈ e.written f :=
    (mem_valuesOf_star listed (h.fits f) v).mpr
  refine (h.mem_values_iff f v).mpr ⟨v, all ⟨low, ?_⟩, ?_⟩
  · cases f with
    | dayOfWeek => exact Nat.le_succ_of_le top
    | _ => exact top
  · cases f with
    | dayOfWeek => exact (if_neg (by simp only [Field.top] at top; omega)).symm
    | _ => rfl

/-- Matching a moment is being picked out by the expression. -/
theorem matches_iff (m : Moment) : (e.schedule text).matchesMoment m ↔ e.Picks m := by
  have day : m.wall / minute / 1440 = m.wall / wholeDay := by
    rw [Nat.div_div_eq_div_mul, wholeDay, Nat.mul_comm]
  have mem := fun f v => List.contains_iff_mem.trans (h.mem_values f v)
  have minutes := mem .minute (m.wall / minute % 60)
  have hours := mem .hour (m.wall / minute / 60 % 24)
  have months := mem .month (placeOf (m.wall / wholeDay)).month
  have ofMonth := mem .dayOfMonth ((placeOf (m.wall / wholeDay)).index + 1)
  have ofWeek := mem .dayOfWeek (weekday (m.wall / wholeDay))
  simp only [Schedule.values] at minutes hours months ofMonth ofWeek
  simp only [Schedule.matchesMoment, Schedule.matchesMinute, Schedule.matchesDay,
    Moment.minuteNumber, day, Picks, Moment.date, Date.ofDay, Bool.and_eq_true, minutes, hours,
    months, and_assoc]
  refine and_congr_right fun _ => and_congr_right fun _ => and_congr_right fun _ => ?_
  have ofMonthRestricted : (e.schedule text).dayOfMonthRestricted = true ↔ ¬ e.Starred .dayOfMonth :=
    bne_iff_ne
  have ofWeekRestricted : (e.schedule text).dayOfWeekRestricted = true ↔ ¬ e.Starred .dayOfWeek :=
    bne_iff_ne
  simp only [← ofMonthRestricted, ← ofWeekRestricted, ← ofMonth, ← ofWeek]
  cases (e.schedule text).dayOfMonthRestricted <;> cases (e.schedule text).dayOfWeekRestricted <;>
    simp +contextual

theorem means : (e.schedule text).Means e where
  values := h.mem_values
  nonempty := h.values_nonempty
  inRange := h.values_inRange
  starred _ star _ := h.mem_values_of_starred star
  matching := h.matches_iff

end Expression.Written

/-- The parser accepts exactly the texts that write an expression, refuses the others as schedules that
cannot be parsed, and what it returns is what the expression stands for. -/
theorem parse_exact (text : String) :
    (∀ err, Schedule.parse text = .error err → err.family = .schedule) ∧
    ((∃ s, Schedule.parse text = .ok s) ↔ ∃ e : Expression, e.Written text) ∧
    ∀ s, Schedule.parse text = .ok s → s.expression = trimmed text ∧
      ∀ e : Expression, e.Written text → s.Means e := by
  refine ⟨?_, ?_, ?_⟩
  · intro err refused
    rw [Schedule.parse] at refused
    cases read : parseFields (trimmed text) <;> rw [read] at refused <;> cases refused
    rfl
  · constructor
    · rintro ⟨s, parsed⟩
      obtain ⟨e, written, -⟩ := parse_eq_ok_iff.mp parsed
      exact ⟨e, written⟩
    · rintro ⟨e, written⟩
      exact ⟨_, parse_eq_ok_iff.mpr ⟨e, written, rfl⟩⟩
  · intro s parsed
    obtain ⟨e, -, rfl⟩ := parse_eq_ok_iff.mp parsed
    refine ⟨rfl, ?_⟩
    intro e' written
    have parsed' := parse_eq_ok_iff.mpr ⟨e', written, rfl⟩
    rw [parsed, Except.ok.injEq] at parsed'
    rw [parsed']
    exact written.means

/-- Twice an hour in every second hour from nine to five, on workdays. -/
def officeHours : Expression where
  token
    | .minute => "0,30".toList
    | .hour => "9-17/2".toList
    | .dayOfWeek => "1-5".toList
    | _ => ['*']
  terms
    | .minute => [⟨.single 0, 1⟩, ⟨.single 30, 1⟩]
    | .hour => [⟨.range 9 17, 2⟩]
    | .dayOfWeek => [⟨.range 1 5, 1⟩]
    | _ => [⟨.star, 1⟩]

/-- The expression is written, so its text is parsed as a schedule that means it. -/
theorem parse_exact_officeHours :
    officeHours.Written " 0,30 9-17/2  * * 1-5" ∧
      ∃ s, Schedule.parse " 0,30 9-17/2  * * 1-5" = .ok s ∧ s.Means officeHours := by
  have star : Listed [⟨.star, 1⟩] ['*'] :=
    ⟨[['*']], by decide, by decide, rfl, .cons (.plain (by decide) .star) .nil⟩
  have written : officeHours.Written " 0,30 9-17/2  * * 1-5" := by
    refine ⟨words_eq_iff.mp (by decide +kernel), fun f => ?_, fun f => ?_⟩
    · cases f with
      | minute =>
        exact ⟨[['0'], ['3', '0']], by decide, by decide, rfl,
          .cons (.plain (by decide) (.single (by decide) rfl))
            (.cons (.plain (by decide) (.single (by decide) rfl)) .nil)⟩
      | hour =>
        exact ⟨["9-17/2".toList], by decide, by decide, rfl,
          .cons (.stepped (s := "9-17".toList) (t := ['2']) (by decide)
            (.range (a := ['9']) (b := ['1', '7']) (by decide) rfl rfl) rfl (by decide)) .nil⟩
      | dayOfWeek =>
        exact ⟨["1-5".toList], by decide, by decide, rfl,
          .cons (.plain (by decide) (.range (a := ['1']) (b := ['5']) (by decide) rfl rfl)) .nil⟩
      | _ => exact star
    · cases f <;> simp [officeHours, Body.Fits, Field.low, Field.high]
  obtain ⟨-, accepted, means⟩ := parse_exact " 0,30 9-17/2  * * 1-5"
  obtain ⟨s, parsed⟩ := accepted.mpr ⟨officeHours, written⟩
  exact ⟨written, s, parsed, (means s parsed).2 officeHours written⟩

end Settler.Cron
