import Mathlib.Logic.Function.Basic
import Settler.Proofs.Cron.Parser
import Settler.Proofs.Text.Numerals

/-!
Items that start at a value and go on in steps.

The items of a comma list are read apart: a list is read exactly if each of its items is, and its
values are theirs together (`mem_parseField_joined`). What an item means can therefore be said of the
item alone, and an item can stand in for another one that is read the same (`parseField_replace`).
-/

namespace Settler.Cron

open Settler.Text Settler.Calendar

variable {f : Field}

theorem map_eq_ok_iff {α β : Type} {x : Except Defect α} {g : α → β} {b : β} :
    x.map g = .ok b ↔ ∃ a, x = .ok a ∧ g a = b := by
  cases x <;> simp [Except.map]

/-! ### Comma lists -/

/-- The pieces with commas between them. -/
def joined (pieces : List (List Char)) : List Char := [','].intercalate pieces

theorem mem_around {α : Type} {a b : α} {before after : List α} :
    a ∈ before ++ b :: after ↔ a = b ∨ a ∈ before ++ after := by
  simp only [List.mem_append, List.mem_cons]
  exact or_left_comm

theorem mem_valuesOf {items : List Item} {v : Nat} :
    v ∈ valuesOf f items ↔ (f.low ≤ v ∧ v ≤ f.high) ∧ ∃ i ∈ items, i.denotes v := by
  have order : f.low ≤ f.high := by cases f <;> decide
  simp only [valuesOf, List.mem_filter, List.mem_range'_1, List.any_eq_true]
  exact and_congr_left fun _ => by omega

theorem parseItems_ok_iff {pieces : List (List Char)} :
    (∃ items, parseItems f pieces = .ok items) ↔ ∀ p ∈ pieces, ∃ i, parseItem f p = .ok i := by
  induction pieces with
  | nil => simp [parseItems]
  | cons p pieces ih =>
    simp only [List.forall_mem_cons, ← ih, parseItems, bind_eq_ok_iff, Except.ok.injEq]
    constructor
    · rintro ⟨_, i, read, is, rest, -⟩
      exact ⟨⟨i, read⟩, is, rest⟩
    · rintro ⟨⟨i, read⟩, is, rest⟩
      exact ⟨_, i, read, is, rest, rfl⟩

theorem mem_of_parseItems {pieces : List (List Char)} {items : List Item}
    (read : parseItems f pieces = .ok items) (i : Item) :
    i ∈ items ↔ ∃ p ∈ pieces, parseItem f p = .ok i := by
  induction pieces generalizing items with
  | nil =>
    cases read
    simp
  | cons p pieces ih =>
    obtain ⟨j, first, is, rest, same⟩ := by simpa only [parseItems, bind_eq_ok_iff] using read
    cases same
    simp [first, ih rest, eq_comm]

theorem parseItems_replace {p q : List Char} (same : parseItem f p = parseItem f q)
    (before after : List (List Char)) :
    parseItems f (before ++ p :: after) = parseItems f (before ++ q :: after) := by
  induction before with
  | nil => simp [parseItems, same]
  | cons r before ih => simp [parseItems, ih]

theorem parseField_joined {pieces : List (List Char)} (some : pieces ≠ [])
    (free : ∀ p ∈ pieces, ',' ∉ p) :
    parseField f (joined pieces) = (parseItems f pieces).map (valuesOf f) := by
  have cut : splitAt ',' (joined pieces) = pieces := splitAt_eq_iff.mpr ⟨some, free, rfl⟩
  rw [parseField, cut]

theorem parseField_commaless {p : List Char} (free : ',' ∉ p) :
    parseField f p = (parseItem f p).map fun i => valuesOf f [i] := by
  have alone : joined [p] = p := by simp [joined]
  rw [← alone, parseField_joined (by simp) (by simpa using free), alone, parseItems, parseItems]
  cases parseItem f p <;> rfl

/-- An item can stand in for another one that is read the same. -/
theorem parseField_replace {p q : List Char} (same : parseItem f p = parseItem f q)
    {before after : List (List Char)} (free : ∀ r ∈ before ++ after, ',' ∉ r) (free_p : ',' ∉ p)
    (free_q : ',' ∉ q) :
    parseField f (joined (before ++ p :: after)) = parseField f (joined (before ++ q :: after)) := by
  have others : ∀ r, ',' ∉ r → ∀ s ∈ before ++ r :: after, ',' ∉ s := by
    intro r free_r s mem
    rcases mem_around.mp mem with rfl | mem
    · exact free_r
    · exact free s mem
  rw [parseField_joined (by simp) (others p free_p), parseField_joined (by simp) (others q free_q),
    parseItems_replace same]

/-- A list with a slash in it is no star. -/
theorem joined_ne_star {p : List Char} {pieces : List (List Char)} (mem : p ∈ pieces)
    (slash : '/' ∈ p) (free : ∀ p ∈ pieces, ',' ∉ p) : joined pieces ≠ ['*'] := by
  intro star
  obtain rfl : [['*']] = pieces := splitAt_eq_iff.mpr ⟨List.ne_nil_of_mem mem, free, star⟩
  obtain rfl := List.mem_singleton.mp mem
  simp at slash

/-- A list is read exactly if each of its items is. -/
theorem parseField_joined_ok_iff {pieces : List (List Char)} (some : pieces ≠ [])
    (free : ∀ p ∈ pieces, ',' ∉ p) :
    (∃ vs, parseField f (joined pieces) = .ok vs) ↔ ∀ p ∈ pieces, ∃ vs, parseField f p = .ok vs := by
  have whole : (∃ vs, parseField f (joined pieces) = .ok vs) ↔
      ∃ items, parseItems f pieces = .ok items := by
    simp [parseField_joined some free, map_eq_ok_iff]
  rw [whole, parseItems_ok_iff]
  refine forall₂_congr fun p mem => ?_
  simp [parseField_commaless (free p mem), map_eq_ok_iff]

/-- Its values are those of its items. -/
theorem mem_parseField_joined {pieces : List (List Char)} (some : pieces ≠ [])
    (free : ∀ p ∈ pieces, ',' ∉ p) {vs : List Nat} (read : parseField f (joined pieces) = .ok vs)
    (v : Nat) : v ∈ vs ↔ ∃ p ∈ pieces, ∃ ws, parseField f p = .ok ws ∧ v ∈ ws := by
  rw [parseField_joined some free, map_eq_ok_iff] at read
  obtain ⟨items, read, rfl⟩ := read
  have each : (∃ p ∈ pieces, ∃ ws, parseField f p = .ok ws ∧ v ∈ ws) ↔
      ∃ p ∈ pieces, ∃ i, parseItem f p = .ok i ∧ v ∈ valuesOf f [i] := by
    refine exists_congr fun p => and_congr_right fun mem => ?_
    simp [parseField_commaless (free p mem), map_eq_ok_iff]
  rw [each]
  simp only [mem_valuesOf, mem_of_parseItems read, List.mem_singleton, exists_eq_left]
  constructor
  · rintro ⟨inside, i, ⟨p, mem, read⟩, denotes⟩
    exact ⟨p, mem, i, read, inside, denotes⟩
  · rintro ⟨p, mem, i, read, inside, denotes⟩
    exact ⟨inside, i, ⟨p, mem, read⟩, denotes⟩

/-! ### Expressions -/

theorem Expression.Written.token_eq {e : Expression} {text : String} (h : e.Written text)
    {tokens : Field → List Char} (spaced : Spaced text.toList (Field.all.map tokens)) :
    e.token = tokens := by
  have same : Field.all.map e.token = Field.all.map tokens := by
    rw [← words_of_spaced h.spaced, words_of_spaced spaced]
  funext f
  exact List.map_inj_left.mp same f (by cases f <;> decide)

/-- A text with a token for each field is read exactly if each token is, and then into their values. -/
theorem parse_tokens {text : String} {tokens : Field → List Char}
    (spaced : Spaced text.toList (Field.all.map tokens)) {s : Schedule} :
    Schedule.parse text = .ok s ↔ ∃ vs : Field → List Nat, (∀ f, parseField f (tokens f) = .ok (vs f)) ∧
      s = ⟨trimmed text, vs .minute, vs .hour, vs .dayOfMonth, vs .month, foldSunday (vs .dayOfWeek),
        tokens .dayOfMonth != ['*'], tokens .dayOfWeek != ['*']⟩ := by
  rw [parse_eq_ok_iff]
  constructor
  · rintro ⟨e, written, rfl⟩
    obtain rfl := written.token_eq spaced
    exact ⟨e.written, fun f => parseField_eq_ok_iff.mpr ⟨_, written.listed f, written.fits f, rfl⟩, rfl⟩
  · rintro ⟨vs, read, rfl⟩
    choose terms listed fits values using fun f => parseField_eq_ok_iff.mp (read f)
    exact ⟨⟨tokens, terms⟩, ⟨spaced, listed, fits⟩, by simp only [values]; rfl⟩

/-- The schedule has the values of the field's token, with 7 read as Sunday. -/
theorem mem_values_of_tokens {text : String} {tokens : Field → List Char}
    (spaced : Spaced text.toList (Field.all.map tokens)) {s : Schedule}
    (parsed : Schedule.parse text = .ok s) (f : Field) :
    ∃ vs, parseField f (tokens f) = .ok vs ∧ ∀ v, v ∈ s.values f ↔ ∃ w ∈ vs, v = f.fold w := by
  obtain ⟨e, written, rfl⟩ := parse_eq_ok_iff.mp parsed
  obtain rfl := written.token_eq spaced
  exact ⟨e.written f, parseField_eq_ok_iff.mpr ⟨_, written.listed f, written.fits f, rfl⟩,
    written.mem_values_iff f⟩

/-- Two texts are parsed alike, apart from the expression that is kept, if each field of the one is read
as that of the other and is a star where it is. -/
theorem parse_congr {text text' : String} {tokens tokens' : Field → List Char}
    (spaced : Spaced text.toList (Field.all.map tokens))
    (spaced' : Spaced text'.toList (Field.all.map tokens'))
    (same : ∀ g, parseField g (tokens' g) = parseField g (tokens g))
    (stars : ∀ g, tokens' g = ['*'] ↔ tokens g = ['*']) :
    (Schedule.parse text').toOption =
      (Schedule.parse text).toOption.map fun s => { s with expression := trimmed text' } := by
  have starred : ∀ g, (tokens' g != ['*']) = (tokens g != ['*']) := fun g => by
    rw [Bool.eq_iff_iff, bne_iff_ne, bne_iff_ne, ne_eq, ne_eq, stars]
  cases parsed : Schedule.parse text with
  | ok s =>
    obtain ⟨vs, read, rfl⟩ := (parse_tokens spaced).mp parsed
    have read' : ∀ g, parseField g (tokens' g) = .ok (vs g) := fun g => (same g).trans (read g)
    rw [(parse_tokens spaced').mpr ⟨vs, read', rfl⟩]
    simp [Except.toOption, starred]
  | error err =>
    cases parsed' : Schedule.parse text' with
    | error err' => rfl
    | ok s =>
      obtain ⟨vs, read, -⟩ := (parse_tokens spaced').mp parsed'
      have read' : ∀ g, parseField g (tokens g) = .ok (vs g) := fun g => (same g).symm.trans (read g)
      rw [(parse_tokens spaced).mpr ⟨vs, read', rfl⟩] at parsed
      cases parsed

/-! ### Stepped items -/

namespace Field

/-- The item writes one of the field's values and, after a slash, a step. -/
structure SteppedStart (f : Field) (start step : Nat) (item : List Char) : Prop where
  slash : '/' ∈ item
  spelled : Term.Spelled ⟨.single start, step⟩ item
  low : f.low ≤ start
  high : start ≤ f.high

/-- The item writes the range from one of the field's values to the field's last one and, after a
slash, a step. -/
structure SteppedRange (f : Field) (start step : Nat) (item : List Char) : Prop where
  slash : '/' ∈ item
  spelled : Term.Spelled ⟨.range start f.high, step⟩ item
  low : f.low ≤ start
  high : start ≤ f.high

/-- The value is some steps from the start, and not past the end of the field. -/
def Reaches (f : Field) (start step v : Nat) : Prop := start ≤ v ∧ v ≤ f.high ∧ step ∣ v - start

/-- The value is reached from the start; a step of 1 is taken for none and reaches the start only. -/
def Runs (f : Field) (start step v : Nat) : Prop := f.Reaches start step v ∧ (step = 1 → v = start)

end Field

theorem Body.Spelled.commaless {b : Body} {s : List Char} (h : b.Spelled s) : ',' ∉ s := by
  have numeral : ∀ {t : List Char} {n : Int}, readInt? t = some n → ',' ∉ t := fun read =>
    not_mem_of_readInt? read (by decide) (by decide +kernel) (by decide)
  cases h with
  | star => simp
  | range _ first last => simp [numeral first, numeral last]
  | single _ read => exact numeral read

theorem Term.Spelled.commaless {t : Term} {s : List Char} (h : t.Spelled s) : ',' ∉ s := by
  cases h with
  | plain _ body => exact body.commaless
  | stepped _ body step =>
    have step : ',' ∉ _ := not_mem_of_readInt? step (by decide) (by decide +kernel) (by decide)
    simp [body.commaless, step]

namespace Field.SteppedStart

variable {start step : Nat} {item : List Char} (h : f.SteppedStart start step item)
include h

theorem pos : 1 ≤ step := by
  cases h.spelled with
  | plain => exact Nat.le_refl 1
  | stepped _ _ _ pos => exact pos

/-- A single value ends where it starts if its step is 1, and at the end of the field otherwise. -/
theorem parseItem_eq : parseItem f item = .ok ⟨start, if step = 1 then start else f.high, step⟩ := by
  refine parseItem_eq_ok_iff.mpr ⟨_, h.spelled, ?_, ?_⟩
  · have low := h.low
    have high := h.high
    simp only [Body.Fits]
    omega
  · simp only [Term.item, Body.first, Body.last]
    split <;> simp

theorem denotes (v : Nat) :
    (Item.mk start (if step = 1 then start else f.high) step).denotes v ↔
      f.Runs start step v := by
  have high := h.high
  simp only [Item.denotes, Bool.and_eq_true, decide_eq_true_eq, beq_iff_eq, Field.Runs, Field.Reaches,
    Nat.dvd_iff_mod_eq_zero]
  split
  · next one =>
    subst one
    simp only [Nat.mod_one, eq_self, forall_const, and_true]
    omega
  · next other => simp [other, and_assoc]

/-- Alone, the item is read as what it denotes. -/
theorem read : ∃ vs, parseField f item = .ok vs ∧ ∀ v, v ∈ vs ↔ f.Runs start step v := by
  refine ⟨_, by rw [parseField_commaless h.spelled.commaless, h.parseItem_eq]; rfl, fun v => ?_⟩
  simp only [mem_valuesOf, List.mem_singleton, exists_eq_left, h.denotes]
  exact and_iff_right_of_imp fun reached => ⟨Nat.le_trans h.low reached.1.1, reached.1.2.1⟩

end Field.SteppedStart

namespace Field.SteppedRange

variable {start step : Nat} {item : List Char} (h : f.SteppedRange start step item)
include h

theorem parseItem_eq : parseItem f item = .ok ⟨start, f.high, step⟩ := by
  have low := h.low
  have high := h.high
  refine parseItem_eq_ok_iff.mpr ⟨_, h.spelled, ?_, by simp [Term.item, Body.first, Body.last]⟩
  simp only [Body.Fits]
  omega

/-- Alone, the range is read as what is reached from its start, whatever the step. -/
theorem read : ∃ vs, parseField f item = .ok vs ∧ ∀ v, v ∈ vs ↔ f.Reaches start step v := by
  refine ⟨_, by rw [parseField_commaless h.spelled.commaless, h.parseItem_eq]; rfl, fun v => ?_⟩
  simp only [mem_valuesOf, List.mem_singleton, exists_eq_left, Item.denotes, Bool.and_eq_true,
    decide_eq_true_eq, beq_iff_eq, ← Nat.dvd_iff_mod_eq_zero, and_assoc]
  exact ⟨fun inside => inside.2.2, fun reached => ⟨Nat.le_trans h.low reached.1, reached.2.1, reached⟩⟩

end Field.SteppedRange

/-- The text's token of the field lists the item between other ones; the other fields have tokens of
their own. -/
structure Field.Lists (f : Field) (text : String) (tokens : Field → List Char)
    (before : List (List Char)) (item : List Char) (after : List (List Char)) : Prop where
  spaced : Spaced text.toList (Field.all.map tokens)
  free : ∀ p ∈ before ++ after, ',' ∉ p
  token : tokens f = joined (before ++ item :: after)

theorem Field.Lists.commaless {text : String} {tokens : Field → List Char} {item : List Char}
    {before after : List (List Char)} (h : f.Lists text tokens before item after) (free : ',' ∉ item) :
    ∀ p ∈ before ++ item :: after, ',' ∉ p := by
  intro p mem
  rcases mem_around.mp mem with rfl | mem
  · exact free
  · exact h.free p mem

namespace Field.SteppedStart

variable {start step : Nat} {item : List Char} (h : f.SteppedStart start step item) {text : String}
  {tokens : Field → List Char} {before after : List (List Char)}
  (lists : f.Lists text tokens before item after)
include h lists

/-- With the item in it, a text is parsed exactly if its other items and its other fields can be read. -/
theorem parsed_iff :
    (∃ s, Schedule.parse text = .ok s) ↔
      (∀ p ∈ before ++ after, ∃ vs, parseField f p = .ok vs) ∧
        ∀ g, g ≠ f → ∃ vs, parseField g (tokens g) = .ok vs := by
  have here : (∃ vs, parseField f (tokens f) = .ok vs) ↔
      ∀ p ∈ before ++ after, ∃ vs, parseField f p = .ok vs := by
    obtain ⟨vs, read, -⟩ := h.read
    rw [lists.token, parseField_joined_ok_iff (by simp) (lists.commaless h.spelled.commaless)]
    simp only [mem_around, or_imp, forall_and, forall_eq, read, Except.ok.injEq, exists_eq', true_and]
  rw [← here]
  constructor
  · rintro ⟨s, parsed⟩
    obtain ⟨vs, read, -⟩ := (parse_tokens lists.spaced).mp parsed
    exact ⟨⟨_, read f⟩, fun g _ => ⟨_, read g⟩⟩
  · rintro ⟨own, others⟩
    have each : ∀ g, ∃ vs, parseField g (tokens g) = .ok vs := by
      intro g
      by_cases same : g = f
      · exact same ▸ own
      · exact others g same
    choose vs read using each
    exact ⟨_, (parse_tokens lists.spaced).mpr ⟨vs, read, rfl⟩⟩

/-- The schedule has of the field what the item denotes, and what the other items have. -/
theorem mem_values {s : Schedule} (parsed : Schedule.parse text = .ok s) (v : Nat) :
    v ∈ s.values f ↔
      (∃ w, f.Runs start step w ∧ v = f.fold w) ∨
        ∃ p ∈ before ++ after, ∃ ws, parseField f p = .ok ws ∧ ∃ w ∈ ws, v = f.fold w := by
  obtain ⟨vs, read, values⟩ := mem_values_of_tokens lists.spaced parsed f
  rw [lists.token] at read
  obtain ⟨own, read_own, denotes⟩ := h.read
  have split : ∀ w, w ∈ vs ↔
      f.Runs start step w ∨ ∃ p ∈ before ++ after, ∃ ws, parseField f p = .ok ws ∧ w ∈ ws := by
    intro w
    rw [mem_parseField_joined (by simp) (lists.commaless h.spelled.commaless) read, ← denotes]
    simp only [mem_around, or_and_right, exists_or, exists_eq_left, read_own, Except.ok.injEq,
      exists_eq_left']
  rw [values]
  constructor
  · rintro ⟨w, mem, folded⟩
    rcases (split w).mp mem with own | ⟨p, mem, ws, read_p, here⟩
    · exact .inl ⟨w, own, folded⟩
    · exact .inr ⟨p, mem, ws, read_p, w, here, folded⟩
  · rintro (⟨w, own, folded⟩ | ⟨p, mem, ws, read_p, w, here, folded⟩)
    · exact ⟨w, (split w).mpr (.inl own), folded⟩
    · exact ⟨w, (split w).mpr (.inr ⟨p, mem, ws, read_p, here⟩), folded⟩

/-- With a step of 2 or more, the range to the end of the field can stand in for the item. -/
theorem parse_ranged (wide : 2 ≤ step) {ranged : List Char} (range : f.SteppedRange start step ranged)
    {text' : String}
    (lists' : f.Lists text' (Function.update tokens f (joined (before ++ ranged :: after))) before ranged
      after) :
    (Schedule.parse text').toOption =
      (Schedule.parse text).toOption.map fun s => { s with expression := trimmed text' } := by
  have same_item : parseItem f ranged = parseItem f item := by
    rw [h.parseItem_eq, range.parseItem_eq, if_neg (by omega)]
  refine parse_congr lists.spaced lists'.spaced (fun g => ?_) fun g => ?_
  · by_cases here : g = f
    · subst here
      rw [Function.update_self, lists.token]
      exact parseField_replace same_item lists.free range.spelled.commaless h.spelled.commaless
    · rw [Function.update_of_ne here]
  · by_cases here : g = f
    · subst here
      rw [Function.update_self, lists.token]
      have ne := joined_ne_star (mem_around.mpr (.inl rfl)) h.slash (lists.commaless h.spelled.commaless)
      have ne' := joined_ne_star (mem_around.mpr (.inl rfl)) range.slash
        (lists'.commaless range.spelled.commaless)
      exact iff_of_false ne' ne
    · rw [Function.update_of_ne here]

end Field.SteppedStart

/-- A stepped start is read as what is reached from it in steps, alone and as one item of a list in an
expression; whether the expression is parsed is up to its other items and fields. With a step of 2 or
more it means the same as the range to the end of the field. -/
theorem stepped_start {start step : Nat} {item : List Char} (h : f.SteppedStart start step item) :
    (∃ vs, parseField f item = .ok vs ∧ ∀ v, v ∈ vs ↔ f.Runs start step v) ∧
    (∀ ranged, f.SteppedRange start step ranged →
      ∃ vs, parseField f ranged = .ok vs ∧ ∀ v, v ∈ vs ↔ f.Reaches start step v) ∧
    ∀ text tokens before after, f.Lists text tokens before item after →
      ((∃ s, Schedule.parse text = .ok s) ↔
        (∀ p ∈ before ++ after, ∃ vs, parseField f p = .ok vs) ∧
          ∀ g, g ≠ f → ∃ vs, parseField g (tokens g) = .ok vs) ∧
      (∀ s, Schedule.parse text = .ok s → ∀ v, v ∈ s.values f ↔
        (∃ w, f.Runs start step w ∧ v = f.fold w) ∨
          ∃ p ∈ before ++ after, ∃ ws, parseField f p = .ok ws ∧ ∃ w ∈ ws, v = f.fold w) ∧
      (2 ≤ step → ∀ ranged text', f.SteppedRange start step ranged →
        f.Lists text' (Function.update tokens f (joined (before ++ ranged :: after))) before ranged after →
        (Schedule.parse text').toOption =
          (Schedule.parse text).toOption.map fun s => { s with expression := trimmed text' }) :=
  ⟨h.read, fun _ range => range.read, fun _ _ _ _ lists =>
    ⟨h.parsed_iff lists, fun _ parsed => h.mem_values lists parsed,
      fun wide _ _ range lists' => h.parse_ranged lists wide range lists'⟩⟩

/-- Every quarter of an hour from five past, and one past: the range says the same. -/
theorem stepped_start_quarters :
    Field.minute.SteppedStart 5 15 "5/15".toList ∧
      (Schedule.parse "1,5/15 * * * *").toOption.map (·.minutes) = some [1, 5, 20, 35, 50] ∧
      (Schedule.parse "1,5-59/15 * * * *").toOption =
        (Schedule.parse "1,5/15 * * * *").toOption.map
          fun s => { s with expression := "1,5-59/15 * * * *" } := by
  let tokens : Field → List Char := fun f => if f = .minute then "1,5/15".toList else ['*']
  have start : Field.minute.SteppedStart 5 15 "5/15".toList :=
    ⟨by decide, .stepped (s := ['5']) (t := ['1', '5']) (by decide) (.single (by decide) rfl) rfl
      (by decide), by decide, by decide⟩
  have range : Field.minute.SteppedRange 5 15 "5-59/15".toList :=
    ⟨by decide, .stepped (s := "5-59".toList) (t := ['1', '5']) (by decide)
      (.range (a := ['5']) (b := ['5', '9']) (by decide) rfl rfl) rfl (by decide), by decide, by decide⟩
  have lists : Field.minute.Lists "1,5/15 * * * *" tokens [['1']] "5/15".toList [] :=
    ⟨words_eq_iff.mp (by decide +kernel), by decide, by decide⟩
  have lists' : Field.minute.Lists "1,5-59/15 * * * *"
      (Function.update tokens .minute (joined ([['1']] ++ ["5-59/15".toList]))) [['1']]
      "5-59/15".toList [] :=
    ⟨words_eq_iff.mp (by decide +kernel), by decide, by decide⟩
  have trimmed : trimmed "1,5-59/15 * * * *" = "1,5-59/15 * * * *" := by decide +kernel
  obtain ⟨-, -, listed⟩ := stepped_start start
  obtain ⟨-, -, same⟩ := listed _ _ _ _ lists
  refine ⟨start, by decide +kernel, ?_⟩
  rw [same (by decide) _ _ range lists', trimmed]

/-- From five past in steps of one minute, the item is read as five past only, although every later
minute is reached and the range has them all. -/
theorem stepped_start_by_one :
    Field.minute.SteppedStart 5 1 "5/1".toList ∧ Field.minute.Reaches 5 1 6 ∧
      parseField .minute "5/1".toList = .ok [5] ∧
      (Schedule.parse "5/1 * * * *").toOption.map (·.minutes) = some [5] ∧
      (Schedule.parse "5-59/1 * * * *").toOption.map (·.minutes) = some (List.range' 5 55) := by
  refine ⟨⟨by decide, ?_, by decide, by decide⟩, ⟨by decide, by decide, by decide⟩, by decide +kernel,
    by decide +kernel, by decide +kernel⟩
  exact .stepped (s := ['5']) (t := ['1']) (by decide) (.single (by decide) rfl) rfl (by decide)

end Settler.Cron
