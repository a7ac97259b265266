import Mathlib.Data.List.Basic
import Settler.Text.Digits

/-!
The texts that are read as whole numbers.

A literal is written out: white space, at most one sign, digits with single underscores between them, white
space (`Literal`). A text is read as an integer exactly if it is a literal of it that is not too long
(`readInt?_eq_some_iff`).
-/

namespace Settler.Text

/-! ### Digits -/

/-- The text is digits with these values, with single underscores between them. -/
inductive Digits (digit? : Char → Option Nat) : List Char → List Nat → Prop where
  | last {c : Char} {d : Nat} (digit : digit? c = some d) : Digits digit? [c] [d]
  | next {c : Char} {d : Nat} {s : List Char} {ds : List Nat} (digit : digit? c = some d)
      (after : Digits digit? s ds) : Digits digit? (c :: s) (d :: ds)
  | parted {c : Char} {d : Nat} {s : List Char} {ds : List Nat} (digit : digit? c = some d)
      (after : Digits digit? s ds) : Digits digit? (c :: '_' :: s) (d :: ds)

section

variable {digit? : Char → Option Nat} {s : List Char} {ds : List Nat}

/-- The first character of digits is a digit. -/
theorem Digits.head (h : Digits digit? s ds) : ∃ c rest, s = c :: rest ∧ (digit? c).isSome := by
  cases h with
  | last digit => exact ⟨_, _, rfl, by rw [digit]; rfl⟩
  | next digit => exact ⟨_, _, rfl, by rw [digit]; rfl⟩
  | parted digit => exact ⟨_, _, rfl, by rw [digit]; rfl⟩

/-- The last character of digits is a digit. -/
theorem Digits.getLast (h : Digits digit? s ds) : ∃ front c, s = front ++ [c] ∧ (digit? c).isSome := by
  induction h with
  | @last c d digit => exact ⟨[], c, rfl, by rw [digit]; rfl⟩
  | @next c _ _ _ _ _ ih =>
    obtain ⟨front, e, rfl, digit⟩ := ih
    exact ⟨c :: front, e, rfl, digit⟩
  | @parted c _ _ _ _ _ ih =>
    obtain ⟨front, e, rfl, digit⟩ := ih
    exact ⟨c :: '_' :: front, e, rfl, digit⟩

/-- Digits are read as their values, where an underscore is no digit. -/
theorem digits?_eq_some_iff (underscore : digit? '_' = none) :
    digits? digit? s = some ds ↔ Digits digit? s ds := by
  constructor
  · intro h
    fun_induction digits? digit? s generalizing ds with
    | case1 => cases h
    | case2 c =>
      obtain ⟨d, digit, rfl⟩ := Option.map_eq_some_iff.mp h
      exact .last digit
    | case3 c rest ih =>
      obtain ⟨d, digit, h⟩ := Option.bind_eq_some_iff.mp h
      obtain ⟨ds, after, same⟩ := Option.bind_eq_some_iff.mp h
      cases same
      exact .parted digit (ih after)
    | case4 c e rest _ ih =>
      obtain ⟨d, digit, h⟩ := Option.bind_eq_some_iff.mp h
      obtain ⟨ds, after, same⟩ := Option.bind_eq_some_iff.mp h
      cases same
      exact .next digit (ih after)
  · intro h
    induction h with
    | last digit => simp [digits?, digit]
    | @next c d s ds digit after ih =>
      obtain ⟨e, rest, rfl, first⟩ := after.head
      have other : e ≠ '_' := by
        rintro rfl
        rw [underscore] at first
        cases first
      rw [digits?, digit, ih]
      · rfl
      · exact fun h => other h
    | parted digit after ih => simp [digits?, digit, ih]

end

/-! ### White space around -/

section

variable {p : Char → Bool}

/-- What neither begins nor ends with a character of a class is left by trimming away that class. -/
theorem trimBy_eq {before mid after : List Char} (blankBefore : ∀ c ∈ before, p c)
    (blankAfter : ∀ c ∈ after, p c) (first : ∃ c rest, mid = c :: rest ∧ p c = false)
    (last : ∃ front c, mid = front ++ [c] ∧ p c = false) : trimBy p (before ++ mid ++ after) = mid := by
  have front : (before ++ mid ++ after).dropWhile p = mid ++ after := by
    obtain ⟨c, rest, rfl, solid⟩ := first
    rw [List.append_assoc, List.dropWhile_append_of_pos blankBefore]
    exact List.dropWhile_cons_of_neg (by rw [solid]; exact Bool.false_ne_true)
  have back : (mid ++ after).reverse.dropWhile p = mid.reverse := by
    obtain ⟨front, c, rfl, solid⟩ := last
    rw [List.reverse_append, List.dropWhile_append_of_pos fun c mem => blankAfter c (List.mem_reverse.mp mem),
      List.reverse_concat]
    exact List.dropWhile_cons_of_neg (by rw [solid]; exact Bool.false_ne_true)
  rw [trimBy, front, back, List.reverse_reverse]

/-- Trimming takes away characters of the class only. -/
theorem exists_trimBy (p : Char → Bool) (s : List Char) : ∃ before after,
    s = before ++ trimBy p s ++ after ∧ (∀ c ∈ before, p c) ∧ ∀ c ∈ after, p c := by
  have blanks : ∀ t : List Char, ∀ c ∈ t.takeWhile p, p c := fun t => List.all_eq_true.mp List.all_takeWhile
  refine ⟨s.takeWhile p, ((s.dropWhile p).reverse.takeWhile p).reverse, ?_, blanks s,
    fun c mem => blanks _ c (List.mem_reverse.mp mem)⟩
  rw [trimBy, List.append_assoc, ← List.reverse_append, List.takeWhile_append_dropWhile, List.reverse_reverse,
    List.takeWhile_append_dropWhile]

end

/-- A digit of any script is no white space. -/
theorem isSpace_of_digit {c : Char} (digit : (digitValue? c).isSome) : isSpace c = false := by
  have solid : ∀ z ∈ digitZeros, ∀ k < 10, isSpace (Char.ofNat (z + k)) = false := by decide +kernel
  rw [digitValue?, Option.isSome_map] at digit
  obtain ⟨z, found⟩ := Option.isSome_iff_exists.mp digit
  have range := List.find?_some found
  rw [Bool.and_eq_true, decide_eq_true_eq, decide_eq_true_eq] at range
  have place : c = Char.ofNat (z + (c.toNat - z)) := by
    rw [Nat.add_sub_cancel' range.1, Char.ofNat_toNat]
  rw [place]
  exact solid z (List.mem_of_find?_eq_some found) _ (by omega)

/-- Digits end with no white space. -/
theorem Digits.append_last {body : List Char} {ds : List Nat} (digits : Digits digitValue? body ds)
    (sign : List Char) : ∃ front c, sign ++ body = front ++ [c] ∧ isSpace c = false := by
  obtain ⟨front, c, rfl, digit⟩ := digits.getLast
  exact ⟨sign ++ front, c, (List.append_assoc _ _ _).symm, isSpace_of_digit digit⟩

/-! ### Literals -/

/-- At most one sign, and whether it is a minus. -/
inductive Sign : List Char → Bool → Prop where
  | none : Sign [] false
  | plus : Sign ['+'] false
  | minus : Sign ['-'] true

/-- The text is a literal of the integer, with these values of its digits. -/
inductive Literal : List Char → Int → List Nat → Prop where
  | mk {before sign body after : List Char} {negative : Bool} {ds : List Nat}
      (spaceBefore : ∀ c ∈ before, isSpace c) (signed : Sign sign negative)
      (digits : Digits digitValue? body ds) (spaceAfter : ∀ c ∈ after, isSpace c) :
      Literal (before ++ (sign ++ body) ++ after) (Text.signed negative (ofDigits ds)) ds

namespace Sign

variable {sign body : List Char} {negative : Bool} {ds : List Nat}

theorem splitSign_append (h : Sign sign negative) (digits : Digits digitValue? body ds) :
    splitSign (sign ++ body) = (negative, body) := by
  cases h with
  | none =>
    obtain ⟨c, rest, rfl, digit⟩ := digits.head
    have minus : (digitValue? '-').isSome = false := by decide +kernel
    have plus : (digitValue? '+').isSome = false := by decide +kernel
    rw [List.nil_append, splitSign]
    · rintro rest' ⟨⟩
      exact Bool.false_ne_true (minus.symm.trans digit)
    · rintro rest' ⟨⟩
      exact Bool.false_ne_true (plus.symm.trans digit)
  | plus => rfl
  | minus => rfl

/-- A sign and digits begin with no white space. -/
theorem append_first (h : Sign sign negative) (digits : Digits digitValue? body ds) :
    ∃ c rest, sign ++ body = c :: rest ∧ isSpace c = false := by
  cases h with
  | none =>
    obtain ⟨c, rest, rfl, digit⟩ := digits.head
    exact ⟨c, rest, rfl, isSpace_of_digit digit⟩
  | plus => exact ⟨'+', body, rfl, by decide⟩
  | minus => exact ⟨'-', body, rfl, by decide⟩

end Sign

theorem exists_sign (s : List Char) : ∃ sign negative body,
    splitSign s = (negative, body) ∧ Sign sign negative ∧ s = sign ++ body := by
  unfold splitSign
  split
  · exact ⟨_, _, _, rfl, .minus, rfl⟩
  · exact ⟨_, _, _, rfl, .plus, rfl⟩
  · exact ⟨_, _, _, rfl, .none, rfl⟩

/-- A text is read as an integer exactly if it is a literal of it with not too many digits. -/
theorem readInt?_eq_some_iff {s : List Char} {n : Int} :
    readInt? s = some n ↔ ∃ ds, Literal s n ds ∧ ds.length ≤ digitLimit := by
  have underscore : digitValue? '_' = none := by decide +kernel
  constructor
  · intro read
    obtain ⟨before, after, parted, spaceBefore, spaceAfter⟩ := exists_trimBy isSpace s
    obtain ⟨sign, negative, body, split, signed, joined⟩ := exists_sign (trimBy isSpace s)
    rw [readInt?, split] at read
    obtain ⟨ds, digits, read⟩ := Option.bind_eq_some_iff.mp read
    split at read
    · next short =>
      cases read
      rw [parted, joined]
      exact ⟨ds, .mk spaceBefore signed ((digits?_eq_some_iff underscore).mp digits) spaceAfter, short⟩
    · cases read
  · rintro ⟨ds, ⟨spaceBefore, signed, digits, spaceAfter⟩, short⟩
    have trimmed := trimBy_eq spaceBefore spaceAfter (signed.append_first digits) (digits.append_last _)
    have read := (digits?_eq_some_iff underscore).mpr digits
    rw [readInt?, trimmed, signed.splitSign_append digits]
    simp only [read, Option.bind_eq_bind, Option.bind_some, if_pos short]

/-- Digits are written with digits and underscores only. -/
theorem Digits.not_mem {digit? : Char → Option Nat} {s : List Char} {ds : List Nat}
    (h : Digits digit? s ds) {c : Char} (plain : digit? c = none) (underscore : c ≠ '_') : c ∉ s := by
  have other : ∀ {e d}, digit? e = some d → c ≠ e := by
    rintro e d digit rfl
    rw [plain] at digit
    cases digit
  induction h with
  | last digit => simp [other digit]
  | next digit _ ih => simp [other digit, ih]
  | parted digit _ ih => simp [other digit, underscore, ih]

/-- A text that is read as an integer holds white space, signs, digits and underscores only. -/
theorem not_mem_of_readInt? {s : List Char} {n : Int} (read : readInt? s = some n) {c : Char}
    (ink : isSpace c = false) (plain : digitValue? c = none) (other : c ∉ ['+', '-', '_']) : c ∉ s := by
  simp only [List.mem_cons, List.not_mem_nil, or_false, not_or] at other
  obtain ⟨_, ⟨spaceBefore, signed, digits, spaceAfter⟩, -⟩ := readInt?_eq_some_iff.mp read
  have unspaced : ∀ {t : List Char}, (∀ e ∈ t, isSpace e) → c ∉ t := fun space mem => by
    simpa [ink] using space c mem
  have unsigned : ∀ {sign negative}, Sign sign negative → c ∉ sign := by
    rintro _ _ (_ | _ | _)
    · simp
    · simpa using other.1
    · simpa using other.2.1
  simp [unspaced spaceBefore, unsigned signed, digits.not_mem plain other.2.2, unspaced spaceAfter]

end Settler.Text
