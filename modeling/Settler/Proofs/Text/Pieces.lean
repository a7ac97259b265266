import Settler.Text.Blank

/-!
What cutting a text says of it: its words, the pieces between separators, the parts around the first
separator.

Each function is described by the texts that it takes apart in a given way, so that a reader built on
it can be compared with a grammar.
-/

namespace Settler.Text

/-! ### Words -/

/-- The text is the tokens in order, with blanks before, between and after them. -/
inductive Spaced : List Char → List (List Char) → Prop where
  | nil {gap : List Char} (blank : ∀ c ∈ gap, isBlank c) : Spaced gap []
  | cons {gap token rest : List Char} {ws : List (List Char)} (blank : ∀ c ∈ gap, isBlank c)
      (full : token ≠ []) (solid : ∀ c ∈ token, isBlank c = false)
      (parted : ∀ c ∈ rest.head?, isBlank c) (after : Spaced rest ws) :
      Spaced (gap ++ (token ++ rest)) (token :: ws)

namespace Spaced

variable {c : Char} {s : List Char} {ws : List (List Char)}

/-- A blank more in front changes no token. -/
theorem cons_blank (blank : isBlank c) (h : Spaced s ws) : Spaced (c :: s) ws := by
  cases h with
  | nil gap => exact .nil (List.forall_mem_cons.mpr ⟨blank, gap⟩)
  | @cons gap _ _ _ blanks full solid parted after =>
    have longer : ∀ d ∈ c :: gap, isBlank d := List.forall_mem_cons.mpr ⟨blank, blanks⟩
    exact .cons longer full solid parted after

/-- A character more in front that is not blank is the first token, or the start of it. -/
theorem cons_ink (ink : isBlank c = false) (h : Spaced s ws) : ∃ ws', Spaced (c :: s) ws' := by
  by_cases parted : ∀ d ∈ s.head?, isBlank d
  · have alone : ∀ d ∈ [c], isBlank d = false := by simpa using ink
    exact ⟨[c] :: ws, .cons (List.forall_mem_nil _) (List.cons_ne_nil c []) alone parted h⟩
  · cases h with
    | nil gap => exact absurd (fun d here => gap d (List.mem_of_head? here)) parted
    | @cons gap token rest ws blank full solid ends after =>
      cases gap with
      | nil =>
        have longer : ∀ d ∈ c :: token, isBlank d = false :=
          List.forall_mem_cons.mpr ⟨ink, solid⟩
        exact ⟨(c :: token) :: ws,
          .cons (List.forall_mem_nil _) (List.cons_ne_nil c token) longer ends after⟩
      | cons d gap =>
        refine absurd (fun e here => ?_) parted
        obtain rfl : d = e := by simpa using here
        exact blank d List.mem_cons_self

/-- Blanks more at the end change no token. -/
theorem append_blanks {gap : List Char} (blank : ∀ c ∈ gap, isBlank c) (h : Spaced s ws) :
    Spaced (s ++ gap) ws := by
  induction h with
  | nil gap' => exact .nil fun c mem => (List.mem_append.mp mem).elim (gap' c) (blank c)
  | @cons _ token rest _ gap' full solid parted after ih =>
    rw [List.append_assoc, List.append_assoc]
    refine .cons gap' full solid ?_ ih
    cases rest with
    | nil => exact fun c here => blank c (List.mem_of_head? here)
    | cons d rest => exact parted

end Spaced

theorem words_cons (c : Char) (s : List Char) :
    words (c :: s) =
      if isBlank c then words s
      else
        match s, words s with
        | [], ws => [c] :: ws
        | d :: _, ws =>
          if isBlank d then [c] :: ws
          else
            match ws with
            | [] => [[c]]
            | w :: ws => (c :: w) :: ws := rfl

theorem words_blanks {gap : List Char} (blank : ∀ c ∈ gap, isBlank c) (s : List Char) :
    words (gap ++ s) = words s := by
  induction gap with
  | nil => rfl
  | cons c gap ih =>
    rw [List.forall_mem_cons] at blank
    rw [List.cons_append, words_cons, if_pos blank.1, ih blank.2]

/-- A run of characters that are not blank is a word, if a blank or nothing follows it. -/
theorem words_token {token rest : List Char} (full : token ≠ [])
    (solid : ∀ c ∈ token, isBlank c = false) (parted : ∀ c ∈ rest.head?, isBlank c) :
    words (token ++ rest) = token :: words rest := by
  induction token with
  | nil => exact absurd rfl full
  | cons c token ih =>
    rw [List.forall_mem_cons] at solid
    obtain ⟨ink, solid⟩ := solid
    rw [List.cons_append, words_cons, ink, if_neg Bool.false_ne_true]
    cases token with
    | nil =>
      cases rest with
      | nil => rfl
      | cons d rest => exact if_pos (parted d rfl)
    | cons d token =>
      have next : isBlank d = false := solid d List.mem_cons_self
      rw [ih (List.cons_ne_nil d token) solid, List.cons_append]
      exact if_neg (next ▸ Bool.false_ne_true)

theorem words_of_spaced {s : List Char} {ws : List (List Char)} (h : Spaced s ws) :
    words s = ws := by
  induction h with
  | @nil gap blank =>
    rw [← List.append_nil gap, words_blanks blank]
    rfl
  | cons blank full solid parted after ih =>
    rw [words_blanks blank, words_token full solid parted, ih]

theorem exists_spaced (s : List Char) : ∃ ws, Spaced s ws := by
  induction s with
  | nil => exact ⟨[], .nil (by simp)⟩
  | cons c s ih =>
    obtain ⟨ws, spaced⟩ := ih
    cases ink : isBlank c with
    | true => exact ⟨ws, spaced.cons_blank ink⟩
    | false => exact spaced.cons_ink ink

/-- The words of a text are its tokens. -/
theorem words_eq_iff {s : List Char} {ws : List (List Char)} : words s = ws ↔ Spaced s ws := by
  refine ⟨?_, words_of_spaced⟩
  rintro rfl
  obtain ⟨ws, spaced⟩ := exists_spaced s
  rwa [words_of_spaced spaced]

/-- Trimming takes blanks from the ends only, so it changes no word. -/
theorem words_trim (s : List Char) : words (trim s) = words s := by
  have left : s = s.takeWhile isBlank ++ s.dropWhile isBlank := List.takeWhile_append_dropWhile.symm
  have right : s.dropWhile isBlank
      = trim s ++ ((s.dropWhile isBlank).reverse.takeWhile isBlank).reverse := by
    rw [trim, trimBy, ← List.reverse_append, List.takeWhile_append_dropWhile, List.reverse_reverse]
  have blanks : ∀ t : List Char, ∀ c ∈ t.takeWhile isBlank, isBlank c := fun t =>
    List.all_eq_true.mp List.all_takeWhile
  have trimmed : Spaced (s.dropWhile isBlank) (words (trim s)) := by
    rw [right]
    exact (words_eq_iff.mp rfl).append_blanks fun c mem => blanks _ c (List.mem_reverse.mp mem)
  rw [left, words_blanks (blanks s), words_of_spaced trimmed, ← left]

/-! ### Separators -/

theorem splitAt_eq_splitOn (sep : Char) (s : List Char) : splitAt sep s = s.splitOn sep := by
  induction s with
  | nil => rfl
  | cons c s ih =>
    rw [splitAt, List.splitOn_cons_eq_if_modifyHead, ih]
    by_cases h : c = sep
    · simp [h]
    · cases pieces : s.splitOn sep with
      | nil => exact absurd pieces (List.splitOn_ne_nil sep s)
      | cons p ps => simp [h]

theorem not_mem_of_mem_splitOn {sep : Char} {s : List Char} : ∀ p ∈ s.splitOn sep, sep ∉ p := by
  induction s with
  | nil => simp
  | cons c s ih =>
    rw [List.splitOn_cons_eq_if_modifyHead]
    by_cases h : c = sep
    · simpa [h] using ih
    · cases pieces : s.splitOn sep with
      | nil => exact absurd pieces (List.splitOn_ne_nil sep s)
      | cons p ps =>
        rw [pieces, List.forall_mem_cons] at ih
        simpa [h, Ne.symm h] using ih

/-- The pieces of a text are the texts without the separator that it joins. -/
theorem splitAt_eq_iff {sep : Char} {s : List Char} {ps : List (List Char)} :
    splitAt sep s = ps ↔ ps ≠ [] ∧ (∀ p ∈ ps, sep ∉ p) ∧ [sep].intercalate ps = s := by
  rw [splitAt_eq_splitOn]
  constructor
  · rintro rfl
    exact ⟨List.splitOn_ne_nil sep s, not_mem_of_mem_splitOn, List.intercalate_splitOn sep⟩
  · rintro ⟨some, free, rfl⟩
    exact List.splitOn_intercalate sep free some

theorem cut?_eq_none_iff {sep : Char} {s : List Char} : cut? sep s = none ↔ sep ∉ s := by
  induction s with
  | nil => simp [cut?]
  | cons c s ih =>
    by_cases h : c = sep
    · simp [cut?, h]
    · simp [cut?, h, ih, Ne.symm h]

theorem cut?_append {sep : Char} {a : List Char} (free : sep ∉ a) (b : List Char) :
    cut? sep (a ++ sep :: b) = some (a, b) := by
  induction a with
  | nil => simp [cut?]
  | cons c a ih =>
    rw [List.mem_cons, not_or] at free
    simp [cut?, Ne.symm free.1, ih free.2]

/-- A text is cut at its first separator. -/
theorem cut?_eq_some_iff {sep : Char} {s a b : List Char} :
    cut? sep s = some (a, b) ↔ sep ∉ a ∧ a ++ sep :: b = s := by
  constructor
  · intro h
    induction s generalizing a with
    | nil => cases h
    | cons c s ih =>
      by_cases here : c = sep
      · simp only [cut?, here, if_true, Option.some.injEq, Prod.mk.injEq] at h
        obtain ⟨rfl, rfl⟩ := h
        simp [here]
      · simp only [cut?, here, if_false, Option.map_eq_some_iff, Prod.mk.injEq] at h
        obtain ⟨⟨a', b'⟩, found, rfl, rfl⟩ := h
        obtain ⟨free, joined⟩ := ih found
        simp [Ne.symm here, free, joined]
  · rintro ⟨free, rfl⟩
    exact cut?_append free b

end Settler.Text
