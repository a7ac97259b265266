import Mathlib.Data.List.Infix
import Settler.Proofs.Text.Strings

/-!
Where one text occurs in another.

A word occurs in a string exactly if its characters do (`Str.contains_ofString`). A word that does not have
a separator lies between two of them: what is written on both sides of the separator cannot make it up
together (`infix_cut_iff`).
-/

namespace Settler

namespace Text

theorem occursIn_iff {α : Type} [BEq α] [LawfulBEq α] {part s : List α} :
    occursIn part s = true ↔ part <:+: s := by
  induction s with
  | nil => rw [occursIn, List.isEmpty_iff, List.infix_nil]
  | cons c rest ih =>
    rw [occursIn, Bool.or_eq_true, ih, List.isPrefixOf_iff_prefix, List.infix_cons_iff]

end Text

namespace Str

theorem contains_iff {s : Str} {word : String} :
    s.contains word = true ↔ (ofString word).glyphs <:+: s.glyphs := Text.occursIn_iff

/-- A word occurs in a string exactly if its characters do. -/
theorem contains_ofString {s word : String} :
    (ofString s).contains word = true ↔ word.toList <:+: s.toList := by
  rw [contains_iff, glyphs_ofString, glyphs_ofString]
  constructor
  · rintro ⟨before, after, joined⟩
    -- what stands around the word in a string is made of characters too
    obtain ⟨front, back, whole, left, right⟩ := List.map_eq_append_iff.mp joined.symm
    obtain ⟨start, middle, rfl, -, inside⟩ := List.map_eq_append_iff.mp left
    rw [whole, List.map_injective_iff.mpr (fun _ _ => Glyph.char.inj) inside]
    exact ⟨start, back, rfl⟩
  · rintro ⟨before, after, joined⟩
    exact ⟨before.map .char, after.map .char, by rw [← joined, List.map_append, List.map_append]⟩

end Str

namespace Text

variable {w : List Char} {c : Char}

/-- A word without the separator lies on one side of it. -/
theorem infix_cut_iff (full : w ≠ []) (free : c ∉ w) (a b : List Char) :
    w <:+: a ++ c :: b ↔ w <:+: a ∨ w <:+: b := by
  have apart : ∀ v, v ≠ [] → c ∉ v → ¬ v <+: c :: b := by
    intro v full free starts
    rcases List.prefix_cons_iff.mp starts with rfl | ⟨t, rfl, -⟩
    · exact full rfl
    · exact free List.mem_cons_self
  rw [List.infix_append_iff, List.infix_cons_iff]
  constructor
  · rintro (left | (starts | right) | ⟨u, v, rfl, ends, starts⟩)
    · exact .inl left
    · exact absurd starts (apart w full free)
    · exact .inr right
    · rcases eq_or_ne v [] with rfl | some
      · rw [List.append_nil]
        exact .inl ends.isInfix
      · exact absurd starts (apart v some fun mem => free (List.mem_append_right u mem))
  · rintro (left | right)
    · exact .inl left
    · exact .inr (.inl (.inr right))

/-- A word without the separator lies in what comes before the first one, or in one of the parts that the
separator begins. -/
theorem infix_flatMap_cut_iff {α : Type} (full : w ≠ []) (free : c ∉ w) (head : List Char)
    (part : α → List Char) (xs : List α) :
    w <:+: head ++ xs.flatMap (fun x => c :: part x) ↔ w <:+: head ∨ ∃ x ∈ xs, w <:+: part x := by
  induction xs generalizing head with
  | nil => simp
  | cons x xs ih =>
    rw [List.flatMap_cons, List.cons_append, infix_cut_iff full free, ih]
    simp

/-- A word does not occur where one of its characters does not. -/
theorem not_infix_of_not_mem {s : List Char} (mem : c ∈ w) (free : c ∉ s) : ¬ w <:+: s :=
  fun inside => free (inside.subset mem)

end Text

end Settler
