import Mathlib.Data.List.Basic
import Settler.Text.Str

/-!
Strings as texts.

A string is a text without halves of surrogate pairs. It can be read back, texts of different strings
differ, and the text of strings one after the other is that of their texts.
-/

namespace Settler.Str

theorem ext_glyphs {s t : Str} (h : s.glyphs = t.glyphs) : s = t := by
  cases s
  cases t
  exact congrArg mk h

theorem glyphs_ofString (s : String) : (ofString s).glyphs = s.toList.map .char := rfl

theorem glyphs_append (s t : Str) : (s ++ t).glyphs = s.glyphs ++ t.glyphs := rfl

theorem append_assoc (s t u : Str) : s ++ t ++ u = s ++ (t ++ u) := ext_glyphs (List.append_assoc ..)

@[simp] theorem append_eq_empty_iff {s t : Str} :
    s ++ t = ofString "" ↔ s = ofString "" ∧ t = ofString "" := by
  have empty : ∀ u : Str, u = ofString "" ↔ u.glyphs = [] := fun u => ⟨congrArg glyphs, ext_glyphs⟩
  rw [empty, empty, empty, glyphs_append, List.append_eq_nil_iff]

theorem ofString_append (s t : String) : ofString (s ++ t) = ofString s ++ ofString t :=
  ext_glyphs (by simp only [glyphs_ofString, glyphs_append, String.toList_append, List.map_append])

theorem mapM_char?_eq_some_iff {gs : List Glyph} {cs : List Char} :
    gs.mapM Glyph.char? = some cs ↔ gs = cs.map .char := by
  induction gs generalizing cs with
  | nil => cases cs <;> simp
  | cons g gs ih =>
    rw [List.mapM_cons]
    cases g with
    | half k => cases cs <;> simp [Glyph.char?]
    | char c =>
      show (gs.mapM Glyph.char?).bind (fun rest => some (c :: rest)) = some cs ↔ _
      rw [Option.bind_eq_some_iff]
      constructor
      · rintro ⟨rest, chars, ⟨⟩⟩
        rw [ih.mp chars, List.map_cons]
      · cases cs with
        | nil => nofun
        | cons d cs =>
          intro same
          obtain ⟨⟨⟩, rest⟩ := List.cons.inj same
          exact ⟨cs, ih.mpr rest, rfl⟩

/-- A text is read as a string exactly if it is the text of that string. -/
theorem string?_eq_some_iff {s : Str} {t : String} : s.string? = some t ↔ s = ofString t := by
  rw [string?, Option.map_eq_some_iff]
  constructor
  · rintro ⟨cs, chars, rfl⟩
    exact ext_glyphs (by rw [mapM_char?_eq_some_iff.mp chars, glyphs_ofString, String.toList_ofList])
  · rintro rfl
    exact ⟨t.toList, mapM_char?_eq_some_iff.mpr rfl, String.ofList_toList⟩

@[simp] theorem string?_ofString (s : String) : (ofString s).string? = some s := string?_eq_some_iff.mpr rfl

@[simp] theorem ofString_inj {s t : String} : ofString s = ofString t ↔ s = t := by
  constructor
  · intro same
    have read : (ofString s).string? = (ofString t).string? := congrArg string? same
    simpa using read
  · exact congrArg ofString

end Settler.Str
