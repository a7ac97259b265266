import Settler.Text.Blank

/-!
Texts in which halves of surrogate pairs may stand alone.

What comes over the wire may name code points that are no characters: the halves of surrogate pairs. A text
that holds one is no `String`, and it is not altered for that: a `Str` keeps characters and halves in
order. Every string is such a text.
-/

namespace Settler

/-- A character, or half of a surrogate pair: the code point so far above 0xd800. -/
inductive Glyph where
  | char (c : Char)
  | half (k : Fin 0x800)
  deriving DecidableEq, Repr, Inhabited

namespace Glyph

/-- The code point. -/
def toNat : Glyph → Nat
  | .char c => c.toNat
  | .half k => 0xd800 + k

/-- The glyph of a code point. -/
def ofNat (n : Nat) : Glyph :=
  if h : 0xd800 ≤ n ∧ n < 0xe000 then .half ⟨n - 0xd800, by omega⟩ else .char (Char.ofNat n)

/-- The character, if the glyph is one. -/
def char? : Glyph → Option Char
  | .char c => some c
  | .half _ => none

end Glyph

/-- A text of characters and halves of surrogate pairs. -/
structure Str where
  glyphs : List Glyph
  deriving DecidableEq, Repr, Inhabited

namespace Str

/-- A string as such a text. -/
def ofString (s : String) : Str := ⟨s.toList.map .char⟩

instance : Coe String Str := ⟨ofString⟩

instance : Append Str := ⟨fun s t => ⟨s.glyphs ++ t.glyphs⟩⟩

/-- The text as a string, if it holds no half of a pair. -/
def string? (s : Str) : Option String := (s.glyphs.mapM Glyph.char?).map String.ofList

/-- The text of so many glyphs at the start. -/
def take (s : Str) (n : Nat) : Str := ⟨s.glyphs.take n⟩

/-- The texts with a separator between them. -/
def intercalate (sep : Str) (ss : List Str) : Str := ⟨sep.glyphs.intercalate (ss.map glyphs)⟩

/-- The word occurs somewhere in the text. -/
def contains (s : Str) (word : String) : Bool := Text.occursIn (word.toList.map Glyph.char) s.glyphs

end Str

end Settler
