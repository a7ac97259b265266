import Mathlib.Data.Nat.Digits.Defs
import Mathlib.Data.String.Basic
import Settler.Proofs.Settlement.Collections
import Settler.Proofs.Text.Occurrences
import Settler.Settlement.Failure

/-!
What the refusal of a malformed collection is taken for.

The refusal is the report in words, and the only words in it that are not its own are the echoes of the
input at fault. The transient text and the markers are foreign to the report's own words, and no separator
of them lets one begin in an echo and end outside (`infix_malformed_iff`). An echo is cut to some fifty
characters, which is too short for the transient text, but not for a marker (`paymentFailure_malformed`).
-/

namespace Settler

open Settler.Text

namespace Validation

/-! ### Echoes -/

/-- What an issue shows of the input at fault. -/
def Issue.echo (i : Issue) : List Char := (clipped i.input.shown).toList

theorem length_le_utf8Len (s : List Char) : s.length ≤ String.utf8Len s := by
  induction s with
  | nil => exact Nat.zero_le _
  | cons c s ih =>
    have pos := Char.utf8Size_pos c
    rw [List.length_cons, String.utf8Len_cons]
    omega

theorem length_takeBytes_le (room : Nat) (s : List Char) : (takeBytes room s).length ≤ room := by
  induction s generalizing room with
  | nil => exact Nat.zero_le _
  | cons c s ih =>
    have pos := Char.utf8Size_pos c
    rw [takeBytes]
    split
    · have := ih (room - c.utf8Size)
      rw [List.length_cons]
      omega
    · exact Nat.zero_le _

/-- An echo has at most 52 characters: 25, three points, and 24. -/
theorem Issue.length_echo_le (i : Issue) : i.echo.length ≤ 52 := by
  unfold echo clipped
  split
  · next short =>
    have chars := length_le_utf8Len i.input.shown.toList
    rw [← String.utf8ByteSize_ofList, String.ofList_toList] at chars
    omega
  · have front := length_takeBytes_le 25 i.input.shown.toList
    have back := length_takeBytes_le 24 i.input.shown.toList.reverse
    simp only [String.toList_ofList, List.length_append, List.length_cons, List.length_nil,
      List.length_reverse]
    omega

/-! ### Lines -/

/-- The line of an issue below the name of its field, cut at its equals signs, and at the comma that
follows the echo. -/
def Issue.line (model : String) (i : Issue) : List Char :=
  ("  " ++ i.complaint.text model ++ " [type").toList ++ '=' ::
    ((i.complaint.tag ++ ", input_value").toList ++ '=' ::
      (i.echo ++ ',' :: (" input_type".toList ++ '=' :: (i.input.kindName ++ "]").toList)))

/-- What an issue's text is after its first line break. -/
def Issue.part (model : String) (i : Issue) : List Char :=
  match i.field? with
  | some name => name.toList ++ '\n' :: i.line model
  | none => i.line model

theorem Issue.toList_text (model : String) (i : Issue) :
    (i.text model).toList = '\n' :: i.part model := by
  have own : "\n  ".toList = '\n' :: "  ".toList ∧ " [type=".toList = " [type".toList ++ ['='] ∧
      ", input_value=".toList = ", input_value".toList ++ ['='] ∧
      ", input_type=".toList = ',' :: (" input_type".toList ++ ['=']) ∧ "\n".toList = ['\n'] := by
    decide
  obtain ⟨indent, type, value, kind, newline⟩ := own
  unfold Issue.text Issue.part Issue.line Issue.echo
  cases i.field? <;> simp [String.toList_append, indent, type, value, kind, newline]

end Validation

namespace Settlement

open Settler.Validation

namespace Collection

/-! ### Words that reports do not have -/

/-- Capitals that reports on a collection do not have of their own, but for the one of `Field required`. -/
def capitals : List Char := ['F', 'R', 'S']

/-- The text holds none of the capitals. -/
def Uncapital (s : List Char) : Prop := ∀ c ∈ capitals, c ∉ s

instance (s : List Char) : Decidable (Uncapital s) :=
  decidable_of_iff ((capitals.all fun c => !s.contains c) = true) (by simp [Uncapital])

theorem uncapital_append {a b : List Char} (ha : Uncapital a) (hb : Uncapital b) :
    Uncapital (a ++ b) := by
  intro c mem inside
  rcases List.mem_append.mp inside with left | right
  · exact ha c mem left
  · exact hb c mem right

theorem uncapital_ofList {s : List Char} (h : Uncapital s) : Uncapital (String.ofList s).toList := by
  rwa [String.toList_ofList]

/-- Digits are no capitals. -/
theorem uncapital_nat (n : Nat) : Uncapital (toString n).toList := by
  have digits : ∀ c ∈ (toString n).toList, c.isDigit := by
    intro c mem
    rw [show (toString n).toList = Nat.toDigits 10 n from String.toList_ofList] at mem
    exact Nat.isDigit_of_mem_toDigits (by decide) (by decide) mem
  have letters : ∀ c ∈ capitals, (!c.isDigit) = true := List.all_eq_true.mp (by decide)
  intro c mem inside
  have other := letters c mem
  rw [digits c inside] at other
  cases other

theorem uncapital_int (n : Int) : Uncapital (toString n).toList := by
  cases n with
  | ofNat n => exact uncapital_nat n
  | negSucc n =>
    have sign : (toString (Int.negSucc n)).toList = "-".toList ++ (toString (n + 1)).toList :=
      String.toList_append
    rw [sign]
    exact uncapital_append (uncapital_ofList (by decide)) (uncapital_nat (n + 1))

theorem uncapital_name {name : String} (mem : name ∈ fieldNames) : Uncapital name.toList := by
  simp only [fieldNames, List.mem_cons, List.not_mem_nil, or_false] at mem
  rcases mem with rfl | rfl | rfl | rfl <;> exact uncapital_ofList (by decide)

theorem uncapital_tag (c : Complaint) : Uncapital c.tag.toList := by
  cases c <;> exact uncapital_ofList (by decide)

theorem uncapital_kindName (j : Json) : Uncapital j.kindName.toList := by
  cases j <;> exact uncapital_ofList (by decide)

theorem uncapital_complaint {c : Complaint} (other : c ≠ .missing) :
    Uncapital (c.text modelName).toList := by
  cases c with
  | missing => exact absurd rfl other
  | notObject =>
    have text : (Complaint.notObject.text modelName).toList
        = "Input should be a valid dictionary or instance of ".toList ++ modelName.toList :=
      String.toList_append
    rw [text]
    exact uncapital_append (uncapital_ofList (by decide)) (uncapital_ofList (by decide))
  | _ => exact uncapital_ofList (by decide)

/-- A word that is foreign to reports on a collection: it holds none of the separators, a capital that
reports do not have, and a character that is not in their one text with a capital. -/
structure Foreign (w : List Char) : Prop where
  line : '\n' ∉ w
  equals : '=' ∉ w
  comma : ',' ∉ w
  capital : ∃ c ∈ w, c ∈ capitals
  missing : ∃ c ∈ w, c ∉ "  Field required [type".toList

theorem foreign_of_toList {text : String} {w : List Char} (spelled : text.toList = w)
    (separators : '\n' ∉ w ∧ '=' ∉ w ∧ ',' ∉ w) (capital : (w.any fun c => capitals.contains c) = true)
    {missing : List Char} (own : "  Field required [type" = .ofList missing)
    (foreign : (w.any fun c => !missing.contains c) = true) : Foreign text.toList := by
  rw [spelled]
  refine ⟨separators.1, separators.2.1, separators.2.2, by simpa using capital, ?_⟩
  rw [own, String.toList_ofList]
  simpa using foreign

theorem foreign_marker {marker : String} (mem : marker ∈ exhaustedMarkers) : Foreign marker.toList := by
  simp only [exhaustedMarkers, List.mem_cons, List.not_mem_nil, or_false] at mem
  rcases mem with rfl | rfl <;>
    exact foreign_of_toList String.toList_ofList (by decide) (by decide) rfl (by decide)

theorem foreign_transientText : Foreign transientText.toList :=
  foreign_of_toList (String.toList_append.trans (congrArg₂ _ String.toList_ofList String.toList_ofList))
    (by decide) (by decide) rfl (by decide)

theorem lt_length_of_toList {text : String} {w : List Char} {n : Nat} (spelled : text.toList = w)
    (long : n < w.length) : n < text.toList.length := spelled ▸ long

/-- The transient text is longer than an echo. -/
theorem lt_length_transientText : 52 < transientText.toList.length :=
  lt_length_of_toList (String.toList_append.trans (congrArg₂ _ String.toList_ofList String.toList_ofList))
    (by decide +kernel)

/-! ### The refusal of a malformed collection -/

/-- The reason of the refusal. -/
def malformed (epoch : Int) (report : Report) : String :=
  "pay_debt: malformed debt collection for epoch " ++ toString epoch ++ ": " ++ report.message

/-- What the reason says before its first issue. -/
def head (epoch : Int) (count : Nat) : List Char :=
  "pay_debt: malformed debt collection for epoch ".toList ++ (toString epoch).toList ++ ": ".toList
    ++ (toString count).toList ++ " validation error".toList ++ (if count = 1 then "" else "s").toList
    ++ " for ".toList ++ modelName.toList

theorem uncapital_head (epoch : Int) (count : Nat) : Uncapital (head epoch count) := by
  have plural : Uncapital (if count = 1 then "" else "s").toList := by
    split <;> exact uncapital_ofList (by decide)
  have own : Uncapital "pay_debt: malformed debt collection for epoch ".toList ∧
      Uncapital ": ".toList ∧ Uncapital " validation error".toList ∧ Uncapital " for ".toList ∧
      Uncapital modelName.toList := by
    refine ⟨?_, ?_, ?_, ?_, ?_⟩ <;> exact uncapital_ofList (by decide)
  obtain ⟨intro, colon, error, of, model⟩ := own
  unfold head
  exact uncapital_append (uncapital_append (uncapital_append (uncapital_append (uncapital_append
    (uncapital_append (uncapital_append intro (uncapital_int epoch)) colon) (uncapital_nat count))
    error) plural) of) model

theorem toList_malformed (epoch : Int) {report : Report} (reported : Reported report) :
    (malformed epoch report).toList = head epoch report.issues.length
      ++ report.issues.flatMap fun i => '\n' :: i.part modelName := by
  unfold malformed head Report.message
  rw [reported.model]
  simp only [String.toList_append, String.toList_join, List.flatMap_map, Issue.toList_text,
    List.append_assoc]

namespace Foreign

variable {w : List Char} (foreign : Foreign w)
include foreign

theorem full : w ≠ [] := by
  rintro rfl
  obtain ⟨c, mem, -⟩ := foreign.missing
  cases mem

theorem not_infix {s : List Char} (own : Uncapital s) : ¬ w <:+: s := by
  obtain ⟨c, mem, capital⟩ := foreign.capital
  exact not_infix_of_not_mem mem (own c capital)

theorem not_infix_complaint (c : Complaint) : ¬ w <:+: ("  " ++ c.text modelName ++ " [type").toList := by
  by_cases missing : c = .missing
  · obtain ⟨a, mem, other⟩ := foreign.missing
    rw [missing]
    exact not_infix_of_not_mem mem other
  · rw [String.toList_append, String.toList_append]
    exact foreign.not_infix (uncapital_append (uncapital_append (uncapital_ofList (by decide))
      (uncapital_complaint missing)) (uncapital_ofList (by decide)))

/-- In an issue's line the word occurs in the echo or nowhere. -/
theorem infix_line_iff (i : Issue) : w <:+: i.line modelName ↔ w <:+: i.echo := by
  have tag : ¬ w <:+: (i.complaint.tag ++ ", input_value").toList := by
    rw [String.toList_append]
    exact foreign.not_infix (uncapital_append (uncapital_tag _) (uncapital_ofList (by decide)))
  have label : ¬ w <:+: " input_type".toList := foreign.not_infix (uncapital_ofList (by decide))
  have kind : ¬ w <:+: (i.input.kindName ++ "]").toList := by
    rw [String.toList_append]
    exact foreign.not_infix (uncapital_append (uncapital_kindName _) (uncapital_ofList (by decide)))
  simp only [Issue.line, infix_cut_iff foreign.full foreign.equals,
    infix_cut_iff foreign.full foreign.comma, foreign.not_infix_complaint, tag, label, kind, false_or,
    or_false]

theorem infix_part_iff {i : Issue} (named : ∀ name ∈ i.field?, name ∈ fieldNames) :
    w <:+: i.part modelName ↔ w <:+: i.echo := by
  unfold Issue.part
  cases field : i.field? with
  | none => exact foreign.infix_line_iff i
  | some name =>
    have own := foreign.not_infix (uncapital_name (named name field))
    simp only [infix_cut_iff foreign.full foreign.line, own, false_or, foreign.infix_line_iff]

/-- In the reason of a refusal the word occurs in an echo or nowhere. -/
theorem infix_malformed_iff (epoch : Int) {report : Report} (reported : Reported report) :
    w <:+: (malformed epoch report).toList ↔ ∃ i ∈ report.issues, w <:+: i.echo := by
  rw [toList_malformed epoch reported, infix_flatMap_cut_iff foreign.full foreign.line]
  simp only [foreign.not_infix (uncapital_head _ _), false_or]
  refine exists_congr fun i => and_congr_right fun mem => ?_
  exact foreign.infix_part_iff (reported.fields i mem)

end Foreign

/-- Some issue echoes a marker. -/
def Echoes (report : Report) : Prop :=
  ∃ marker ∈ exhaustedMarkers, ∃ i ∈ report.issues, marker.toList <:+: i.echo

/-- The refusal of a malformed collection is never taken for one that may be tried again. It is taken for
the end of the records exactly if an issue echoes a marker. -/
theorem paymentFailure_malformed (epoch : Int) {report : Report} (reported : Reported report) :
    paymentFailure (malformed epoch report) ≠ .retryable ∧
      (paymentFailure (malformed epoch report) = .exhausted ↔ Echoes report) := by
  have permanent : (Str.ofString (malformed epoch report)).contains transientText = false := by
    rw [Bool.eq_false_iff, ne_eq, Str.contains_ofString,
      foreign_transientText.infix_malformed_iff epoch reported]
    rintro ⟨i, -, inside⟩
    have long := lt_length_transientText
    have short := i.length_echo_le
    have := inside.length_le
    omega
  have marked :
      exhaustedMarkers.any (Str.ofString (malformed epoch report)).contains = true ↔ Echoes report := by
    rw [List.any_eq_true, Echoes]
    refine exists_congr fun marker => and_congr_right fun mem => ?_
    rw [Str.contains_ofString, (foreign_marker mem).infix_malformed_iff epoch reported]
  rw [← marked, paymentFailure, permanent, if_neg Bool.false_ne_true]
  cases exhaustedMarkers.any (Str.ofString (malformed epoch report)).contains <;> simp

end Collection

end Settlement

end Settler
