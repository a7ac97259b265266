import Settler.Http.Url
import Settler.Proofs.Text.Pieces

/-!
Places below an address.

An address that was read is normal: nothing in its path and query is left to be escaped, and its path has
no step that goes nowhere or up (`parse_isNormal`). So the address of a place below it is its own, with the
place after one slash at the end of its path and query (`below_target`).
-/

namespace Settler.Http.Url

open Settler.Text

/-! ### Escapes -/

/-- A character that stands for itself in a part. -/
def isPlain (safe : Char → Bool) (c : Char) : Bool := isUnreserved c || safe c

/-- How a character stands in a part. -/
def written (safe : Char → Bool) (c : Char) : List Char := if isPlain safe c then [c] else percent c

theorem isUnreserved_of_isHex {c : Char} (h : isHex c) : isUnreserved c := by
  unfold isHex at h
  unfold isUnreserved Char.isAlphanum Char.isAlpha Char.isUpper Char.isLower
  simp only [Bool.or_eq_true, Bool.and_eq_true, decide_eq_true_eq] at h ⊢
  rcases h with (digit | ⟨a, f⟩) | ⟨a, f⟩
  · exact .inl (.inr digit)
  · exact .inl (.inl (.inr ⟨a, Char.le_trans f (by decide)⟩))
  · exact .inl (.inl (.inl ⟨a, Char.le_trans f (by decide)⟩))

theorem percent_eq (c : Char) : ∃ s, percent c = '%' :: s := by
  have full : String.utf8EncodeChar c ≠ [] := by
    intro none
    have := String.length_utf8EncodeChar c
    have := Char.utf8Size_pos c
    rw [none, List.length_nil] at *
    omega
  unfold percent
  cases bytes : String.utf8EncodeChar c with
  | nil => exact absurd bytes full
  | cons b rest => exact ⟨_, rfl⟩

/-- The digits of an escape. -/
theorem isUnreserved_of_mem_percent {c d : Char} (mem : d ∈ percent c) : d = '%' ∨ isUnreserved d := by
  have digits : ∀ n < 256, (((Nat.toDigits 16 (n + 0x100)).drop 1).map Char.toUpper).all isUnreserved := by
    decide +kernel
  unfold percent at mem
  obtain ⟨b, -, mem⟩ := List.mem_flatMap.mp mem
  rcases List.mem_cons.mp mem with rfl | mem
  · exact .inl rfl
  · exact .inr (List.all_eq_true.mp (digits b.toNat b.toNat_lt) d mem)

section

variable {safe : Char → Bool} (escapes : safe '%')
include escapes

/-- Where percent signs are safe, each character is written by itself. -/
theorem quote_eq_flatMap (s : List Char) : quote safe s = s.flatMap (written safe) := by
  have sign : written safe '%' = ['%'] := if_pos (by rw [isPlain, escapes, Bool.or_true])
  have hex : ∀ {c}, isHex c → written safe c = [c] := fun h =>
    if_pos (by rw [isPlain, isUnreserved_of_isHex h, Bool.true_or])
  fun_induction quote safe s with
  | case1 => rfl
  | case2 a b rest digits ih =>
    rw [Bool.and_eq_true] at digits
    rw [List.flatMap_cons, List.flatMap_cons, List.flatMap_cons, sign, hex digits.1, hex digits.2, ih]
    rfl
  | case3 a b rest other ih =>
    rw [List.flatMap_cons, sign, ih, if_pos escapes]
  | case4 c rest other ih =>
    rw [List.flatMap_cons, ih]
    rfl

theorem isPlain_of_mem_quote {s : List Char} : ∀ c ∈ quote safe s, isPlain safe c := by
  intro c mem
  rw [quote_eq_flatMap escapes] at mem
  obtain ⟨d, -, mem⟩ := List.mem_flatMap.mp mem
  unfold written at mem
  split at mem
  · next plain =>
    obtain rfl := List.mem_singleton.mp mem
    exact plain
  · rcases isUnreserved_of_mem_percent mem with rfl | unreserved
    · rw [isPlain, escapes, Bool.or_true]
    · rw [isPlain, unreserved, Bool.true_or]

/-- What holds no character to escape stays as it is. -/
theorem quote_eq_self {s : List Char} (plain : ∀ c ∈ s, isPlain safe c) : quote safe s = s := by
  rw [quote_eq_flatMap escapes]
  induction s with
  | nil => rfl
  | cons c s ih =>
    rw [List.forall_mem_cons] at plain
    rw [List.flatMap_cons, ih plain.2, written, if_pos plain.1]
    rfl

/-- What has no percent sign once it is escaped was not escaped. -/
theorem eq_of_flatMap_written {s t : List Char} (unescaped : '%' ∉ t) (h : s.flatMap (written safe) = t) :
    s = t := by
  rw [← h, ← quote_eq_flatMap escapes, quote_eq_self escapes]
  intro c mem
  cases plain : isPlain safe c with
  | true => rfl
  | false =>
    obtain ⟨u, sign⟩ := percent_eq c
    have escaped : '%' ∈ written safe c := by
      rw [written, plain, if_neg Bool.false_ne_true, sign]
      exact List.mem_cons_self
    rw [← h] at unescaped
    exact absurd (List.mem_flatMap.mpr ⟨c, mem, escaped⟩) unescaped

end

/-! ### Steps -/

/-- The steps of a path. -/
def steps (path : List Char) : List (List Char) := splitAt '/' path

/-- A step that goes somewhere and not up. -/
def IsDown (step : List Char) : Prop := step ≠ ['.'] ∧ step ≠ ['.', '.']

instance : DecidablePred IsDown := fun step =>
  inferInstanceAs (Decidable (step ≠ ['.'] ∧ step ≠ ['.', '.']))

theorem steps_append (a b : List Char) : steps (a ++ '/' :: b) = steps a ++ steps b := by
  simp only [steps, splitAt_eq_splitOn, List.splitOn_append_cons_self]

theorem mem_resolveSteps {done todo : List (List Char)} :
    ∀ step ∈ resolveSteps done todo, step ∈ done ∨ step ∈ todo ∧ IsDown step := by
  fun_induction resolveSteps done todo with
  | case1 done => exact fun step mem => .inl (List.mem_reverse.mp mem)
  | case2 done rest ih =>
    exact fun step mem => (ih step mem).imp id fun ⟨mem, down⟩ => ⟨List.mem_cons_of_mem _ mem, down⟩
  | case3 done rest ih =>
    intro step mem
    rcases ih step mem with mem | ⟨mem, down⟩
    · left
      split at mem
      · exact mem
      · exact List.mem_of_mem_drop mem
    · exact .inr ⟨List.mem_cons_of_mem _ mem, down⟩
  | case4 done step' rest here up ih =>
    intro step mem
    rcases ih step mem with mem | ⟨mem, down⟩
    · rcases List.mem_cons.mp mem with rfl | mem
      · exact .inr ⟨List.mem_cons_self, here, up⟩
      · exact .inl mem
    · exact .inr ⟨List.mem_cons_of_mem _ mem, down⟩

theorem resolveSteps_of_down {done todo : List (List Char)} (down : ∀ step ∈ todo, IsDown step) :
    resolveSteps done todo = done.reverse ++ todo := by
  fun_induction resolveSteps done todo with
  | case1 done => rw [List.append_nil]
  | case2 done rest ih => exact absurd rfl (down _ List.mem_cons_self).1
  | case3 done rest ih => exact absurd rfl (down _ List.mem_cons_self).2
  | case4 done step rest here up ih =>
    rw [ih fun s mem => down s (List.mem_cons_of_mem _ mem), List.reverse_cons, List.append_assoc]
    rfl

/-- A path is normal once it is resolved. -/
theorem isDown_of_mem_normalPath {path : List Char} : ∀ step ∈ steps (normalPath path), IsDown step := by
  have down : ∀ step ∈ resolveSteps [] (splitAt '/' path), step ∈ splitAt '/' path ∧ IsDown step :=
    fun step mem => (mem_resolveSteps step mem).resolve_left List.not_mem_nil
  obtain ⟨-, free, -⟩ := splitAt_eq_iff.mp (rfl : splitAt '/' path = _)
  unfold steps normalPath
  generalize resolveSteps [] (splitAt '/' path) = resolved at down
  cases resolved with
  | nil => exact List.forall_mem_singleton.mpr ⟨nofun, nofun⟩
  | cons s rest =>
    have parts : splitAt '/' (['/'].intercalate (s :: rest)) = s :: rest :=
      splitAt_eq_iff.mpr ⟨List.cons_ne_nil _ _, fun p mem => free p (down p mem).1, rfl⟩
    rw [parts]
    exact fun step mem => (down step mem).2

theorem normalPath_eq_self {path : List Char} (down : ∀ step ∈ steps path, IsDown step) :
    normalPath path = path := by
  obtain ⟨-, -, joined⟩ := splitAt_eq_iff.mp (rfl : splitAt '/' path = _)
  exact (congrArg (['/'].intercalate ·) (resolveSteps_of_down down)).trans joined

theorem slash_not_mem_flatMap_written {s : List Char} (free : '/' ∉ s) :
    '/' ∉ s.flatMap (written pathSafe) := by
  intro mem
  obtain ⟨c, inside, mem⟩ := List.mem_flatMap.mp mem
  unfold written at mem
  split at mem
  · rw [List.mem_singleton.mp mem] at free
    exact free inside
  · rcases isUnreserved_of_mem_percent mem with same | unreserved
    · revert same
      decide
    · revert unreserved
      decide

/-- Escapes leave the slashes where they are. -/
theorem steps_quote (path : List Char) :
    steps (quote pathSafe path) = (steps path).map (List.flatMap (written pathSafe)) := by
  obtain ⟨some, free, joined⟩ := splitAt_eq_iff.mp (rfl : steps path = _)
  have slash : written pathSafe '/' = ['/'] := if_pos (by decide)
  have parted : ∀ ps : List (List Char), (['/'].intercalate ps).flatMap (written pathSafe)
      = ['/'].intercalate (ps.map (List.flatMap (written pathSafe))) := by
    intro ps
    induction ps with
    | nil => rfl
    | cons p ps ih =>
      cases ps with
      | nil => simp
      | cons p' ps =>
        rw [List.map_cons, List.map_cons, List.intercalate_cons_cons, List.intercalate_cons_cons,
          List.flatMap_append, List.flatMap_append, List.flatMap_singleton, slash, ih, List.map_cons]
  refine splitAt_eq_iff.mpr ⟨by simpa using some, ?_, ?_⟩
  · intro p mem
    obtain ⟨s, inside, rfl⟩ := List.mem_map.mp mem
    exact slash_not_mem_flatMap_written (free s inside)
  · rw [← parted, joined, quote_eq_flatMap (by decide)]

/-- Escapes make no step one that goes nowhere or up. -/
theorem isDown_of_mem_quote {path : List Char} (down : ∀ step ∈ steps path, IsDown step) :
    ∀ step ∈ steps (quote pathSafe path), IsDown step := by
  have escapes : pathSafe '%' := by decide
  intro step mem
  rw [steps_quote] at mem
  obtain ⟨s, inside, rfl⟩ := List.mem_map.mp mem
  obtain ⟨here, up⟩ := down s inside
  constructor
  · intro same
    exact here (eq_of_flatMap_written escapes (by decide) same)
  · intro same
    exact up (eq_of_flatMap_written escapes (by decide) same)

/-! ### Addresses that were read -/

/-- The address is written as one that was read: nothing in its path and query is left to be escaped, and
no step of its path goes nowhere or up, if it has a scheme or an authority. -/
structure IsNormal (u : Url) : Prop where
  path : ∀ c ∈ u.path.toList, isPlain pathSafe c
  query : ∀ q ∈ u.query, ∀ c ∈ q.toList, isPlain querySafe c
  steps : u.scheme ≠ "" ∨ u.authority ≠ "" → ∀ step ∈ steps u.path.toList, IsDown step

theorem named_of_authority {u : Url} (named : u.scheme ≠ "" ∨ u.authority ≠ "") :
    (u.scheme != "" || (u.userinfo != "" || u.host != "" || u.port.isSome)) = true := by
  simp only [Bool.or_eq_true, bne_iff_ne]
  rcases named with scheme | authority
  · exact .inl scheme
  · right
    refine Decidable.byContradiction fun bare => authority ?_
    simp only [not_or, ne_eq, Decidable.not_not, Bool.not_eq_true, Option.isSome_eq_false_iff,
      Option.isNone_iff_eq_none] at bare
    obtain ⟨⟨userinfo, host⟩, port⟩ := bare
    rw [Url.authority, userinfo, host, port]
    decide

/-- Reading an address leaves an escaped path and an escaped query, and the path is resolved if the
address has a scheme or an authority. -/
theorem exists_of_parse {ascii? : String → Option String} {text : String} {u : Url}
    (h : parse ascii? text = .ok u) :
    (∃ path, u.path = String.ofList (quote pathSafe path) ∧
      (u.scheme ≠ "" ∨ u.authority ≠ "" → ∃ raw, path = normalPath raw)) ∧
    ∀ q ∈ u.query, ∃ raw, q = String.ofList (quote querySafe raw) := by
  unfold parse at h
  simp only [bind, Except.bind, throw, throwThe, MonadExceptOf.throw, pure, Except.pure] at h
  iterate 7
    split at h
    · cases h
  cases h
  refine ⟨⟨_, rfl, fun named => ⟨_, if_pos (named_of_authority named)⟩⟩, ?_⟩
  intro q mem
  obtain ⟨raw, -, rfl⟩ := Option.map_eq_some_iff.mp mem
  exact ⟨raw, rfl⟩

theorem parse_isNormal {ascii? : String → Option String} {text : String} {u : Url}
    (h : parse ascii? text = .ok u) : u.IsNormal := by
  obtain ⟨⟨path, written, resolved⟩, query⟩ := exists_of_parse h
  constructor
  · rw [written, String.toList_ofList]
    exact isPlain_of_mem_quote (by decide)
  · intro q mem
    obtain ⟨raw, rfl⟩ := query q mem
    rw [String.toList_ofList]
    exact isPlain_of_mem_quote (by decide)
  · intro named
    obtain ⟨raw, rfl⟩ := resolved named
    rw [written, String.toList_ofList]
    exact isDown_of_mem_quote isDown_of_mem_normalPath

/-! ### Places below -/

/-- The text with a slash at its end. -/
def slashed (s : List Char) : List Char := if s.getLast? = some '/' then s else s ++ ['/']

theorem exists_slashed (s : List Char) : ∃ t, slashed s = t ++ ['/'] ∧ (s = t ∨ s = t ++ ['/']) := by
  unfold slashed
  split
  · next last =>
    obtain ⟨t, rfl⟩ := List.getLast?_eq_some_iff.mp last
    exact ⟨t, rfl, .inr rfl⟩
  · exact ⟨s, rfl, .inl rfl⟩

theorem slashed_append_cons (a : List Char) {c : Char} (other : c ≠ '/') (b : List Char) :
    slashed (a ++ c :: b) = a ++ c :: slashed b := by
  unfold slashed
  rcases List.eq_nil_or_concat b with rfl | ⟨b, d, rfl⟩
  · simp [other]
  · have whole : a ++ c :: (b ++ [d]) = (a ++ c :: b) ++ [d] := by simp
    rw [List.concat_eq_append, whole, List.getLast?_concat, List.getLast?_concat]
    split <;> simp

theorem asciiBut_mono {refused fewer : List Char} (sub : fewer.all refused.contains) {c : Char}
    (safe : asciiBut refused c) : asciiBut fewer c := by
  simp only [asciiBut, Bool.and_eq_true, Bool.not_eq_true', List.contains_eq_mem,
    decide_eq_false_iff_not] at safe ⊢
  exact ⟨safe.1, fun mem => safe.2 (List.contains_iff_mem.mp (List.all_eq_true.mp sub c mem))⟩

theorem isPlain_query {c : Char} (plain : isPlain pathSafe c) : isPlain querySafe c := by
  rw [isPlain, Bool.or_eq_true] at plain ⊢
  exact plain.imp_right (asciiBut_mono (by decide))

section

variable {u : Url} {path : List Char} (plain : ∀ c ∈ path, isPlain pathSafe c)
  (down : u.scheme ≠ "" ∨ u.authority ≠ "" → ∀ step ∈ steps path, IsDown step)

include down in
theorem resolved_eq_self :
    (if u.scheme != "" || u.authority != "" then normalPath path else path) = path := by
  split
  · next named => exact normalPath_eq_self (down (by simpa using named))
  · rfl

include plain down

theorem withTarget_path : u.withTarget path = { u with path := String.ofList path, query := none } := by
  have whole : cut? '?' path = none :=
    cut?_eq_none_iff.mpr fun mem => absurd (plain _ mem) (by decide)
  simp only [withTarget, whole, resolved_eq_self down, Option.map_none,
    quote_eq_self (by decide : pathSafe '%') plain]

theorem withTarget_query {query : List Char} (queryPlain : ∀ c ∈ query, isPlain querySafe c) :
    u.withTarget (path ++ '?' :: query)
      = { u with path := String.ofList path, query := some (String.ofList query) } := by
  have parted : cut? '?' (path ++ '?' :: query) = some (path, query) :=
    cut?_append (fun mem => absurd (plain _ mem) (by decide)) query
  simp only [withTarget, parted, resolved_eq_self down, Option.map_some,
    quote_eq_self (by decide : pathSafe '%') plain,
    quote_eq_self (by decide : querySafe '%') queryPlain]

end

/-- A place whose name is written as it stands: nothing in it is left to be escaped, no step goes nowhere
or up, and no slash is in front. -/
structure IsPlace (place : List Char) : Prop where
  plain : ∀ c ∈ place, isPlain pathSafe c
  down : ∀ step ∈ steps place, IsDown step
  bare : place.head? ≠ some '/'

namespace IsPlace

variable {place : List Char} (named : IsPlace place)
include named

theorem dropWhile_eq_self : place.dropWhile (· = '/') = place := by
  cases place with
  | nil => rfl
  | cons c place => exact List.dropWhile_cons_of_neg (by simpa using named.bare)

end IsPlace

theorem isPlain_slashed {safe : Char → Bool} (slash : isPlain safe '/') {s : List Char}
    (plain : ∀ c ∈ s, isPlain safe c) : ∀ c ∈ slashed s, isPlain safe c := by
  unfold slashed
  split
  · exact plain
  · exact List.forall_mem_append.mpr ⟨plain, List.forall_mem_singleton.mpr slash⟩

theorem isDown_slashed_append {s place : List Char} (down : ∀ step ∈ steps s, IsDown step)
    (downPlace : ∀ step ∈ steps place, IsDown step) :
    ∀ step ∈ steps (slashed s ++ place), IsDown step := by
  obtain ⟨t, slashed, same⟩ := exists_slashed s
  have start : ∀ step ∈ steps t, IsDown step := by
    rcases same with rfl | rfl
    · exact down
    · rw [steps_append] at down
      exact fun step mem => down step (List.mem_append_left _ mem)
  rw [slashed, List.append_assoc, List.singleton_append, steps_append]
  exact List.forall_mem_append.mpr ⟨start, downPlace⟩

/-- The path, at least a slash. -/
def root (u : Url) : List Char := if u.path = "" then ['/'] else u.path.toList

theorem root_ne_nil (u : Url) : u.root ≠ [] := by
  unfold root
  split
  · exact List.cons_ne_nil _ _
  · next full => simpa using full

theorem target_path (u : Url) {path : List Char} (full : path ≠ []) :
    ({ u with path := String.ofList path, query := none } : Url).target = path := by
  simp [target, full]

theorem target_query (u : Url) {path : List Char} (full : path ≠ []) (query : List Char) :
    ({ u with path := String.ofList path, query := some (String.ofList query) } : Url).target
      = path ++ '?' :: query := by
  simp [target, full]

/-- The address of a place below one that was read is that one, with the place after a slash at the end of
its path and query. -/
theorem below_target {u : Url} (normal : u.IsNormal) {place : List Char} (named : IsPlace place) :
    ∃ path query, u.below place = { u with path, query } ∧
      (u.below place).target = slashed u.target ++ place := by
  have plain : ∀ c ∈ u.root, isPlain pathSafe c := by
    unfold root
    split
    · exact List.forall_mem_singleton.mpr (by decide)
    · exact normal.path
  have down : u.scheme ≠ "" ∨ u.authority ≠ "" → ∀ step ∈ steps u.root, IsDown step := by
    unfold root
    split
    · exact fun _ => by decide
    · exact normal.steps
  have moved : u.below place = u.withTarget (slashed u.target ++ place) := by
    rw [below, named.dropWhile_eq_self, slashed]
  cases asked : u.query with
  | none =>
    have target : u.target = u.root := by
      rw [Url.target, asked, List.append_nil, root]
    have extended : ∀ c ∈ slashed u.root ++ place, isPlain pathSafe c :=
      List.forall_mem_append.mpr ⟨isPlain_slashed (by decide) plain, named.plain⟩
    have full : slashed u.root ++ place ≠ [] := by
      obtain ⟨t, slashed, -⟩ := exists_slashed u.root
      simp [slashed]
    rw [moved, target, withTarget_path extended fun h => isDown_slashed_append (down h) named.down]
    exact ⟨_, _, rfl, target_path u full⟩
  | some q =>
    have target : u.target = u.root ++ '?' :: q.toList := by
      rw [Url.target, asked, root]
    have extended : ∀ c ∈ slashed q.toList ++ place, isPlain querySafe c :=
      List.forall_mem_append.mpr ⟨isPlain_slashed (by decide) (normal.query q asked),
        fun c mem => isPlain_query (named.plain c mem)⟩
    rw [moved, target, slashed_append_cons _ (by decide), List.append_assoc, List.cons_append,
      withTarget_query plain down extended]
    exact ⟨_, _, rfl, target_query u u.root_ne_nil _⟩

end Settler.Http.Url
