import Mathlib.Data.Rat.Floor
import Settler.Proofs.Decimal.Values
import Settler.Proofs.Settlement.Collections
import Settler.Proofs.Text.Numerals
import Settler.Proofs.Text.Strings
import Settler.Proofs.Worker.Solo
import Settler.Proofs.Worker.Talk
import Settler.Worker.Basic

/-!
What is taken for the live epoch.

A result is an epoch if it denotes an integer that is not negative (`Denotes`). It is also taken for one if
it is a truth value, or a number that has an integer left once its fraction is cut off (`Mistaken`). Any
other result is refused, and a calculator asks for nothing more then (`currentEpoch_read`).
-/

namespace Settler

open Settlement Http

/-! ### Cutting off fractions -/

namespace Binary64

/-- The number without its fraction. -/
def cut (v : ℚ) : ℤ := if 0 ≤ v then ⌊v⌋ else ⌈v⌉

theorem cut_intCast (n : ℤ) : cut n = n := by
  unfold cut
  split
  · exact Int.floor_intCast n
  · exact Int.ceil_intCast n

theorem cut_neg (v : ℚ) : cut (-v) = -cut v := by
  rcases lt_trichotomy v 0 with negative | rfl | positive
  · rw [cut, cut, if_pos (by linarith), if_neg (by linarith), Int.floor_neg]
  · simp [cut]
  · rw [cut, cut, if_neg (by linarith), if_pos positive.le, Int.ceil_neg]

theorem cut_natCast_div (n d : Nat) : cut ((n : ℚ) / d) = (n : ℤ).tdiv d := by
  have nonneg : 0 ≤ (n : ℚ) / d := by positivity
  rw [cut, if_pos nonneg, Int.tdiv_eq_ediv_of_nonneg (Int.natCast_nonneg n)]
  exact Rat.floor_natCast_div_natCast n d

/-- The integer that is left of a finite number. -/
theorem truncate?_eq_some_iff {x : Binary64} {n : ℤ} :
    x.truncate? = some n ↔ x.IsFinite ∧ cut x.value = n := by
  cases x with
  | finite negative m e =>
    have left : (finite negative m e).truncate? = some
        ((if negative then -((scaled m 1 (-e)).1 : ℤ) else (scaled m 1 (-e)).1).tdiv
          (scaled m 1 (-e)).2) := rfl
    rw [left, value_finite, ← scaled_size, Option.some.injEq]
    cases negative with
    | false => simp [signed, IsFinite, cut_natCast_div]
    | true => simp [signed, IsFinite, cut_neg, cut_natCast_div, Int.neg_tdiv]
  | _ => simp [truncate?, fraction?, IsFinite]

end Binary64

namespace Settlement

/-! ### Epochs -/

/-- The value denotes the integer: it is that integer, a number without a fraction that equals it, or a
literal of it with not too many digits. -/
inductive Denotes : Json → ℤ → Prop where
  | int (n : ℤ) : Denotes (.int n) n
  | whole {x : Binary64} {n : ℤ} (finite : x.IsFinite) (same : x.value = n) : Denotes (.real x) n
  | literal {s : String} {n : ℤ} {ds : List Nat} (literal : Text.Literal s.toList n ds)
      (short : ds.length ≤ Text.digitLimit) : Denotes (.text s) n

/-- The value denotes no integer, but is taken for this one. -/
inductive Mistaken : Json → ℤ → Prop where
  | no : Mistaken (.bool false) 0
  | yes : Mistaken (.bool true) 1
  | fraction {x : Binary64} (finite : x.IsFinite) (broken : ∀ n : ℤ, x.value ≠ n) :
      Mistaken (.real x) (Binary64.cut x.value)

theorem Mistaken.not_denotes {v : Json} {m n : ℤ} (h : Mistaken v m) : ¬ Denotes v n := by
  rintro ⟨⟩
  · cases h
  · next same =>
    cases h with
    | fraction finite broken => exact broken n same
  · cases h

/-- What is left of a finite number is the integer that it denotes, or is mistaken for. -/
theorem cut_eq_iff {x : Binary64} {n : ℤ} :
    x.IsFinite ∧ Binary64.cut x.value = n ↔ Denotes (.real x) n ∨ Mistaken (.real x) n := by
  constructor
  · rintro ⟨finite, rfl⟩
    by_cases whole : ∃ k : ℤ, x.value = k
    · obtain ⟨k, same⟩ := whole
      refine .inl (.whole finite ?_)
      rw [same, Binary64.cut_intCast]
    · exact .inr (.fraction finite fun k same => whole ⟨k, same⟩)
  · rintro (denotes | mistaken)
    · cases denotes with
      | whole finite same => exact ⟨finite, by rw [same, Binary64.cut_intCast]⟩
    · cases mistaken with
      | fraction finite broken => exact ⟨finite, rfl⟩

namespace Wire

/-- A result is taken for an integer exactly if it denotes it, or is mistaken for it. -/
theorem epochOf?_eq_some_iff {v : Json} {n : ℤ} :
    epochOf? v = .ok (some n) ↔ Denotes v n ∨ Mistaken v n := by
  cases v with
  | int i =>
    constructor
    · rintro ⟨⟩
      exact .inl (.int _)
    · rintro (denotes | mistaken)
      · cases denotes
        rfl
      · cases mistaken
  | bool b =>
    constructor
    · rintro ⟨⟩
      cases b with
      | false => exact .inr .no
      | true => exact .inr .yes
    · rintro (denotes | mistaken)
      · cases denotes
      · cases mistaken <;> rfl
  | real x =>
    rw [← cut_eq_iff, ← Binary64.truncate?_eq_some_iff]
    cases x <;> simp [epochOf?, Binary64.truncate?, Binary64.fraction?]
  | text s =>
    rw [epochOf?, Except.ok.injEq, Option.bind_eq_some_iff]
    constructor
    · rintro ⟨t, same, read⟩
      obtain rfl := Str.string?_eq_some_iff.mp same
      obtain ⟨ds, literal, short⟩ := Text.readInt?_eq_some_iff.mp read
      exact .inl (.literal literal short)
    · rintro (denotes | mistaken)
      · cases denotes with
        | literal literal short =>
          exact ⟨_, Str.string?_ofString _, Text.readInt?_eq_some_iff.mpr ⟨_, literal, short⟩⟩
      · cases mistaken
  | _ =>
    constructor
    · rintro ⟨⟩
    · rintro (denotes | mistaken)
      · cases denotes
      · cases mistaken

/-- A result is given as an epoch exactly if it is taken for an integer that is not negative. -/
theorem payload_currentEpoch_iff {v : Json} {n : ℤ} :
    payload .currentEpoch v = .ok (.ok (.epoch n)) ↔ 0 ≤ n ∧ (Denotes v n ∨ Mistaken v n) := by
  rw [← epochOf?_eq_some_iff, payload]
  cases read : epochOf? v with
  | error f => simp
  | ok taken =>
    cases taken with
    | none => simp
    | some k =>
      simp only [Except.ok.injEq, Option.some.injEq]
      split
      · next negative =>
        simp only [Except.ok.injEq, reduceCtorEq, false_iff, not_and]
        rintro nonneg rfl
        omega
      · next nonneg =>
        simp only [Except.ok.injEq, Payload.epoch.injEq]
        constructor
        · rintro rfl
          exact ⟨Int.not_lt.mp nonneg, rfl⟩
        · exact fun h => h.2

end Wire

variable {δ : Type}

theorem settle_accepts {lib : Library} {op : Operation} {request : Request} {exchange : Pending δ Response}
    {sent : Response} {r : Received} {v : Json} (came : exchange.outcome = .ok sent)
    (received : lib.receive request sent = .ok r) (accepts : Accepts r.content v) :
    (Wire.settle lib op request exchange).outcome = Wire.payload op v := by
  simp only [Wire.settle, came, Except.bind, received]
  exact Wire.conclude_accepts accepts

end Settlement

/-! ### Calculators -/

variable {δ : Type} [Seconds δ]

namespace Solo

variable {ω : Type} [Machine ω δ]

/-- After a turn that is the last one nothing is sent out, and nothing waited for. -/
theorem work_over (services : Services δ) (fuel : Nat) (s : Solo ω) {turn : Turn ω δ} (ends : turn.isOver) :
    (∀ span, (work services fuel s turn).1 ≠ .paused span) ∧
      (work services fuel s turn).2.sent = s.sent := by
  obtain ⟨silent, restless⟩ := ends
  cases fuel with
  | zero => exact ⟨by rintro span ⟨⟩, rfl⟩
  | succ fuel =>
    rw [work]
    cases next : turn.next with
    | exit e => exact ⟨by rintro span ⟨⟩, rfl⟩
    | fail f => exact ⟨by rintro span ⟨⟩, rfl⟩
    | pause span => simp [next, Next.isRest] at restless
    | hold => simp [next, Next.isRest] at restless
    | ask op => simp [next, Next.outbound?] at silent
    | post sums => simp [next, Next.outbound?] at silent

/-- A turn that asks, and is the last one whatever is answered, sends out what it asks, or nothing if no
answer comes. -/
theorem work_asked (services : Services δ) (fuel : Nat) (s : Solo ω) {turn : Turn ω δ} {op : Operation}
    (next : turn.next = .ask op) (ends : ∀ a, (services.settle s.sent op).outcome = .ok a →
      (Machine.resume turn.worker (.answered a)).isOver) :
    (∀ span, (work services fuel s turn).1 ≠ .paused span) ∧
      ((work services fuel s turn).2.sent = s.sent ∨
        (work services fuel s turn).2.sent = .asked op :: s.sent) := by
  cases fuel with
  | zero => exact ⟨by rintro span ⟨⟩, .inl rfl⟩
  | succ fuel =>
    cases comes : awaitFrom? s.clock (services.settle s.sent op).latency with
    | none =>
      rw [work, next]
      simp only [hear, await_eq, comes]
      exact ⟨by rintro span ⟨⟩, .inl rfl⟩
    | some t =>
      cases outcome : (services.settle s.sent op).outcome with
      | error f =>
        rw [work, next]
        simp only [hear, await_eq, comes, outcome]
        exact ⟨by rintro span ⟨⟩, .inr rfl⟩
      | ok a =>
        rw [work_ask services fuel s next comes outcome]
        exact (work_over services fuel _ (ends a outcome)).imp_right .inr

/-- A run that does not come to a pause ends where it stopped. -/
theorem go_ended {services : Services δ} {turns : Nat} {ended : Stop δ × Solo ω}
    (last : ∀ span, ended.1 ≠ .paused span) (rests : Nat) : (go services turns rests ended).2 = ended.2 := by
  obtain ⟨stop, s⟩ := ended
  cases rests with
  | zero => rfl
  | succ rests =>
    cases stop with
    | paused span => exact absurd rfl (last span)
    | _ => rfl

end Solo

namespace Calculator

/-- A calculator at the beginning of its run. -/
def starting (δ : Type) (start : Instant) : Solo (Worker δ) := ⟨.calculator .resolving, start, [], []⟩

omit [Seconds δ] in
/-- What is no epoch ends the run of a calculator that asked for it. -/
theorem isOver_resolve {a : Answer} (unanswered : ∀ n, a ≠ .ok (.epoch n)) :
    (Machine.resume (.calculator .resolving : Worker δ) (.answered a) : Turn (Worker δ) δ).isOver := by
  show ((resolve a).map Worker.calculator).isOver
  unfold resolve
  split
  · exact ⟨rfl, rfl⟩
  · next n => exact absurd rfl (unanswered n)
  · exact ⟨rfl, rfl⟩

/-- A calculator that gets no epoch asks for nothing else. -/
theorem sent_of_unanswered {services : Services δ}
    (unanswered : ∀ n, (services.settle [] .currentEpoch).outcome ≠ .ok (.ok (.epoch n)))
    (start : Instant) (turns rests : Nat) :
    ∀ o ∈ (Solo.run services turns rests (starting δ start)).2.sent, o = .asked .currentEpoch := by
  have asks : (Machine.begin (starting δ start).worker : Turn (Worker δ) δ).next = .ask .currentEpoch := rfl
  have ends : ∀ a, (services.settle (starting δ start).sent .currentEpoch).outcome = .ok a →
      (Machine.resume (Machine.begin (starting δ start).worker : Turn (Worker δ) δ).worker
        (.answered a) : Turn (Worker δ) δ).isOver :=
    fun a outcome => isOver_resolve fun n same => unanswered n (by rw [← same]; exact outcome)
  obtain ⟨last, sent⟩ := Solo.work_asked services turns (starting δ start) asks ends
  intro o mem
  rw [Solo.run, Solo.go_ended last] at mem
  rcases sent with silent | asked
  · rw [silent] at mem
    cases mem
  · rw [asked] at mem
    exact List.mem_singleton.mp mem

/-- What comes of asking for the live epoch, given a result that the far side accepts with. It is an epoch
exactly if the result is taken for an integer that is not negative; a fault is let out exactly if the result
is an infinity; and anything else is refused. Without an epoch, a calculator asks for nothing else. -/
theorem currentEpoch_read {lib : Library} {request : Request} {exchange : Pending δ Response}
    {sent : Response} {r : Received} {v : Json} (came : exchange.outcome = .ok sent)
    (received : lib.receive request sent = .ok r) (accepts : Accepts r.content v) :
    let outcome := (Wire.settle lib .currentEpoch request exchange).outcome
    (∀ n, outcome = .ok (.ok (.epoch n)) ↔ 0 ≤ n ∧ (Denotes v n ∨ Mistaken v n)) ∧
      (∀ f, outcome = .error f ↔
        (∃ negative, v = .real (.infinite negative)) ∧ f = .infiniteInteger) ∧
      ((∀ n, ¬ (0 ≤ n ∧ (Denotes v n ∨ Mistaken v n))) →
        ((∀ negative, v ≠ .real (.infinite negative)) → ∃ reason, outcome = .ok (.error reason)) ∧
        ∀ (remote : Remote δ) (start : Instant) (turns rests : Nat),
          remote.library = lib → remote.wire.request .currentEpoch = request →
          remote.exchange [] request = exchange →
          ∀ o ∈ (Solo.run remote.services turns rests (starting δ start)).2.sent,
            o = .asked .currentEpoch) := by
  intro outcome
  have read : outcome = Wire.payload .currentEpoch v := settle_accepts came received accepts
  have epochs : ∀ n, outcome = .ok (.ok (.epoch n)) ↔ 0 ≤ n ∧ (Denotes v n ∨ Mistaken v n) := by
    intro n
    rw [read, Wire.payload_currentEpoch_iff]
  have faults : ∀ f, outcome = .error f ↔
      (∃ negative, v = .real (.infinite negative)) ∧ f = .infiniteInteger := by
    intro f
    rw [read, Wire.payload_eq_error_iff]
    exact and_iff_right rfl
  refine ⟨epochs, faults, fun none => ⟨fun finite => ?_, ?_⟩⟩
  · cases came : outcome with
    | error f =>
      obtain ⟨⟨negative, infinite⟩, -⟩ := (faults f).mp came
      exact absurd infinite (finite negative)
    | ok a =>
      have fits := Wire.payload_answers (read.symm.trans came)
      cases fits with
      | epoch => exact absurd ((epochs _).mp came) (none _)
      | refused => exact ⟨_, rfl⟩
  · rintro remote start turns rests rfl rfl rfl
    have unanswered : ∀ n, (remote.services.settle [] .currentEpoch).outcome ≠ .ok (.ok (.epoch n)) :=
      fun n answered => none n ((epochs n).mp answered)
    exact sent_of_unanswered unanswered start turns rests

/-! ### Results that are taken for epochs -/

/-- The result that bytes accept with, if they accept. -/
def result? (content : List UInt8) : Option Json :=
  match decoded? content with
  | some (.object ms) =>
    match Json.lookup "ok" ms with
    | some ok => if ok.isTruthy then some ((Json.lookup "result" ms).getD .null) else none
    | none => none
  | _ => none

theorem accepts_of_result? {content : List UInt8} {v : Json} (h : result? content = some v) :
    Accepts content v := by
  unfold result? at h
  split at h
  · next ms body =>
    split at h
    · next ok given =>
      split at h
      · next truthy =>
        cases h
        exact ⟨ms, ok, body, given, truthy, rfl⟩
      · cases h
    · cases h
  · cases h

/-- The two are the same truth value, or the same number. -/
def sameScalar : Json → Json → Bool
  | .bool a, .bool b => a == b
  | .int m, .int n => m == n
  | .real x, .real y => x == y
  | _, _ => false

theorem eq_of_sameScalar {v w : Json} (h : sameScalar v w = true) : v = w := by
  unfold sameScalar at h
  split at h
  · rw [eq_of_beq h]
  · rw [eq_of_beq h]
  · rw [eq_of_beq h]
  · cases h

theorem accepts_of_scalar {content : List UInt8} {v : Json}
    (h : (result? content).any (sameScalar v) = true) : Accepts content v := by
  obtain ⟨w, found, same⟩ := (Option.any_eq_true _ _).mp h
  obtain rfl := eq_of_sameScalar same
  exact accepts_of_result? found

/-- A response that accepts with a result. -/
def resulting (result : String) : Response where
  status := 200
  body := Script.bytes ("\x7b\"ok\":true,\"result\":" ++ result ++ "\x7d")

theorem exists_receive_resulting (request : Request) (result : String) : ∃ refusal,
    (Library.standard {}).receive request (resulting result) = .ok ⟨200, (resulting result).body,
      .ok ⟨(Text.Encoding.utf8.lossy (resulting result).body).map .char⟩, refusal⟩ :=
  (Library.lawful_standard Library.Lookups.lawful_default).plain request (resulting result)
    ⟨.inl rfl, rfl, nofun⟩

/-- What asking for the live epoch comes to if the far side accepts with a result. -/
def asking (result : String) : Pending Micros Answer :=
  Wire.settle (.standard {}) .currentEpoch (Wire.rehearsed.request .currentEpoch)
    (.now (.ok (resulting result)))

/-- A whole number that is not negative is the live epoch. -/
theorem currentEpoch_read_whole :
    (∃ r, (Library.standard {}).receive (Wire.rehearsed.request .currentEpoch) (resulting "42") = .ok r ∧
        Accepts r.content (.int 42)) ∧ (asking "42").outcome = .ok (.ok (.epoch 42)) := by
  have accepts : Accepts (resulting "42").body (.int 42) := accepts_of_scalar (by decide +kernel)
  have came : (.now (.ok (resulting "42")) : Pending Micros Response).outcome = .ok (resulting "42") := rfl
  obtain ⟨refusal, received⟩ := exists_receive_resulting (Wire.rehearsed.request .currentEpoch) "42"
  exact ⟨⟨_, received, accepts⟩,
    ((currentEpoch_read came received accepts).1 42).mpr ⟨by decide, .inl (.int 42)⟩⟩

/-- A truth value is taken for an epoch, and so is a number with a fraction. -/
theorem currentEpoch_mistaken :
    (Accepts (resulting "true").body (.bool true) ∧ (∀ n, ¬ Denotes (.bool true) n) ∧
      (asking "true").outcome = .ok (.ok (.epoch 1))) ∧
    ∃ x : Binary64, x.value = 5 / 2 ∧ Accepts (resulting "2.5").body (.real x) ∧
      (∀ n, ¬ Denotes (.real x) n) ∧ (asking "2.5").outcome = .ok (.ok (.epoch 2)) := by
  constructor
  · have accepts : Accepts (resulting "true").body (.bool true) := accepts_of_scalar (by decide +kernel)
    obtain ⟨refusal, received⟩ := exists_receive_resulting (Wire.rehearsed.request .currentEpoch) "true"
    refine ⟨accepts, fun n => Mistaken.yes.not_denotes, ?_⟩
    rw [asking, settle_accepts rfl received accepts, Wire.payload_currentEpoch_iff]
    exact ⟨by decide, .inr .yes⟩
  · have accepts : Accepts (resulting "2.5").body (.real (.finite false 5629499534213120 (-51))) :=
      accepts_of_scalar (by decide +kernel)
    have value : (Binary64.finite false 5629499534213120 (-51)).value = 5 / 2 := by
      norm_num [Binary64.value, Binary64.signed]
    have broken : ∀ n : ℤ, (Binary64.finite false 5629499534213120 (-51)).value ≠ n := by
      intro n same
      rw [value, div_eq_iff two_ne_zero] at same
      have : (5 : ℤ) = n * 2 := by exact_mod_cast same
      omega
    have left : Binary64.cut (Binary64.finite false 5629499534213120 (-51)).value = 2 := by
      rw [value]
      norm_num [Binary64.cut, Int.floor_eq_iff]
    have mistaken : Mistaken (.real (.finite false 5629499534213120 (-51))) 2 :=
      left ▸ .fraction trivial broken
    obtain ⟨refusal, received⟩ := exists_receive_resulting (Wire.rehearsed.request .currentEpoch) "2.5"
    refine ⟨_, value, accepts, fun n => mistaken.not_denotes, ?_⟩
    rw [asking, settle_accepts rfl received accepts, Wire.payload_currentEpoch_iff]
    exact ⟨by decide, .inr mistaken⟩

end Calculator

end Settler
