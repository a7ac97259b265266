import Settler.Proofs.Settlement.Answers

/-!
Which responses are debt collections.

A value is a collection exactly if it is an object that has the required fields, each an integer that is
not negative (`validate_eq_ok_iff`); a report on any other value is about fields of the collection, or
about the whole value (`reported_of_validate`). A call to pay an epoch's debt gives a batch exactly if the
far side accepts and its result is a collection (`settle_payDebt_iff`).
-/

namespace Settler

open Settler.Http

namespace Validation

theorem natural_eq_ok_iff {j : Json} {n : Nat} : natural j = .ok n ↔ integer j = .ok (n : Int) := by
  rw [natural]
  cases integer j with
  | error c => simp [bind, Except.bind]
  | ok i =>
    simp only [bind, Except.bind]
    split
    · next negative =>
      simp only [reduceCtorEq, Except.ok.injEq, false_iff]
      omega
    · next nonneg =>
      simp only [Except.ok.injEq]
      omega

namespace Checked

theorem result_eq_ok_iff {α : Type} {model : String} {x : Checked α} {a : α} :
    x.result model = .ok a ↔ x.issues = [] ∧ x.value = a := by
  rw [result, ← List.isEmpty_iff]
  split
  · next none => simp [none]
  · next some => simp [some]

theorem result_eq_error_iff {α : Type} {model : String} {x : Checked α} {report : Report} :
    x.result model = .error report ↔ x.issues ≠ [] ∧ report = ⟨model, x.issues⟩ := by
  rw [result, ne_eq, ← List.isEmpty_iff]
  split
  · next none => simp [none]
  · next some => simp [some, eq_comm]

end Checked

end Validation

namespace Settlement

open Settler.Validation

namespace Collection

/-! ### Fields -/

/-- The object has the field, and it is the number. -/
def Given (fields : Json.Members) (name : String) (n : Nat) : Prop :=
  ∃ j, Json.lookup name fields = some j ∧ integer j = .ok (n : Int)

/-- The object has the fields of the collection: the three that are required, and the fourth, which is 0
where it is absent. Any other is ignored. -/
structure Written (fields : Json.Members) (c : Collection) : Prop where
  totalDebt : Given fields "total_debt" c.totalDebt
  totalPaid : Given fields "total_paid" c.totalPaid
  insufficientFunds : Given fields "insufficient_funds_count" c.insufficientFunds
  validators : Given fields "total_validators" c.validators ∨
    Json.lookup "total_validators" fields = none ∧ c.validators = 0

/-- The names of the fields. -/
def fieldNames : List String :=
  ["total_debt", "total_paid", "insufficient_funds_count", "total_validators"]

theorem ofField_eq_iff {name : String} {j : Json} {n : Nat} :
    (Checked.ofField 0 name j (natural j)).issues = [] ∧
      (Checked.ofField 0 name j (natural j)).value = n ↔ integer j = .ok (n : Int) := by
  rw [← natural_eq_ok_iff]
  cases natural j <;> simp [Checked.ofField]

theorem required_eq_iff {fields : Json.Members} {name : String} {n : Nat} :
    (required (.object fields) name).issues = [] ∧ (required (.object fields) name).value = n ↔
      Given fields name n := by
  unfold required Given
  cases found : Json.lookup name fields with
  | none => simp [Json.get?, found, Checked.ofField]
  | some j => simp [Json.get?, found, ofField_eq_iff]

theorem optional_eq_iff {fields : Json.Members} {name : String} {n : Nat} :
    (optional (.object fields) name).issues = [] ∧ (optional (.object fields) name).value = n ↔
      Given fields name n ∨ Json.lookup name fields = none ∧ n = 0 := by
  unfold optional Given
  cases found : Json.lookup name fields with
  | none => simp [Json.get?, found, pure, eq_comm]
  | some j => simp [Json.get?, found, ofField_eq_iff]

theorem fields_issues (whole : Json) : (fields whole).issues
    = (required whole "total_debt").issues ++ ((required whole "total_paid").issues
      ++ ((required whole "insufficient_funds_count").issues
        ++ ((optional whole "total_validators").issues ++ []))) := rfl

theorem fields_value (whole : Json) : (fields whole).value
    = ⟨(required whole "total_debt").value, (required whole "total_paid").value,
      (required whole "insufficient_funds_count").value, (optional whole "total_validators").value⟩ := rfl

/-- A value is a collection exactly if it is an object that has the fields of one. -/
theorem validate_eq_ok_iff {j : Json} {c : Collection} :
    validate j = .ok c ↔ ∃ fields, j = .object fields ∧ Written fields c := by
  cases j with
  | object ms =>
    obtain ⟨debt, paid, insufficient, validators⟩ := c
    simp only [validate, Checked.result_eq_ok_iff, fields_issues, fields_value,
      List.append_eq_nil_iff, Collection.mk.injEq, Json.object.injEq, exists_eq_left']
    constructor
    · rintro ⟨⟨i1, i2, i3, i4, -⟩, v1, v2, v3, v4⟩
      exact ⟨required_eq_iff.mp ⟨i1, v1⟩, required_eq_iff.mp ⟨i2, v2⟩, required_eq_iff.mp ⟨i3, v3⟩,
        optional_eq_iff.mp ⟨i4, v4⟩⟩
    · rintro ⟨h1, h2, h3, h4⟩
      obtain ⟨i1, v1⟩ := required_eq_iff.mpr h1
      obtain ⟨i2, v2⟩ := required_eq_iff.mpr h2
      obtain ⟨i3, v3⟩ := required_eq_iff.mpr h3
      obtain ⟨i4, v4⟩ := optional_eq_iff.mpr h4
      exact ⟨⟨i1, i2, i3, i4, trivial⟩, v1, v2, v3, v4⟩
  | _ => simp [validate]

/-! ### Reports -/

/-- The report names the collection, and has issues, each with a field of it or with the whole value. -/
structure Reported (report : Report) : Prop where
  model : report.model = modelName
  issues : report.issues ≠ []
  fields : ∀ i ∈ report.issues, ∀ name ∈ i.field?, name ∈ fieldNames

theorem field_of_mem_required {whole : Json} {name : String} {i : Issue}
    (mem : i ∈ (required whole name).issues) : i.field? = some name := by
  unfold required at mem
  split at mem
  · next j found =>
    cases read : natural j with
    | ok n => simp [read, Checked.ofField] at mem
    | error c =>
      rw [read, Checked.ofField, List.mem_singleton] at mem
      rw [mem]
  · rw [Checked.ofField, List.mem_singleton] at mem
    rw [mem]

theorem field_of_mem_optional {whole : Json} {name : String} {i : Issue}
    (mem : i ∈ (optional whole name).issues) : i.field? = some name := by
  unfold optional at mem
  split at mem
  · next j found =>
    cases read : natural j with
    | ok n => simp [read, Checked.ofField] at mem
    | error c =>
      rw [read, Checked.ofField, List.mem_singleton] at mem
      rw [mem]
  · cases mem

theorem reported_of_validate {j : Json} {report : Report} (h : validate j = .error report) :
    Reported report := by
  cases j with
  | object ms =>
    obtain ⟨some, rfl⟩ := Checked.result_eq_error_iff.mp h
    refine ⟨rfl, some, fun i mem name named => ?_⟩
    rw [fields_issues] at mem
    simp only [List.mem_append, List.not_mem_nil, or_false] at mem
    rcases mem with mem | mem | mem | mem
    · rw [field_of_mem_required mem] at named
      cases named
      decide
    · rw [field_of_mem_required mem] at named
      cases named
      decide
    · rw [field_of_mem_required mem] at named
      cases named
      decide
    · rw [field_of_mem_optional mem] at named
      cases named
      decide
  | _ =>
    cases h
    refine ⟨rfl, List.cons_ne_nil _ _, fun i mem name named => ?_⟩
    rw [List.mem_singleton.mp mem] at named
    cases named

end Collection

/-! ### Responses -/

/-- The bytes accept what was asked, and this is the result that they give: they are a JSON object with a
member `ok` that counts as true. -/
structure Accepts (content : List UInt8) (result : Json) : Prop where
  body : ∃ ms ok, decoded? content = some (.object ms) ∧ Json.lookup "ok" ms = some ok ∧ ok.isTruthy ∧
    result = (Json.lookup "result" ms).getD .null

/-- The bytes are a validated batch. -/
structure Carries (content : List UInt8) (c : Collection) : Prop where
  body : ∃ ms ok fields, decoded? content = some (.object ms) ∧ Json.lookup "ok" ms = some ok ∧
    ok.isTruthy ∧ Json.lookup "result" ms = some (.object fields) ∧ Collection.Written fields c

theorem carries_iff {content : List UInt8} {c : Collection} :
    Carries content c ↔ ∃ result, Accepts content result ∧ Collection.validate result = .ok c := by
  constructor
  · rintro ⟨ms, ok, fields, body, accepted, truthy, result, written⟩
    exact ⟨.object fields, ⟨ms, ok, body, accepted, truthy, by rw [result, Option.getD_some]⟩,
      Collection.validate_eq_ok_iff.mpr ⟨fields, rfl, written⟩⟩
  · rintro ⟨_, ⟨ms, ok, body, accepted, truthy, rfl⟩, valid⟩
    obtain ⟨fields, object, written⟩ := Collection.validate_eq_ok_iff.mp valid
    refine ⟨ms, ok, fields, body, accepted, truthy, ?_, written⟩
    cases found : Json.lookup "result" ms with
    | none =>
      rw [found] at object
      cases object
    | some j =>
      rw [found, Option.getD_some] at object
      rw [object]

variable {δ : Type}

namespace Wire

theorem accepts_iff {op : Operation} {r : Received} {result : Json} :
    Accepts r.content result ↔ ∃ ms, readBody op r = .ok ms ∧ verdict op ms = .ok result := by
  simp only [readBody_eq_ok_iff, verdict_eq_ok_iff]
  constructor
  · rintro ⟨ms, ok, body, accepted, truthy, rfl⟩
    exact ⟨ms, ⟨body, by rw [accepted]; rfl⟩, by rwa [accepted], rfl⟩
  · rintro ⟨ms, ⟨body, present⟩, truthy, rfl⟩
    obtain ⟨ok, accepted⟩ := Option.isSome_iff_exists.mp present
    rw [accepted] at truthy
    exact ⟨ms, ok, body, accepted, truthy, rfl⟩

/-- The answer to an operation that the far side accepts is what its result stands for. -/
theorem conclude_accepts {op : Operation} {r : Received} {result : Json} (h : Accepts r.content result) :
    (conclude op (.ok r)).1 = payload op result := by
  obtain ⟨ms, body, said⟩ : ∃ ms, readBody op r = .ok ms ∧ verdict op ms = .ok result := accepts_iff.mp h
  simp only [conclude, reception, body, said]

theorem exists_of_reception {op : Operation} {came : Except Fault Received} {ms : Json.Members}
    (h : reception op came = .ok ms) : ∃ r, came = .ok r ∧ readBody op r = .ok ms := by
  cases came with
  | ok r => exact ⟨r, rfl, h⟩
  | error f => cases f <;> cases h

/-- Nothing is given unless the far side accepts. -/
theorem accepts_of_conclude {op : Operation} {came : Except Fault Received} {p : Payload}
    (h : (conclude op came).1 = .ok (.ok p)) :
    ∃ r result, came = .ok r ∧ Accepts r.content result ∧ payload op result = .ok (.ok p) := by
  unfold conclude at h
  split at h
  · next ms got =>
    obtain ⟨r, rfl, body⟩ := exists_of_reception got
    split at h
    · next result said => exact ⟨r, result, rfl, accepts_iff.mpr ⟨ms, body, said⟩, h⟩
    · cases h
  · split at h <;> cases h

theorem payload_payDebt_iff {epoch : Int} {result : Json} {p : Payload} :
    payload (.payDebt epoch) result = .ok (.ok p) ↔
      ∃ c, Collection.validate result = .ok c ∧ p = .batch c := by
  rw [payload]
  cases Collection.validate result <;> simp [eq_comm]

end Wire

/-- A call to pay an epoch's debt gives a batch exactly if a response is handed over that is one. -/
theorem settle_payDebt_iff {lib : Library} {epoch : Int} {request : Request} {exchange : Pending δ Response}
    {p : Payload} : (Wire.settle lib (.payDebt epoch) request exchange).outcome = .ok (.ok p) ↔
      ∃ sent r c, exchange.outcome = .ok sent ∧ lib.receive request sent = .ok r ∧ Carries r.content c ∧
        p = .batch c := by
  simp only [Wire.settle, carries_iff]
  constructor
  · intro given
    obtain ⟨r, result, came, accepts, gives⟩ := Wire.accepts_of_conclude given
    obtain ⟨c, valid, rfl⟩ := Wire.payload_payDebt_iff.mp gives
    cases outcome : exchange.outcome with
    | error f =>
      rw [outcome] at came
      cases came
    | ok sent =>
      rw [outcome] at came
      exact ⟨sent, r, c, rfl, came, ⟨result, accepts, valid⟩, rfl⟩
  · rintro ⟨sent, r, c, outcome, received, ⟨result, accepts, valid⟩, rfl⟩
    rw [outcome, Except.bind, received, Wire.conclude_accepts accepts]
    exact Wire.payload_payDebt_iff.mpr ⟨c, valid, rfl⟩

end Settlement

end Settler
