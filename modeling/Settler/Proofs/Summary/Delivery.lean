import Settler.Proofs.Settlement.Answers

/-!
What posting totals to the chat comes to.

The post is one request at most. It is noted as delivered if the webhook has an address and the response is
a success, and else leaves one warning (`Delivered`). A fault comes out of it if the library or the exchange
lets out what is no failure on the way (`Escapes`); a plain response has none come out.
-/

namespace Settler

open Settlement Http

/-- The fault is a failed delivery, which posting a table puts up with. -/
def Fault.isUndelivered : Fault → Bool
  | .scheduler e => e.family == .delivery
  | _ => false

/-- The fault is neither a failure on the way nor a failed delivery. -/
def Fault.isStray : Fault → Bool
  | .transport _ _ => false
  | f => !f.isUndelivered

namespace Webhook

variable {δ : Type} {lib : Library} {w : Webhook} {exchange : Request → Pending δ Response} {s : Summary}

/-- The request that posts totals to an address. -/
def letter (s : Summary) (url : Url) : Request := .post url (Table.ofSummary s).message

/-- The webhook has the address. -/
def HasAddress (lib : Library) (w : Webhook) (url : Url) : Prop :=
  Text.trimmed w.setting ≠ "" ∧ lib.address (Text.trimmed w.setting) = .ok url

/-- The webhook has an address, and the response to the post is handed over and a success. -/
def Delivered (lib : Library) (w : Webhook) (exchange : Request → Pending δ Response) (s : Summary) : Prop :=
  ∃ url sent r, HasAddress lib w url ∧ (exchange (letter s url)).outcome = .ok sent ∧
    lib.receive (letter s url) sent = .ok r ∧ isSuccess sent.status

/-- The faults that come out of posting totals. -/
inductive Escapes (lib : Library) (w : Webhook) (exchange : Request → Pending δ Response) (s : Summary) :
    Fault → Prop where
  /-- The setting is no address. -/
  | unread {f : Fault} (set : Text.trimmed w.setting ≠ "")
      (unread : lib.address (Text.trimmed w.setting) = .error f) (stray : f.isStray) :
      Escapes lib w exchange s f
  /-- The exchange is cut short by what is neither a failure on the way nor a failed delivery. -/
  | foreign {url : Url} {f : Fault} (addressed : HasAddress lib w url)
      (came : (exchange (letter s url)).outcome = .error f) (stray : f.isStray) :
      Escapes lib w exchange s f
  /-- The library does not hand the response over, and does not count that as a failure on the way. -/
  | lost {url : Url} {sent : Response} {f : Fault} (addressed : HasAddress lib w url)
      (came : (exchange (letter s url)).outcome = .ok sent)
      (lost : lib.receive (letter s url) sent = .error f) (stray : f.isStray) :
      Escapes lib w exchange s f

/-- What comes of the attempt to deliver totals. -/
def attempt (lib : Library) (w : Webhook) (exchange : Request → Pending δ Response) (s : Summary) :
    Except Fault Unit :=
  match w.request lib (Table.ofSummary s).message with
  | .error f => .error f
  | .ok request => delivery ((exchange request).outcome.bind (lib.receive request))

/-! ### Attempts -/

theorem converted_of_isStray {f : Fault} (stray : f.isStray) : converted f = f ∧ f.isUndelivered = false := by
  cases f with
  | transport kind message => cases stray
  | scheduler e => exact ⟨rfl, Bool.not_eq_true' _ ▸ stray⟩
  | _ => exact ⟨rfl, rfl⟩

theorem isUndelivered_converted {f : Fault} (near : ¬ f.isStray) : (converted f).isUndelivered = true := by
  cases f with
  | transport kind message => rfl
  | scheduler e =>
    show (Fault.scheduler e).isUndelivered = true
    simpa [Fault.isStray] using near
  | _ => exact absurd rfl near

theorem attempt_of_blank (blank : Text.trimmed w.setting = "") :
    attempt lib w exchange s = .error (undelivered "SLACK_WEBHOOK_URL is not set" []) := by
  rw [attempt, request, address, if_pos blank]
  rfl

theorem attempt_of_unread {f : Fault} (set : Text.trimmed w.setting ≠ "")
    (unread : lib.address (Text.trimmed w.setting) = .error f) :
    attempt lib w exchange s = .error (converted f) := by
  rw [attempt, request, address, if_neg set, unread]
  rfl

theorem attempt_of_hasAddress {url : Url} (addressed : HasAddress lib w url) :
    attempt lib w exchange s
      = delivery ((exchange (letter s url)).outcome.bind (lib.receive (letter s url))) := by
  rw [attempt, request, address, if_neg addressed.1, addressed.2]
  rfl

/-- An attempt that fails on its way fails with the fault that it meets there, once converted. -/
theorem attempt_of_broken {url : Url} {f : Fault} (addressed : HasAddress lib w url)
    (broken : (exchange (letter s url)).outcome.bind (lib.receive (letter s url)) = .error f) :
    attempt lib w exchange s = .error (converted f) := by
  rw [attempt_of_hasAddress addressed, broken, delivery]

theorem attempt_of_received {url : Url} {sent : Response} {r : Received} (addressed : HasAddress lib w url)
    (came : (exchange (letter s url)).outcome = .ok sent)
    (received : lib.receive (letter s url) sent = .ok r) :
    attempt lib w exchange s
      = if isSuccess r.status then .ok () else .error (brokenPost "HTTPStatusError" r.refusal) := by
  rw [attempt_of_hasAddress addressed, came, Except.bind, received, delivery]

theorem Escapes.failed {f : Fault} (h : Escapes lib w exchange s f) :
    attempt lib w exchange s = .error f ∧ f.isUndelivered = false := by
  cases h with
  | unread set unread stray =>
    obtain ⟨same, own⟩ := converted_of_isStray stray
    exact ⟨(attempt_of_unread set unread).trans (by rw [same]), own⟩
  | foreign addressed came stray =>
    obtain ⟨same, own⟩ := converted_of_isStray stray
    exact ⟨(attempt_of_broken addressed (by rw [came, Except.bind])).trans (by rw [same]), own⟩
  | lost addressed came lost stray =>
    obtain ⟨same, own⟩ := converted_of_isStray stray
    exact ⟨(attempt_of_broken addressed (by rw [came, Except.bind, lost])).trans (by rw [same]), own⟩

/-- A fault that an attempt meets comes out, or has the delivery fail. -/
theorem failed_or_escapes {f : Fault} (failed : attempt lib w exchange s = .error (converted f))
    (escapes : f.isStray → Escapes lib w exchange s f) :
    (∃ g, attempt lib w exchange s = .error g ∧ g.isUndelivered = true) ∨
      ∃ g, Escapes lib w exchange s g := by
  by_cases stray : f.isStray
  · exact .inr ⟨f, escapes stray⟩
  · exact .inl ⟨_, failed, isUndelivered_converted stray⟩

/-- The totals are delivered, or they are not, or a fault comes out. -/
theorem attempt_cases (lib : Library) (w : Webhook) (exchange : Request → Pending δ Response) (s : Summary) :
    (∃ url sent r, HasAddress lib w url ∧ (exchange (letter s url)).outcome = .ok sent ∧
        lib.receive (letter s url) sent = .ok r ∧ isSuccess r.status) ∨
      (∃ f, attempt lib w exchange s = .error f ∧ f.isUndelivered = true) ∨
      ∃ f, Escapes lib w exchange s f := by
  by_cases set : Text.trimmed w.setting = ""
  · exact .inr (.inl ⟨_, attempt_of_blank set, rfl⟩)
  cases read : lib.address (Text.trimmed w.setting) with
  | error f => exact .inr (failed_or_escapes (attempt_of_unread set read) (.unread set read))
  | ok url =>
    have addressed : HasAddress lib w url := ⟨set, read⟩
    cases came : (exchange (letter s url)).outcome with
    | error f =>
      exact .inr (failed_or_escapes (attempt_of_broken addressed (by rw [came, Except.bind]))
        (.foreign addressed came))
    | ok sent =>
      cases received : lib.receive (letter s url) sent with
      | error f =>
        exact .inr (failed_or_escapes (attempt_of_broken addressed (by rw [came, Except.bind, received]))
          (.lost addressed came received))
      | ok r =>
        have tried := attempt_of_received addressed came received
        by_cases success : isSuccess r.status
        · exact .inl ⟨url, sent, r, addressed, came, received, success⟩
        · exact .inr (.inl ⟨_, tried.trans (if_neg success), rfl⟩)

theorem escapes_iff {f : Fault} :
    Escapes lib w exchange s f ↔ attempt lib w exchange s = .error f ∧ f.isUndelivered = false := by
  refine ⟨Escapes.failed, fun ⟨failed, own⟩ => ?_⟩
  rcases attempt_cases lib w exchange s with ⟨url, sent, r, addressed, came, received, success⟩ |
    ⟨g, failed', own'⟩ | ⟨g, escapes⟩
  · rw [attempt_of_received addressed came received, if_pos success] at failed
    cases failed
  · cases failed.symm.trans failed'
    cases own.symm.trans own'
  · cases failed.symm.trans escapes.failed.1
    exact escapes

theorem delivered_iff (lawful : lib.Lawful) :
    Delivered lib w exchange s ↔ attempt lib w exchange s = .ok () := by
  constructor
  · rintro ⟨url, sent, r, addressed, came, received, success⟩
    rw [attempt_of_received addressed came received, lawful.status _ _ _ received, if_pos success]
  · intro made
    rcases attempt_cases lib w exchange s with ⟨url, sent, r, addressed, came, received, success⟩ |
      ⟨f, failed, -⟩ | ⟨f, escapes⟩
    · exact ⟨url, sent, r, addressed, came, received, lawful.status _ _ _ received ▸ success⟩
    · cases made.symm.trans failed
    · cases made.symm.trans escapes.failed.1

/-- An attempt that fails with a failed delivery delivers nothing, and has no fault come out. -/
theorem unmade (lawful : lib.Lawful) {f : Fault} (failed : attempt lib w exchange s = .error f)
    (own : f.isUndelivered = true) :
    ¬ Delivered lib w exchange s ∧ ∀ g, ¬ Escapes lib w exchange s g := by
  rw [delivered_iff lawful, failed]
  refine ⟨nofun, fun g escapes => ?_⟩
  obtain ⟨failed', own'⟩ := escapes.failed
  cases failed.symm.trans failed'
  cases own.symm.trans own'

/-- A plain response has no fault come out, and is a delivery if its status is one of success. -/
theorem attempt_of_plain (lawful : lib.Lawful) {url : Url} {sent : Response}
    (addressed : HasAddress lib w url) (came : (exchange (letter s url)).outcome = .ok sent) (plain : sent.IsPlain) :
    (Delivered lib w exchange s ↔ isSuccess sent.status) ∧ ∀ f, ¬ Escapes lib w exchange s f := by
  obtain ⟨refusal, received⟩ := lawful.plain (letter s url) sent plain
  have tried := attempt_of_received addressed came received
  simp only [delivered_iff lawful, escapes_iff, tried]
  split
  · next success => exact ⟨iff_of_true rfl success, by rintro f ⟨⟨⟩, -⟩⟩
  · next refused => exact ⟨iff_of_false nofun refused, by rintro f ⟨⟨⟩, ⟨⟩⟩⟩

/-! ### What is noted -/

/-- What posting totals comes to, and what it leaves in the journal. -/
structure Posts (lib : Library) (w : Webhook) (exchange : Request → Pending δ Response) (s : Summary)
    (post : Pending δ Unit) : Prop where
  returns : post.outcome = .ok () ↔ ∀ f, ¬ Escapes lib w exchange s f
  fails : ∀ f, post.outcome = .error f ↔ Escapes lib w exchange s f
  delivered : Delivered lib w exchange s → post.notes = [deliveredNote s]
  undelivered : ¬ Delivered lib w exchange s → (∀ f, ¬ Escapes lib w exchange s f) →
    ∃ text, post.notes = [.warning text]
  escaped : ∀ f, Escapes lib w exchange s f → post.notes = []
  /-- A webhook without an address has nothing delivered, and no fault comes out. -/
  blank : Text.trimmed w.setting = "" → ¬ Delivered lib w exchange s ∧ ∀ f, ¬ Escapes lib w exchange s f
  /-- A plain response has no fault come out, and is a delivery if its status is one of success. -/
  plain : ∀ url sent, HasAddress lib w url → (exchange (letter s url)).outcome = .ok sent → sent.IsPlain →
    (Delivered lib w exchange s ↔ isSuccess sent.status) ∧ ∀ f, ¬ Escapes lib w exchange s f
  /-- A failure on the way has nothing delivered, and no fault comes out. -/
  broken : ∀ url kind message, HasAddress lib w url →
    (exchange (letter s url)).outcome = .error (.transport kind message) →
      ¬ Delivered lib w exchange s ∧ ∀ f, ¬ Escapes lib w exchange s f
  /-- One exchange at most has a say in it. -/
  once : ∀ exchange' : Request → Pending δ Response,
    (∀ request ∈ (w.request lib (Table.ofSummary s).message).toOption, exchange' request = exchange request) →
      w.postSummary lib exchange' s = post

theorem posted_of_undelivered (header : String) {f : Fault} (own : f.isUndelivered = true) :
    ∃ text, posted header (.error f) = (.ok false, [.warning text]) := by
  cases f with
  | scheduler e =>
    have family : (e.family == .delivery) = true := own
    exact ⟨_, if_pos family⟩
  | _ => cases own

theorem posted_of_escaped (header : String) {f : Fault} (own : f.isUndelivered = false) :
    posted header (.error f) = (.error f, []) := by
  cases f with
  | scheduler e =>
    have family : ¬ (e.family == .delivery) = true := ne_true_of_eq_false own
    exact if_neg family
  | _ => rfl

/-- Posting the table comes to what the attempt does. -/
theorem postTable_attempt (lib : Library) (w : Webhook) (exchange : Request → Pending δ Response)
    (s : Summary) :
    let table := w.postTable lib exchange (.ofSummary s)
    (table.outcome, table.notes) = posted (Table.ofSummary s).header (attempt lib w exchange s) := by
  unfold postTable attempt
  cases w.request lib (Table.ofSummary s).message <;> rfl

theorem postSummary_of_posted {delivered : Bool} {notes : List Note}
    (h : posted (Table.ofSummary s).header (attempt lib w exchange s) = (.ok delivered, notes)) :
    (w.postSummary lib exchange s).outcome = .ok () ∧
      (w.postSummary lib exchange s).notes = notes ++ if delivered then [deliveredNote s] else [] := by
  obtain ⟨outcome, noted⟩ := Prod.mk.inj ((postTable_attempt lib w exchange s).trans h)
  simp only [postSummary, outcome, noted, and_self]

/-- Totals that are delivered are noted. -/
theorem postSummary_of_delivered (made : attempt lib w exchange s = .ok ()) :
    (w.postSummary lib exchange s).outcome = .ok () ∧
      (w.postSummary lib exchange s).notes = [deliveredNote s] :=
  postSummary_of_posted (by rw [made, posted])

/-- A failed delivery leaves a warning. -/
theorem postSummary_of_undelivered {f : Fault} (failed : attempt lib w exchange s = .error f)
    (own : f.isUndelivered = true) :
    (w.postSummary lib exchange s).outcome = .ok () ∧
      ∃ text, (w.postSummary lib exchange s).notes = [.warning text] := by
  obtain ⟨text, warned⟩ := posted_of_undelivered (Table.ofSummary s).header own
  obtain ⟨outcome, notes⟩ := postSummary_of_posted (by rw [failed, warned])
  exact ⟨outcome, text, notes⟩

/-- Any other fault comes out, and nothing is noted. -/
theorem postSummary_of_escaped {f : Fault} (failed : attempt lib w exchange s = .error f)
    (own : f.isUndelivered = false) :
    (w.postSummary lib exchange s).outcome = .error f ∧ (w.postSummary lib exchange s).notes = [] := by
  have out : posted (Table.ofSummary s).header (attempt lib w exchange s) = (.error f, []) := by
    rw [failed, posted_of_escaped (Table.ofSummary s).header own]
  obtain ⟨outcome, noted⟩ := Prod.mk.inj ((postTable_attempt lib w exchange s).trans out)
  simp only [postSummary, outcome, noted, and_self]

/-- Nobody waits for the post if nobody waits for the exchange. -/
theorem latency_postSummary (prompt : ∀ request, (exchange request).latency = .immediate) :
    (w.postSummary lib exchange s).latency = .immediate := by
  have table : (w.postTable lib exchange (.ofSummary s)).latency = .immediate := by
    unfold postTable
    cases w.request lib (Table.ofSummary s).message with
    | error f => rfl
    | ok request => exact prompt request
  unfold postSummary
  dsimp only
  cases (w.postTable lib exchange (.ofSummary s)).outcome with
  | ok delivered => exact table
  | error f => exact table

/-- Whoever gives the post the same response has it come to the same. -/
theorem postSummary_congr {exchange' : Request → Pending δ Response}
    (same : ∀ request ∈ (w.request lib (Table.ofSummary s).message).toOption,
      exchange' request = exchange request) :
    w.postSummary lib exchange' s = w.postSummary lib exchange s := by
  have table : w.postTable lib exchange' (.ofSummary s) = w.postTable lib exchange (.ofSummary s) := by
    unfold postTable
    cases asked : w.request lib (Table.ofSummary s).message with
    | error f => rfl
    | ok request =>
      rw [asked] at same
      simp only [same request rfl]
  rw [postSummary, table, ← postSummary]

theorem postSummary_fails {f : Fault} :
    (w.postSummary lib exchange s).outcome = .error f ↔ Escapes lib w exchange s f := by
  rw [escapes_iff]
  constructor
  · intro out
    cases tried : attempt lib w exchange s with
    | ok made =>
      rw [(postSummary_of_delivered tried).1] at out
      cases out
    | error g =>
      cases own : g.isUndelivered with
      | true =>
        rw [(postSummary_of_undelivered tried own).1] at out
        cases out
      | false =>
        rw [(postSummary_of_escaped tried own).1] at out
        cases out
        exact ⟨rfl, own⟩
  · rintro ⟨tried, own⟩
    exact (postSummary_of_escaped tried own).1

theorem postSummary_returns :
    (w.postSummary lib exchange s).outcome = .ok () ↔ ∀ f, ¬ Escapes lib w exchange s f := by
  simp only [← postSummary_fails]
  cases (w.postSummary lib exchange s).outcome with
  | ok made => exact iff_of_true rfl nofun
  | error f => exact iff_of_false nofun fun none => none f rfl

/-- Posting totals comes to this, whatever the setting, the totals and the exchange. -/
theorem posts_postSummary (lawful : lib.Lawful) (w : Webhook) (exchange : Request → Pending δ Response)
    (s : Summary) : Posts lib w exchange s (w.postSummary lib exchange s) where
  returns := postSummary_returns
  fails _ := postSummary_fails
  delivered made := (postSummary_of_delivered ((delivered_iff lawful).mp made)).2
  undelivered := by
    intro not_made kept
    cases tried : attempt lib w exchange s with
    | ok made => exact absurd ((delivered_iff lawful).mpr tried) not_made
    | error f =>
      cases own : f.isUndelivered with
      | true => exact (postSummary_of_undelivered tried own).2
      | false => exact absurd (escapes_iff.mpr ⟨tried, own⟩) (kept f)
  escaped := by
    intro f escapes
    obtain ⟨tried, own⟩ := escapes_iff.mp escapes
    exact (postSummary_of_escaped tried own).2
  blank blank := unmade lawful (attempt_of_blank blank) rfl
  plain _ _ addressed came := attempt_of_plain lawful addressed came
  broken _ _ _ addressed came := unmade lawful (attempt_of_broken addressed (by rw [came, Except.bind])) rfl
  once _ same := postSummary_congr same

end Webhook

end Settler
