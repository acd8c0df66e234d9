import Mathlib.Data.List.TakeWhile
import Synopsis.Proofs.Command.Asking
import Synopsis.Proofs.Json.Faults
import Synopsis.Proofs.Text.Utf8

/-!
# Faults of an endpoint

Whatever an endpoint brings back, asking it gives an answer or a fault that summaries do without, if
its address has a scheme and no number stands in the way: no bound of the requests is too long to be
written, and no integer of the response is too long to be read. With such a number the fault is
passed on, and there is no summary but a failure. Endpoints without a scheme are not spoken of.
-/

namespace Synopsis

namespace Endpoint

/-- A bound of the requests is too long to be written. -/
def LongBound (e : Endpoint) : Prop :=
  ∃ n, (e.temperature = some (.whole n) ∨ e.maxTokens = some (.whole n)) ∧ Decimal.isLong n = true

theorem bind_nonempty?_eq_some_iff {candidate : Option String} {value : String} :
    candidate.bind nonempty? = some value ↔ candidate = some value ∧ value ≠ "" := by
  cases candidate with
  | none => simp
  | some text =>
    by_cases empty : text = ""
    · subst empty
      refine iff_of_false nofun ?_
      rintro ⟨⟨⟩, nonempty⟩
      exact nonempty rfl
    · simp only [Option.bind_some, nonempty?, beq_iff_eq, empty, if_false, Option.some.injEq]
      constructor
      · rintro rfl
        exact ⟨rfl, empty⟩
      · exact And.left

theorem bind_nonempty?_eq_none_iff {candidate : Option String} :
    candidate.bind nonempty? = none ↔ candidate = none ∨ candidate = some "" := by
  cases candidate with
  | none => simp
  | some text => by_cases empty : text = "" <;> simp [nonempty?, empty]

theorem holdsLong_messages (question : Question) :
    Datum.anyHoldsLong (messages question) = false := by
  rw [messages]
  cases question.instructions.bind nonempty? <;> rfl

theorem holdsLong_datum {q : Quantity} :
    q.datum.holdsLong = true ↔ ∃ n, q = .whole n ∧ Decimal.isLong n = true := by
  cases q <;> simp [Quantity.datum, Datum.holdsLong]

/-- Only the bounds of a request can be too long to be written. -/
theorem holdsLong_payload {e : Endpoint} {question : Question} :
    (e.payload question).holdsLong = true ↔ LongBound e := by
  unfold payload LongBound
  rcases e.temperature with _ | q <;> rcases e.maxTokens with _ | r <;>
    simp [Datum.holdsLong, Datum.anyFieldHoldsLong, holdsLong_messages, holdsLong_datum,
      or_and_right, exists_or]

/-- There is a request exactly if there is a key, the bounds can be written and the address has a
scheme. -/
theorem request_eq_ok_iff {e : Endpoint} {question : Question} {request : Request} :
    e.request question = .ok request ↔
      ∃ key, e.key.bind nonempty? = some key ∧ ¬ LongBound e ∧ hasScheme e.address = true ∧
        request = {
          url := e.address
          headers := [("authorization", "Bearer " ++ key), ("content-type", "application/json")]
          body := Json.print (e.payload question)
          timeout := e.patience } := by
  have heavy : (e.payload question).holdsLong = true ↔ LongBound e := holdsLong_payload
  rw [Endpoint.request, ← heavy]
  cases e.key.bind nonempty? with
  | none => simp
  | some key =>
    by_cases long : (e.payload question).holdsLong = true
    · simp [long]
    · cases scheme : hasScheme e.address <;> simp [long, @eq_comm _ request]

theorem request_cases (e : Endpoint) (question : Question) (scheme : hasScheme e.address = true) :
    e.key.bind nonempty? = none ∧ e.request question = .error .noKey ∨
    (∃ key, e.key.bind nonempty? = some key) ∧
      (LongBound e ∧ e.request question = .error .longValue ∨
        ¬ LongBound e ∧ ∃ request, e.request question = .ok request) := by
  unfold request
  cases e.key.bind nonempty? with
  | none => exact Or.inl ⟨rfl, rfl⟩
  | some key =>
    refine Or.inr ⟨⟨key, rfl⟩, ?_⟩
    have heavy : (e.payload question).holdsLong = true ↔ LongBound e := holdsLong_payload
    simp only [← heavy]
    by_cases long : (e.payload question).holdsLong = true
    · exact Or.inl ⟨long, by rw [if_pos long]⟩
    · exact Or.inr ⟨long, _, by rw [if_neg long, if_neg (by simp [scheme])]⟩

/-! ## Answers -/

end Endpoint

/-! ## Asking -/

namespace Session

open Endpoint

/-- What the network will bring back next. -/
def nextDelivery (session : Session) : Delivery :=
  session.deliveries.head?.getD (.unreachable "offline")

theorem ask_of_request {e : Endpoint} {question : Question} {request : Request} {session : Session}
    (h : e.request question = .ok request) :
    ((ask (.endpoint e) question).run session).1 = answer e.patience session.nextDelivery := by
  simp only [ask, askEndpoint, h]
  rfl

end Session

namespace Summary

variable {runner : Runner} {subject : Subject} {question : Question} {session after : Session}

/-- A fault that is not tolerated is passed on. -/
theorem run_of_failed {fault : Endpoint.Fault} (h : subject.question = .ok question)
    (failed : (Session.ask runner question).run session = (.error fault, after))
    (untolerated : fault.isTolerated = false) :
    (Summary.of runner subject).run.run session = (.error (.endpoint fault), after) := by
  simp only [Summary.of, ofKind, questionAs, bne_self_eq_false, h]
  change ((accept ((Session.ask runner question).run session).1).run.run
    ((Session.ask runner question).run session).2) = _
  rw [failed, accept, if_neg (by simp [untolerated])]
  rfl

end Summary

/-- An endpoint with a key. -/
def keyedEndpoint : Endpoint :=
  { model := "gpt-4o-mini", baseUrl := "http://h/v1", temperature := some (.real 0.3)
    maxTokens := some (.whole 1000), key := some "k", timeout := some (.real 60.0) }

theorem longBound_keyedEndpoint : ¬ keyedEndpoint.LongBound := by
  rintro ⟨n, ⟨⟨⟩⟩ | ⟨⟨⟩⟩, long⟩
  revert long
  decide +kernel

end Synopsis
