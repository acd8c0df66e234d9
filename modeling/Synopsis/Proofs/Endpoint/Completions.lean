import Synopsis.Proofs.Endpoint
import Synopsis.Proofs.Outcome
import Synopsis.Proofs.Text.Blank

/-!
# Completions

What an answer is, told by the completion in a response: the text of its first choice, or nothing
where a response has another form. An answer has no blanks at its ends. Whether there is one is
decided before the blanks are cut, so that a completion of blanks alone is an answer, and an empty
one; any other answer can be seen. Refusals, and responses that cannot be read, are not spoken of.
-/

namespace Synopsis

namespace Endpoint

variable {body : ByteArray} {response : Datum} {answer completion : String}

/-- The message of the first choice of a response is this text. -/
def Tells (response : Datum) (text : String) : Prop :=
  ∃ first others message, response.get? "choices" = some (.list (first :: others)) ∧
    first.get? "message" = some message ∧ message.get? "content" = some (.text text)

/-- The bytes are a document that tells the completion, or tells none,
and the completion is empty. -/
def Holds (body : ByteArray) (completion : String) : Prop :=
  ∃ text response, Text.Utf8.decode body.toList = .ok text ∧ Json.parse text = .ok response ∧
    (Tells response completion ∨ completion = "" ∧ ∀ other, ¬ Tells response other)

/-! ## What a response tells -/

theorem content_of_tells {text : String} (tells : Tells response text) :
    content response = text := by
  obtain ⟨first, others, message, choices, found, text⟩ := tells
  simp [content, choices, found, text, Datum.items?, Datum.text?]

theorem items?_eq_some_iff {value : Datum} {items : List Datum} :
    value.items? = some items ↔ value = .list items := by
  cases value <;> simp [Datum.items?]

theorem text?_eq_some_iff {value : Datum} {text : String} :
    value.text? = some text ↔ value = .text text := by
  cases value <;> simp [Datum.text?]

/-- A text can only be taken where there is one, step by step. -/
theorem exists_tells (spoken : content response ≠ "") : ∃ text, Tells response text := by
  have step {α : Type} (x : Option α) (empty : x = none → content response = "") :
      ∃ a, x = some a :=
    Option.ne_none_iff_exists'.mp (mt empty spoken)
  obtain ⟨choices, found⟩ := step (response.get? "choices") fun none => by simp [content, none]
  obtain ⟨items, listed⟩ := step choices.items? fun none => by simp [content, found, none]
  obtain ⟨first, head⟩ := step items.head? fun none => by simp [content, found, listed, none]
  obtain ⟨message, within⟩ := step (first.get? "message") fun none => by
    simp [content, found, listed, head, none]
  obtain ⟨value, inside⟩ := step (message.get? "content") fun none => by
    simp [content, found, listed, head, within, none]
  obtain ⟨text, spelled⟩ := step value.text? fun none => by
    simp [content, found, listed, head, within, inside, none]
  obtain ⟨others, rfl⟩ := List.head?_eq_some_iff.mp head
  rw [items?_eq_some_iff] at listed
  rw [text?_eq_some_iff] at spelled
  exact ⟨text, first, others, message, listed ▸ found, within, spelled ▸ inside⟩

/-- The text that is taken from a response is the one that it tells, and else empty. -/
theorem content_eq_iff :
    content response = completion ↔
      Tells response completion ∨ completion = "" ∧ ∀ other, ¬ Tells response other := by
  constructor
  · rintro rfl
    by_cases silent : ∃ text, Tells response text
    · obtain ⟨text, tells⟩ := silent
      exact Or.inl (content_of_tells tells ▸ tells)
    · refine Or.inr ⟨?_, not_exists.mp silent⟩
      by_contra spoken
      exact silent (exists_tells spoken)
  · rintro (tells | ⟨rfl, silent⟩)
    · exact content_of_tells tells
    · by_contra spoken
      obtain ⟨text, tells⟩ := exists_tells spoken
      exact silent text tells

/-! ## The answer in a response -/

theorem answerOf_of_holds (holds : Holds body completion) :
    answerOf body =
      if completion = "" then .error .emptyResponse else .ok (Text.strip completion) := by
  obtain ⟨text, response, decoded, parsed, tells⟩ := holds
  simp only [answerOf, decoded, parsed, content_eq_iff.mpr tells, beq_iff_eq]

theorem holds_of_answerOf (answered : answerOf body = .ok answer) :
    ∃ completion, Holds body completion := by
  unfold answerOf at answered
  split at answered
  · cases answered
  · rename_i text decoded
    split at answered
    · cases answered
    · cases answered
    · cases answered
    · rename_i response parsed
      exact ⟨content response, text, response, decoded, parsed, content_eq_iff.mp rfl⟩

theorem answerOf_eq_ok_iff :
    answerOf body = .ok answer ↔
      ∃ completion, Holds body completion ∧ completion ≠ "" ∧ answer = Text.strip completion := by
  constructor
  · intro answered
    obtain ⟨completion, holds⟩ := holds_of_answerOf answered
    rw [answerOf_of_holds holds] at answered
    split at answered
    · cases answered
    · rename_i nonempty
      exact ⟨completion, holds, nonempty, (Except.ok.inj answered).symm⟩
  · rintro ⟨completion, holds, nonempty, rfl⟩
    rw [answerOf_of_holds holds, if_neg nonempty]

/-- Nothing is left of a text without the blanks at its ends exactly if all of it is blank. -/
theorem strip_eq_empty_iff {text : String} :
    Text.strip text = "" ↔ ∀ c ∈ text.toList, Text.isBlank c = true := by
  rw [Text.strip, ← Text.trim_eq_nil_iff, ← String.toList_inj, String.toList_ofList]
  rfl

theorem answerOf_visible_iff :
    (∀ answer, answerOf body = .ok answer → answer ≠ "") ↔
      ∀ completion, Holds body completion → completion ≠ "" →
        ∃ c ∈ completion.toList, Text.isBlank c = false := by
  simp only [answerOf_eq_ok_iff]
  constructor
  · intro visible completion holds nonempty
    have left := visible _ ⟨completion, holds, nonempty, rfl⟩
    rw [Ne, strip_eq_empty_iff] at left
    simpa using left
  · rintro seen _ ⟨completion, holds, nonempty, rfl⟩
    obtain ⟨c, inside, visible⟩ := seen completion holds nonempty
    rw [Ne, strip_eq_empty_iff]
    intro blank
    rw [blank c inside] at visible
    cases visible

end Endpoint

open Endpoint

/-- When a request is answered with a response, an answer has no blanks at its ends. It is what is
left of the completion, and an empty completion is a fault; no answer is empty exactly if the
completion is, or holds a character that is not blank. -/
theorem completions_visible_iff {e : Endpoint} {question : Question} {request : Request}
    (requested : e.request question = .ok request) {session : Session} {body : ByteArray}
    (delivered : session.nextDelivery = .response body) :
    let result := ((Session.ask (.endpoint e) question).run session).1
    (∀ answer, result = .ok answer → Text.Trimmed answer.toList) ∧
      (∀ completion, Holds body completion → result =
        if completion = "" then .error .emptyResponse else .ok (Text.strip completion)) ∧
      ((∀ answer, result = .ok answer → answer ≠ "") ↔
        ∀ completion, Holds body completion → completion ≠ "" →
          ∃ c ∈ completion.toList, Text.isBlank c = false) := by
  intro result
  have taken : result = answerOf body := by
    have asked : result = answer e.patience session.nextDelivery := Session.ask_of_request requested
    rwa [delivered] at asked
  rw [taken]
  refine ⟨fun answer answered => ?_, fun completion => answerOf_of_holds, answerOf_visible_iff⟩
  obtain ⟨completion, -, -, rfl⟩ := answerOf_eq_ok_iff.mp answered
  rw [Text.strip, String.toList_ofList]
  exact Text.trimmed_trim _

/-- A session in which the network will bring back one response. -/
def respondedSession (response : String) : Session :=
  { deliveries := [.response response.toUTF8] }

theorem exists_request_keyedEndpoint (question : Question) :
    ∃ request, keyedEndpoint.request question = .ok request := by
  rcases request_cases keyedEndpoint question (by decide +kernel) with
    ⟨keyless, -⟩ | ⟨-, ⟨long, -⟩ | ⟨-, requested⟩⟩
  · cases keyless
  · exact absurd long longBound_keyedEndpoint
  · exact requested

theorem ask_respondedSession {response answer : String}
    (read : (answerOf response.toUTF8).toOption = some answer) :
    ((Session.ask (.endpoint keyedEndpoint) ⟨"p", none⟩).run (respondedSession response)).1 =
      .ok answer := by
  obtain ⟨request, requested⟩ := exists_request_keyedEndpoint ⟨"p", none⟩
  rw [Session.ask_of_request requested]
  exact toOption_eq_some_iff.mp read

/-- A response with this text between the quotes of its completion. -/
def responseOf (completion : String) : String :=
  "\x7b\"choices\": [\x7b\"message\": \x7b\"content\": \"" ++ completion ++ "\"\x7d\x7d]\x7d"

theorem completions_visible_tool :
    let session := respondedSession (responseOf " A CLI tool. ")
    ∃ request body, keyedEndpoint.request ⟨"p", none⟩ = .ok request ∧
      session.nextDelivery = .response body ∧
      ((Session.ask (.endpoint keyedEndpoint) ⟨"p", none⟩).run session).1 = .ok "A CLI tool." ∧
      Text.Trimmed "A CLI tool.".toList := by
  intro session
  obtain ⟨request, requested⟩ := exists_request_keyedEndpoint ⟨"p", none⟩
  have delivered : session.nextDelivery = .response _ := rfl
  have answered : ((Session.ask (.endpoint keyedEndpoint) ⟨"p", none⟩).run session).1 =
      .ok "A CLI tool." := ask_respondedSession (by decide +kernel)
  exact ⟨request, _, requested, delivered, answered,
    (completions_visible_iff requested delivered).1 _ answered⟩

/-- A completion of one blank is answered with an empty text. -/
theorem blankCompletion_answered :
    ((Session.ask (.endpoint keyedEndpoint) ⟨"p", none⟩).run
      (respondedSession (responseOf " "))).1 =
      .ok "" :=
  ask_respondedSession (by decide +kernel)

end Synopsis
