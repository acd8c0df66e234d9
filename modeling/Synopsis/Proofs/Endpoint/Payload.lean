import Mathlib.Data.Option.Basic
import Synopsis.Proofs.Endpoint
import Synopsis.Proofs.Json.Ascii
import Synopsis.Proofs.Json.Printed

/-!
# What a request says

The body of a request is a document in characters below U+0080, and who reads it gets back what was
to be said: the model, the instructions if there are any, and the prompt, character for character.
The bounds are there if the endpoint has them; a bound that is no integer comes back as a floating
point number, and which one is left open. What the headers say is not spoken of.
-/

namespace Synopsis

/-- A number is given back: an integer as itself. -/
def Quantity.ReadAs : Quantity → Datum → Prop
  | .whole n, d => d = .int n
  | .real _, d => ∃ y, d = .float y

namespace Endpoint

/-- The table conveys what the endpoint is asked, and nothing else. -/
structure Conveys (e : Endpoint) (question : Question) (fields : Table Datum) : Prop where
  model : Table.get? "model" fields = some (.text e.model)
  instructed : ∀ text, question.instructions = some text → text ≠ "" →
    Table.get? "messages" fields =
      some (.list [message "system" text, message "user" question.prompt])
  uninstructed : question.instructions = none ∨ question.instructions = some "" →
    Table.get? "messages" fields = some (.list [message "user" question.prompt])
  /-- There exactly if the endpoint has one. -/
  temperature : Option.Rel Quantity.ReadAs e.temperature (Table.get? "temperature" fields)
  /-- There exactly if the endpoint has one. -/
  maxTokens : Option.Rel Quantity.ReadAs e.maxTokens (Table.get? "max_tokens" fields)
  others : ∀ name ∈ Table.names fields, name ∈ ["model", "messages", "temperature", "max_tokens"]

variable {e : Endpoint} {question : Question} {request : Request} {fuel depth : Nat}

open Json

/-! ## Parts of a payload -/

theorem echoes_message (role content : String) (enough : 2 ≤ fuel) :
    Echoes fuel (depth + 1) (message role content) (message role content) := by
  have distinct : (Table.names (message role content).fields).Nodup := by
    simp [message, Datum.fields, Table.names]
  exact echoes_table
    (.cons ⟨rfl, echoes_text role⟩ (.cons ⟨rfl, echoes_text content⟩ .nil)) distinct
    enough

theorem echoes_messages (question : Question) (enough : 2 ≤ fuel) :
    Echoes fuel (depth + 2) (.list (messages question)) (.list (messages question)) := by
  have user : Echoes fuel (depth + 1) (message "user" question.prompt)
      (message "user" question.prompt) := echoes_message "user" question.prompt enough
  rw [messages]
  cases question.instructions.bind nonempty? with
  | none => exact echoes_list (.cons user .nil) (Nat.le_of_succ_le enough)
  | some text =>
    have system : Echoes fuel (depth + 1) (message "system" text) (message "system" text) :=
      echoes_message "system" text enough
    exact echoes_list (.cons system (.cons user .nil)) enough

/-- A bound is printed, if its integer is not too long, as something that gives it back. -/
theorem exists_echoes_bound {bound : Option Quantity}
    (short : ∀ n, bound = some (.whole n) → Decimal.isLong n = false) :
    ∃ d?, Option.Rel Quantity.ReadAs bound d? ∧
      ∀ fuel depth, Option.Rel (fun q d => Echoes fuel depth q.datum d) bound d? := by
  match bound with
  | none => exact ⟨none, .none, fun fuel depth => .none⟩
  | some (.whole n) =>
    exact ⟨some (.int n), .some rfl, fun fuel depth => .some (echoes_int (short n rfl))⟩
  | some (.real x) =>
    obtain ⟨y, echoes⟩ := exists_echoes_float x
    exact ⟨some (.float y), .some ⟨y, rfl⟩, fun fuel depth => .some (echoes fuel depth)⟩

/-- The table of a payload, its bounds being these. -/
def conveyed (e : Endpoint) (question : Question) (temperature maxTokens : Option Datum) :
    Table Datum :=
  [("model", .text e.model), ("messages", .list (messages question))] ++
    (temperature.map fun d => ("temperature", d)).toList ++
    (maxTokens.map fun d => ("max_tokens", d)).toList

variable {temperature maxTokens : Option Datum}

theorem get?_conveyed (e : Endpoint) (question : Question) (temperature maxTokens : Option Datum) :
    Table.get? "model" (conveyed e question temperature maxTokens) = some (.text e.model) ∧
      Table.get? "messages" (conveyed e question temperature maxTokens) =
        some (.list (messages question)) ∧
      Table.get? "temperature" (conveyed e question temperature maxTokens) = temperature ∧
      Table.get? "max_tokens" (conveyed e question temperature maxTokens) = maxTokens := by
  cases temperature <;> cases maxTokens <;> simp [conveyed, Table.get?]

theorem conveys_conveyed (heat : Option.Rel Quantity.ReadAs e.temperature temperature)
    (length : Option.Rel Quantity.ReadAs e.maxTokens maxTokens) :
    e.Conveys question (conveyed e question temperature maxTokens) := by
  obtain ⟨model, told, first, second⟩ := get?_conveyed e question temperature maxTokens
  refine ⟨model, ?_, ?_, by rwa [first], by rwa [second], ?_⟩
  · intro text given nonempty
    rw [told, messages, given, Option.bind_some, nonempty?, if_neg (by simpa using nonempty)]
    rfl
  · rintro (none | empty)
    · rw [told, messages, none]
      rfl
    · rw [told, messages, empty]
      rfl
  · cases temperature <;> cases maxTokens <;> simp [conveyed, Table.names]

/-- The fields of a bound, as they are printed and as they are read. -/
theorem forall₂_bound {bound : Option Quantity} {d? : Option Datum} {R : Datum → Datum → Prop}
    (given : Option.Rel (fun q d => R q.datum d) bound d?) (name : String) :
    List.Forall₂ (fun field field' => field.1 = field'.1 ∧ R field.2 field'.2)
      (bound.map fun q => (name, q.datum)).toList (d?.map fun d => (name, d)).toList := by
  cases given with
  | none => exact .nil
  | some same => exact .cons ⟨rfl, same⟩ .nil

/-- A payload is printed as a table that conveys what the endpoint is asked. -/
theorem exists_echoes_payload (short : ¬ LongBound e) (question : Question) :
    ∃ fields, e.Conveys question fields ∧ ∀ fuel depth, 4 ≤ fuel →
      Echoes fuel (depth + 3) (e.payload question) (.table fields) := by
  have whole (n : Int) (given : e.temperature = some (.whole n) ∨ e.maxTokens = some (.whole n)) :
      Decimal.isLong n = false := by
    by_contra long
    exact short ⟨n, given, by simpa using long⟩
  obtain ⟨temperature, heat, first⟩ := exists_echoes_bound fun n given => whole n (.inl given)
  obtain ⟨maxTokens, length, second⟩ := exists_echoes_bound fun n given => whole n (.inr given)
  refine ⟨conveyed e question temperature maxTokens, conveys_conveyed heat length, ?_⟩
  intro fuel depth enough
  refine echoes_table
    (List.rel_append (List.rel_append ?_ (forall₂_bound (first _ _) "temperature"))
    (forall₂_bound (second _ _) "max_tokens")) ?_ ?_
  · have told : Echoes fuel (depth + 2) (.list (messages question)) (.list (messages question)) :=
      echoes_messages question (Nat.le_trans (by decide) enough)
    exact .cons ⟨rfl, echoes_text e.model⟩ (.cons ⟨rfl, told⟩ .nil)
  · cases temperature <;> cases maxTokens <;> simp [conveyed, Table.names]
  · refine Nat.le_trans ?_ enough
    cases e.temperature <;> cases e.maxTokens <;> simp

/-! ## Requests -/

/-- The body of a request is read as a table that conveys the question. -/
theorem parse_body (requested : e.request question = .ok request) :
    Text.Ascii request.body.toList ∧
      ∃ fields, Json.parse request.body = .ok (.table fields) ∧ e.Conveys question fields := by
  obtain ⟨key, -, short, -, rfl⟩ := request_eq_ok_iff.mp requested
  obtain ⟨fields, conveys, echoes⟩ := exists_echoes_payload short question
  have enough : 4 ≤ (print (e.payload question)).toList.length + 1 :=
    Nat.succ_le_succ (two_lt_length_table _ _)
  exact ⟨ascii_print _, fields, parse_print (echoes _ 987 enough), conveys⟩

end Endpoint

open Endpoint

end Synopsis
