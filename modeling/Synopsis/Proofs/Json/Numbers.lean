import Mathlib.Tactic.Ring
import Synopsis.Json.Reader
import Synopsis.Proofs.Table

/-!
# Numbers of a JSON document

A document with an integer of too many digits is refused, so all integers of a document that is read
can be written. Floating point numbers are always written, whatever their digits.
-/

namespace Synopsis

namespace Decimal

theorem foldl_digits_lt {base : Nat} {ds : List Nat} (small : ∀ d ∈ ds, d < base) (n : Nat) :
    ds.foldl (fun n d => n * base + d) n < (n + 1) * base ^ ds.length := by
  induction ds generalizing n with
  | nil => simp
  | cons d rest ih =>
    have first : d < base := small d List.mem_cons_self
    have below := ih (fun other hother => small other (List.mem_cons_of_mem d hother))
        (n * base + d)
    have next : n * base + d + 1 ≤ (n + 1) * base := by
      rw [Nat.succ_mul]
      omega
    calc rest.foldl (fun n d => n * base + d) (n * base + d)
        < (n * base + d + 1) * base ^ rest.length := below
      _ ≤ (n + 1) * base * base ^ rest.length := Nat.mul_le_mul_right _ next
      _ = (n + 1) * base ^ (rest.length + 1) := by ring

theorem ofDigits_lt {base : Nat} {ds : List Nat} (small : ∀ d ∈ ds, d < base) :
    ofDigits base ds < base ^ ds.length := by
  simpa [ofDigits] using foldl_digits_lt small 0

theorem digit?_lt {c : Char} {d : Nat} (h : digit? c = some d) : d < 10 := by
  unfold digit? at h
  split at h
  · rename_i isDigit
    cases h
    simp only [Char.isDigit, Bool.and_eq_true, decide_eq_true_eq, UInt32.le_iff_toNat_le] at isDigit
    have most : c.toNat ≤ 57 := isDigit.2
    omega
  · cases h

/-- A numeral that is not too long for a number stands for one that is
not too long to be written. -/
theorem isLong_of_digits {cs : List Char} {negative : Bool} (short : cs.length ≤ longestNumeral) :
    isLong (if negative then -((ofDigits 10 (cs.filterMap digit?) : Nat) : Int)
      else ofDigits 10 (cs.filterMap digit?)) = false := by
  have small : ∀ d ∈ cs.filterMap digit?, d < 10 := by
    intro d hd
    obtain ⟨c, -, hc⟩ := List.mem_filterMap.mp hd
    exact digit?_lt hc
  have fewer := (List.length_filterMap_le digit? cs).trans short
  have below : ofDigits 10 (cs.filterMap digit?) < leastLong := by
    -- the power is not to be computed
    unfold leastLong
    generalize longestNumeral = most at fewer
    exact Nat.lt_of_lt_of_le (ofDigits_lt small) (Nat.pow_le_pow_right (Nat.succ_pos 9) fewer)
  rw [isLong, decide_eq_false_iff_not, Nat.not_le]
  cases negative
  · exact below
  · rw [if_pos rfl, Int.natAbs_neg]
    exact below

end Decimal

namespace Datum

theorem anyFieldHoldsLong_iff {fields : List (String × Datum)} :
    anyFieldHoldsLong fields = false ↔ ∀ field ∈ fields, field.2.holdsLong = false := by
  induction fields with
  | nil => simp [anyFieldHoldsLong]
  | cons field rest ih =>
    obtain ⟨name, value⟩ := field
    simp [anyFieldHoldsLong, ih]

end Datum

namespace Json

/-- Every value that a reader gives can be written. -/
def Writes (item : Reader Datum) : Prop :=
  ∀ c value left, item c = .ok (value, left) → value.holdsLong = false

theorem writes_number : Writes number := by
  intro c value left h
  unfold number at h
  split at h
  extract_lets at h
  split at h
  · cases h
  · split at h
    · split at h
      · cases h
      · rename_i short
        cases h
        exact Decimal.isLong_of_digits (Nat.not_lt.mp short)
    · cases h
      rfl

theorem writes_plain : Writes plain := by
  intro c value left h
  unfold plain at h
  split at h
  · rename_i word known found
    cases h
    have listed := List.mem_of_find?_eq_some found
    simp only [words, List.mem_cons, Prod.mk.injEq, List.not_mem_nil, or_false] at listed
    rcases listed with ⟨-, rfl⟩ | ⟨-, rfl⟩ | ⟨-, rfl⟩ | ⟨-, rfl⟩ | ⟨-, rfl⟩ | ⟨-, rfl⟩ <;> rfl
  · exact writes_number c value left h

section

variable {item : Reader Datum}

theorem items_writes (writes : Writes item) (fuel : Nat) {c left : Cursor} {values : List Datum}
    (h : items item fuel c = .ok (values, left)) : Datum.anyHoldsLong values = false := by
  induction fuel generalizing c values left with
  | zero => cases h
  | succ fuel ih =>
    rw [items] at h
    split at h
    · cases h
    · rename_i value mid found
      have first := writes _ _ _ found
      dsimp only at h
      split at h
      · cases h
        rw [Datum.anyHoldsLong, first]
        rfl
      · split at h
        · cases h
        · rename_i others last rest
          cases h
          rw [Datum.anyHoldsLong, first, ih rest]
          rfl
      · cases h

theorem field_writes (writes : Writes item) {c left : Cursor} {pair : String × Datum}
    (h : field item c = .ok (pair, left)) : pair.2.holdsLong = false := by
  unfold field at h
  split at h
  · split at h
    · cases h
    · dsimp only at h
      split at h
      · split at h
        · cases h
        · rename_i found
          cases h
          exact writes _ _ _ found
      · cases h
  · cases h

theorem tableFields_writes (writes : Writes item) (fuel : Nat) {c left : Cursor}
    {pairs : List (String × Datum)} (h : tableFields item fuel c = .ok (pairs, left)) :
    ∀ pair ∈ pairs, pair.2.holdsLong = false := by
  induction fuel generalizing c pairs left with
  | zero => cases h
  | succ fuel ih =>
    rw [tableFields] at h
    split at h
    · cases h
    · rename_i pair mid found
      have first := field_writes writes found
      dsimp only at h
      split at h
      · cases h
        exact List.forall_mem_singleton.mpr first
      · split at h
        · cases h
        · rename_i others last rest
          cases h
          exact List.forall_mem_cons.mpr ⟨first, ih rest⟩
      · cases h

end

theorem writes_value (fuel depth : Nat) : Writes (value fuel depth) := by
  induction depth with
  | zero =>
    intro c v left h
    unfold value at h
    split at h
    · split at h <;> cases h
      rfl
    · cases h
    · cases h
    · exact writes_plain c v left h
  | succ depth ih =>
    intro c v left h
    unfold value at h
    split at h
    · split at h <;> cases h
      rfl
    · dsimp only at h
      split at h
      · cases h
        rfl
      · split at h
        · cases h
        · rename_i read
          cases h
          exact items_writes ih fuel read
    · dsimp only at h
      split at h
      · cases h
        rfl
      · split at h
        · cases h
        · rename_i pairs last read
          cases h
          rw [Datum.holdsLong, Datum.anyFieldHoldsLong_iff]
          intro field hfield
          exact tableFields_writes ih fuel read field (Table.mem_of_mem_ofPairs hfield)
    · exact writes_plain c v left h

/-- A document that is read holds no number that is too long to be written. -/
theorem holdsLong_of_parse {text : String} {document : Datum} (h : parse text = .ok document) :
    document.holdsLong = false := by
  unfold parse at h
  split at h
  · cases h
  · split at h
    · cases h
    · rename_i read
      dsimp only at h
      split at h <;> cases h
      exact writes_value _ _ _ _ _ read

end Json

end Synopsis
