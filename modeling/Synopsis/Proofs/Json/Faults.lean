import Mathlib.Data.List.TakeWhile
import Synopsis.Json.Reader

/-!
# Why a JSON document is refused

A document that is refused for a long integer holds a run of as many digits, and one that is refused
for its depth holds more opening brackets than there may be levels. Both are shown of every reader:
it leaves an end of the text that it was given, and its faults are about this text. Nothing is said
about documents that fail for their syntax.
-/

namespace Synopsis.Json

/-- A run of so many digits, too many for a number, stands in the text. -/
def LongRun (digits : Nat) (cs : List Char) : Prop :=
  ∃ run, run <:+: cs ∧ (∀ c ∈ run, c.isDigit = true) ∧ run.length = digits ∧
    Decimal.longestNumeral < digits

/-- Whether a character opens a list or a table. -/
def isOpening (c : Char) : Bool := c == '[' || c == '\x7b'

/-- The number of brackets that open a list or a table. -/
def openings (cs : List Char) : Nat := cs.countP isOpening

theorem LongRun.of_suffix {digits : Nat} {cs rest : List Char} (h : LongRun digits rest)
    (sub : rest <:+ cs) : LongRun digits cs := by
  obtain ⟨run, inside, isRun⟩ := h
  exact ⟨run, inside.trans sub.isInfix, isRun⟩

theorem openings_le_of_suffix {cs rest : List Char} (sub : rest <:+ cs) :
    openings rest ≤ openings cs :=
  sub.sublist.countP_le

/-- What a reader makes of the text from a cursor on, when lists and tables may nest `depth` levels:
what it leaves is an end of the text, and its refusals are about the text. -/
structure Sound {α : Type} (depth : Nat) (c : Cursor) (result : Except Fault (α × Cursor)) :
    Prop where
  left : ∀ a left, result = .ok (a, left) → left.rest <:+ c.rest
  long : ∀ digits, result = .error (.longInteger digits) → LongRun digits c.rest
  deep : ∀ fault, result = .error fault → fault.isDeep = true → depth < openings c.rest

namespace Sound

variable {α β : Type} {depth : Nat} {c c' : Cursor} {result : Except Fault (α × Cursor)}

theorem of_suffix (h : Sound depth c' result) (sub : c'.rest <:+ c.rest) :
    Sound depth c result where
  left a left hresult := (h.left a left hresult).trans sub
  long digits hresult := (h.long digits hresult).of_suffix sub
  deep fault hresult hdeep :=
    Nat.lt_of_lt_of_le (h.deep fault hresult hdeep) (openings_le_of_suffix sub)

theorem ok {a : α} {left : Cursor} (sub : left.rest <:+ c.rest) :
    Sound depth c (.ok (a, left)) where
  left _ _ h := by cases h; exact sub
  long _ h := by cases h
  deep _ h := by cases h

theorem fail (cause : Cause) (position : Nat) :
    Sound depth c (Json.fail cause position : Except Fault (α × Cursor)) where
  left _ _ h := by cases h
  long _ h := by cases h
  deep _ h hdeep := by cases h; cases hdeep

/-- A fault that is passed on is about the same text. -/
theorem error {fault : Fault} (h : Sound depth c result) (hresult : result = .error fault) :
    Sound depth c (.error fault : Except Fault (β × Cursor)) where
  left _ _ h := by cases h
  long digits h' := by cases h'; exact h.long digits hresult
  deep fault' h' hdeep := by cases h'; exact h.deep fault hresult hdeep

/-- What is nested one level below an opening bracket may nest one level less. -/
theorem nested {bracket : Char} {rest : List Char} (h : Sound depth c' result)
    (hrest : c.rest = bracket :: rest) (opens : isOpening bracket = true)
    (sub : c'.rest <:+ rest) : Sound (depth + 1) c result where
  left a left hresult := by
    rw [hrest]
    exact ((h.left a left hresult).trans sub).trans (List.suffix_cons bracket rest)
  long digits hresult := by
    rw [hrest]
    exact (h.long digits hresult).of_suffix (sub.trans (List.suffix_cons bracket rest))
  deep fault hresult hdeep := by
    have below := Nat.lt_of_lt_of_le (h.deep fault hresult hdeep) (openings_le_of_suffix sub)
    rw [hrest, openings, List.countP_cons_of_pos opens]
    exact Nat.succ_lt_succ below

/-- An opening bracket that is one too many. -/
theorem tooDeep {bracket : Char} {rest : List Char} {fault : Fault}
    (hrest : c.rest = bracket :: rest)
    (opens : isOpening bracket = true) (isDeep : fault.isDeep = true) :
    Sound 0 c (.error fault : Except Fault (α × Cursor)) where
  left _ _ h := by cases h
  long digits h := by cases h; cases isDeep
  deep _ _ _ := by
    rw [hrest, openings, List.countP_cons_of_pos opens]
    exact Nat.succ_pos _

end Sound

/-! ## Blanks -/

theorem suffix_skip (c : Cursor) (n : Nat) : (c.skip n).rest <:+ c.rest := List.drop_suffix n c.rest

theorem suffix_skipSpaces (cs : List Char) (n : Nat) : (skipSpaces cs n).rest <:+ cs := by
  induction cs generalizing n with
  | nil => exact List.suffix_refl []
  | cons c rest ih =>
    rw [skipSpaces]
    split
    · exact (ih (n + 1)).trans (List.suffix_cons c rest)
    · exact List.suffix_refl _

theorem suffix_trim (c : Cursor) : c.trim.rest <:+ c.rest := suffix_skipSpaces c.rest c.position

/-! ## Texts and numbers -/

theorem syntaxAt_of_unicodeEscape {position : Nat} {rest : List Char} {fault : Fault}
    (h : unicodeEscape position rest = .error fault) :
    ∃ cause place, fault = .syntaxAt cause place := by
  unfold unicodeEscape at h
  split at h
  · cases h; exact ⟨_, _, rfl⟩
  · cases h; exact ⟨_, _, rfl⟩
  · split at h
    · split at h
      · cases h; exact ⟨_, _, rfl⟩
      · split at h <;> cases h
    · cases h
  · cases h

theorem sound_stringBody (depth start : Nat) (taken cs : List Char) (n : Nat) :
    Sound depth ⟨cs, n⟩ (stringBody start taken cs n) := by
  fun_induction stringBody start taken cs n with
  | case1 | case3 | case6 | case8 => exact .fail _ _
  | case2 taken rest n => exact .ok (List.suffix_cons _ rest)
  | case4 taken rest n fault flawed =>
    obtain ⟨cause, place, rfl⟩ := syntaxAt_of_unicodeEscape flawed
    exact .fail cause place
  | case5 taken rest n c length _ ih =>
    refine ih.of_suffix ((List.drop_suffix length rest).trans ?_)
    exact (List.suffix_cons 'u' rest).trans (List.suffix_cons _ _)
  | case7 taken c rest n _ e _ ih =>
    exact ih.of_suffix ((List.suffix_cons c rest).trans (List.suffix_cons _ _))
  | case9 taken c rest n _ _ _ _ _ ih => exact ih.of_suffix (List.suffix_cons c rest)

theorem sound_number (depth : Nat) (c : Cursor) : Sound depth c (number c) := by
  unfold number
  split
  rename_i negative body signless
  have sub : body <:+ c.rest := by
    split at signless <;> cases signless
    · rename_i h
      rw [h]
      exact List.suffix_cons _ body
    · exact List.suffix_refl _
  extract_lets whole
  have digits : whole <+: body ∧ ∀ d ∈ whole, d.isDigit = true := by
    unfold whole
    split
    · exact ⟨⟨_, rfl⟩, List.forall_mem_singleton.mpr rfl⟩
    · exact ⟨List.takeWhile_prefix _, List.all_eq_true.mp List.all_takeWhile⟩
  split
  · exact .fail _ _
  · split
    · split
      · rename_i long
        refine ⟨nofun, ?_, ?_⟩
        · rintro _ ⟨⟩
          exact ⟨whole, digits.1.isInfix.trans sub.isInfix, digits.2, rfl, long⟩
        · rintro _ ⟨⟩ ⟨⟩
      · exact .ok (suffix_skip c _)
    · exact .ok (suffix_skip c _)

theorem sound_plain (depth : Nat) (c : Cursor) : Sound depth c (plain c) := by
  unfold plain
  split
  · exact .ok (suffix_skip c _)
  · exact sound_number depth c

/-! ## Lists and tables -/

variable {item : Reader Datum} {depth : Nat}

theorem sound_items (sound : ∀ c, Sound depth c (item c)) (fuel : Nat) (c : Cursor) :
    Sound depth c (items item fuel c) := by
  induction fuel generalizing c with
  | zero => exact .fail _ _
  | succ fuel ih =>
    rw [items]
    split
    · rename_i fault h
      exact (sound c).error h
    · rename_i value mid h
      have sub := (suffix_trim mid).trans ((sound c).left _ _ h)
      dsimp only
      split
      · exact .ok ((suffix_skip mid.trim 1).trans sub)
      · have onward := (suffix_trim (mid.trim.skip 1)).trans ((suffix_skip mid.trim 1).trans sub)
        split
        · rename_i h
          exact ((ih _).error h).of_suffix onward
        · rename_i h
          exact .ok (((ih _).left _ _ h).trans onward)
      · exact .fail _ _

theorem sound_field (sound : ∀ c, Sound depth c (item c)) (c : Cursor) :
    Sound depth c (field item c) := by
  unfold field
  split
  · rename_i rest hrest
    have inside : rest <:+ c.rest := hrest ▸ List.suffix_cons _ rest
    have named := sound_stringBody depth c.position [] rest (c.position + 1)
    split
    · rename_i h
      exact (named.error h).of_suffix inside
    · rename_i name mid h
      have sub := (suffix_trim mid).trans ((named.left _ _ h).trans inside)
      dsimp only
      split
      · have onward := (suffix_trim (mid.trim.skip 1)).trans ((suffix_skip mid.trim 1).trans sub)
        split
        · rename_i h
          exact ((sound _).error h).of_suffix onward
        · rename_i h
          exact .ok (((sound _).left _ _ h).trans onward)
      · exact .fail _ _
  · exact .fail _ _

theorem sound_tableFields (sound : ∀ c, Sound depth c (item c)) (fuel : Nat) (c : Cursor) :
    Sound depth c (tableFields item fuel c) := by
  induction fuel generalizing c with
  | zero => exact .fail _ _
  | succ fuel ih =>
    rw [tableFields]
    have first := sound_field sound c
    split
    · rename_i fault h
      exact first.error h
    · rename_i pair mid h
      have sub := (suffix_trim mid).trans (first.left _ _ h)
      dsimp only
      split
      · exact .ok ((suffix_skip mid.trim 1).trans sub)
      · have onward := (suffix_trim (mid.trim.skip 1)).trans ((suffix_skip mid.trim 1).trans sub)
        split
        · rename_i h
          exact ((ih _).error h).of_suffix onward
        · rename_i h
          exact .ok (((ih _).left _ _ h).trans onward)
      · exact .fail _ _

theorem suffix_inside {c : Cursor} {bracket : Char} {rest : List Char}
    (hrest : c.rest = bracket :: rest) : (c.skip 1).trim.rest <:+ rest := by
  have skipped : (c.skip 1).rest = rest := by rw [Cursor.skip, hrest, List.drop_one, List.tail_cons]
  exact skipped ▸ suffix_trim (c.skip 1)

/-- A text after its opening quote, as a value. -/
theorem sound_text (depth : Nat) {c : Cursor} {quote : Char} {rest : List Char}
    (hrest : c.rest = quote :: rest) :
    Sound depth c (match stringBody c.position [] rest (c.position + 1) with
      | .error e => .error e
      | .ok (s, c) => .ok (Datum.text s, c)) := by
  have inside : rest <:+ c.rest := hrest ▸ List.suffix_cons quote rest
  have read := sound_stringBody depth c.position [] rest (c.position + 1)
  split
  · rename_i h
    exact (read.error h).of_suffix inside
  · rename_i h
    exact .ok ((read.left _ _ h).trans inside)

theorem sound_value (fuel depth : Nat) (c : Cursor) : Sound depth c (value fuel depth c) := by
  induction depth generalizing c with
  | zero =>
    unfold value
    split
    · rename_i hrest
      exact sound_text 0 hrest
    · rename_i hrest
      exact .tooDeep hrest (by decide) rfl
    · rename_i hrest
      exact .tooDeep hrest (by decide) rfl
    · exact sound_plain 0 c
  | succ depth ih =>
    unfold value
    split
    · rename_i hrest
      exact sound_text (depth + 1) hrest
    · rename_i rest hrest
      have onward := (suffix_inside hrest).trans (hrest ▸ List.suffix_cons _ rest)
      have read := sound_items ih fuel (c.skip 1).trim
      dsimp only
      split
      · exact .ok ((suffix_skip _ 1).trans onward)
      · split
        · rename_i h
          exact (read.error h).nested hrest (by decide) (suffix_inside hrest)
        · rename_i h
          exact .ok ((read.left _ _ h).trans onward)
    · rename_i rest hrest
      have onward := (suffix_inside hrest).trans (hrest ▸ List.suffix_cons _ rest)
      have read := sound_tableFields ih fuel (c.skip 1).trim
      dsimp only
      split
      · exact .ok ((suffix_skip _ 1).trans onward)
      · split
        · rename_i h
          exact (read.error h).nested hrest (by decide) (suffix_inside hrest)
        · rename_i h
          exact .ok ((read.left _ _ h).trans onward)
    · exact sound_plain (depth + 1) c

/-! ## Documents -/

/-- The fault of a document is one of its syntax or one that its value meets. -/
theorem fault_of_parse {text : String} {fault : Fault} (h : parse text = .error fault) :
    (∃ cause position, fault = .syntaxAt cause position) ∨
      value (text.toList.length + 1) depthLimit (skipSpaces text.toList 0) = .error fault := by
  unfold parse at h
  split at h
  · cases h
    exact Or.inl ⟨_, _, rfl⟩
  · split at h
    · rename_i e refused
      cases h
      exact Or.inr refused
    · dsimp only at h
      split at h
      · cases h
      · cases h
        exact Or.inl ⟨_, _, rfl⟩

/-- A document that is refused for its depth opens more lists and
tables than there may be levels. -/
theorem depthLimit_lt_openings {text : String} {fault : Fault} (h : parse text = .error fault)
    (deep : fault.isDeep = true) : depthLimit < openings text.toList := by
  rcases fault_of_parse h with ⟨_, _, rfl⟩ | h
  · cases deep
  · exact Nat.lt_of_lt_of_le ((sound_value _ _ _).deep fault h deep)
      (openings_le_of_suffix (suffix_skipSpaces _ 0))

/-! ## Long numerals -/

variable {rest : List Char}

theorem number_of_digits (digits : ∀ c ∈ rest, c.isDigit = true)
    (long : Decimal.longestNumeral < rest.length + 1) (position : Nat) :
    number ⟨'1' :: rest, position⟩ = .error (.longInteger (rest.length + 1)) := by
  have whole : digitsOf ('1' :: rest) = '1' :: rest :=
    List.takeWhile_eq_self_iff.mpr (List.forall_mem_cons.mpr ⟨by decide, digits⟩)
  simp [number, whole, fractionOf, exponentOf, long]

theorem value_of_digits (digits : ∀ c ∈ rest, c.isDigit = true)
    (long : Decimal.longestNumeral < rest.length + 1) (fuel depth position : Nat) :
    value fuel depth ⟨'1' :: rest, position⟩ = .error (.longInteger (rest.length + 1)) := by
  have isPlain : value fuel depth ⟨'1' :: rest, position⟩ = plain ⟨'1' :: rest, position⟩ := by
    rw [value.eq_def]
    rfl
  have noWord : plain ⟨'1' :: rest, position⟩ = number ⟨'1' :: rest, position⟩ := rfl
  rw [isPlain, noWord]
  exact number_of_digits digits long position

/-- A document of nothing but too many digits, the first of them a one, is refused for them. -/
theorem parse_of_digits (digits : ∀ c ∈ rest, c.isDigit = true)
    (long : Decimal.longestNumeral < rest.length + 1) :
    parse (String.ofList ('1' :: rest)) = .error (.longInteger (rest.length + 1)) := by
  have trimmed : skipSpaces ('1' :: rest) 0 = ⟨'1' :: rest, 0⟩ := rfl
  rw [parse, String.toList_ofList]
  split
  · rename_i h
    exact absurd (List.cons.inj h).1 (by decide)
  · rw [trimmed, value_of_digits digits long]

end Synopsis.Json
