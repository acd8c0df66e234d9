import Synopsis.Proofs.Json.Reals
import Synopsis.Proofs.Json.Strings
import Synopsis.Proofs.Table

/-!
# What is printed is read

Texts, lists and tables that are printed are read back, item by item: a value is read wherever it
can end, and lists and tables put their values at such places. A document of one value is read as
that value. That no value is nested too deeply is asked for, and that the names of a table differ.
-/

namespace Synopsis.Json

/-- A value starts with no blank and not with what ends a list, nor
with a mark of the byte order. -/
def Opens (written : List Char) : Prop :=
  ∃ c cs, written = c :: cs ∧ isSpace c = false ∧ c ∉ [']', '\x7d', '\uFEFF']

/-- What is written can be an entry of a list or a table, and it is read as the value. -/
structure Entry {α : Type} (reader : Reader α) (written : List Char) (a : α) : Prop where
  opens : Opens written
  reads : Reads reader written a

variable {written rest : List Char} {position : Nat}

theorem Opens.append (opens : Opens written) (rest : List Char) : Opens (written ++ rest) := by
  obtain ⟨c, cs, rfl, visible, apart⟩ := opens
  exact ⟨c, cs ++ rest, rfl, visible, apart⟩

theorem trim_of_visible {c : Char} (visible : isSpace c = false) (cs : List Char) (position : Nat) :
    Cursor.trim ⟨c :: cs, position⟩ = ⟨c :: cs, position⟩ := by
  rw [Cursor.trim, skipSpaces, if_neg (by simp [visible])]

theorem Opens.trim (opens : Opens written) (position : Nat) :
    Cursor.trim ⟨written, position⟩ = ⟨written, position⟩ := by
  obtain ⟨c, cs, rfl, visible, -⟩ := opens
  exact trim_of_visible visible cs position

/-- A blank before a value is passed over. -/
theorem Opens.trim_gap (opens : Opens written) (position : Nat) :
    Cursor.trim ⟨' ' :: written, position⟩ = ⟨written, position + 1⟩ :=
  opens.trim (position + 1)

/-! ## Texts -/

theorem opens_stringText (s : String) : Opens (stringText s).toList := by
  rw [toList_stringText]
  exact ⟨'"', _, rfl, by decide, by decide⟩

theorem reads_text (s : String) (fuel depth : Nat) :
    Reads (value fuel depth) (print (.text s)).toList (.text s) := by
  intro rest position _
  obtain ⟨after, read⟩ := stringBody_flatMap position s.toList [] rest (position + 1)
  refine ⟨after, ?_⟩
  rw [print, toList_stringText, List.cons_append, List.append_assoc, List.singleton_append,
    value.eq_def]
  simp only [read, List.reverse_nil, List.nil_append, String.ofList_toList]

/-- A field as it is written: a name, a colon, a blank and a value. -/
def fieldText (field : String × Datum) : List Char :=
  (stringText field.1 ++ ": " ++ print field.2).toList

theorem opens_fieldText (field : String × Datum) : Opens (fieldText field) := by
  rw [fieldText, String.append_assoc, String.toList_append]
  exact (opens_stringText field.1).append _

theorem Entry.field {item : Reader Datum} {d d' : Datum} (inside : Entry item (print d).toList d')
    (name : String) : Entry (field item) (fieldText (name, d)) (name, d') := by
  obtain ⟨opens, reads⟩ := inside
  refine ⟨opens_fieldText (name, d), fun rest position ends => ?_⟩
  obtain ⟨middle, named⟩ := stringBody_flatMap position name.toList []
    (':' :: ' ' :: ((print d).toList ++ rest)) (position + 1)
  obtain ⟨after, read⟩ := reads rest (middle + 1 + 1) ends
  have parts : fieldText (name, d) ++ rest =
      '"' :: (name.toList.flatMap stringChar ++ '"' :: ':' :: ' ' ::
        ((print d).toList ++ rest)) := by
    simp [fieldText, toList_stringText]
  have colon : Cursor.trim ⟨':' :: ' ' :: ((print d).toList ++ rest), middle⟩ =
      ⟨':' :: ' ' :: ((print d).toList ++ rest), middle⟩ := trim_of_visible (by decide) _ middle
  have gap : Cursor.trim (Cursor.skip ⟨':' :: ' ' :: ((print d).toList ++ rest), middle⟩ 1) =
      ⟨(print d).toList ++ rest, middle + 1 + 1⟩ := (opens.append rest).trim_gap (middle + 1)
  refine ⟨after, ?_⟩
  rw [parts]
  simp only [Json.field, named, colon, gap, read, List.reverse_nil, List.nil_append,
    String.ofList_toList]

/-! ## Entries one after another -/

theorem opens_intercalate (opens : Opens written) (separator : List Char)
    (texts : List (List Char)) :
    Opens (separator.intercalate (written :: texts)) := by
  cases texts with
  | nil =>
    rw [List.intercalate_singleton]
    exact opens
  | cons text texts =>
    rw [List.intercalate_cons_cons, List.append_assoc]
    exact opens.append _

section

variable {α : Type} {entry : Reader α} {close : Char} {all : Nat → Reader (List α)}
variable {texts : List (List Char)} {entries : List α}

/-- A reader of entries goes on after a comma and a blank, and stops at a closing mark. -/
structure Series (entry : Reader α) (close : Char) (all : Nat → Reader (List α)) : Prop where
  last : ∀ {fuel c a rest position}, entry c = .ok (a, ⟨close :: rest, position⟩) →
    all (fuel + 1) c = .ok ([a], ⟨rest, position + 1⟩)
  next : ∀ {fuel c a others rest position left},
    entry c = .ok (a, ⟨',' :: ' ' :: rest, position⟩) → Opens rest →
      all fuel ⟨rest, position + 2⟩ = .ok (others, left) →
      all (fuel + 1) c = .ok (a :: others, left)
  ends : close ∈ [',', ']', '\x7d']

/-- Entries that are written one after another are all read, if there is fuel for each of them. -/
theorem Series.reads (series : Series entry close all)
    (each : List.Forall₂ (Entry entry) texts entries) (nonempty : texts ≠ []) {fuel : Nat}
    (enough : texts.length ≤ fuel) (rest : List Char) (position : Nat) :
    ∃ after, all fuel ⟨[',', ' '].intercalate texts ++ close :: rest, position⟩ =
      .ok (entries, ⟨rest, after⟩) := by
  induction each generalizing fuel position with
  | nil => contradiction
  | @cons text a texts entries first each ih =>
    obtain _ | fuel := fuel
    · cases enough
    cases each with
    | nil =>
      obtain ⟨after, read⟩ := first.reads (close :: rest) position
        (by rintro c ⟨⟩; exact series.ends)
      rw [List.intercalate_singleton]
      exact ⟨_, series.last read⟩
    | @cons text' a' texts entries second each =>
      obtain ⟨middle, read⟩ := first.reads
        (',' :: ' ' :: ([',', ' '].intercalate (text' :: texts) ++ close :: rest)) position
        (by rintro c ⟨⟩; decide)
      obtain ⟨after, others⟩ :=
        ih (List.cons_ne_nil _ _) (Nat.le_of_succ_le_succ enough) (middle + 2)
      have parts : [',', ' '].intercalate (text :: text' :: texts) ++ close :: rest =
          text ++ ',' :: ' ' :: ([',', ' '].intercalate (text' :: texts) ++ close :: rest) := by
        rw [List.intercalate_cons_cons]
        simp
      rw [parts]
      exact ⟨after, series.next read ((opens_intercalate second.opens _ _).append _) others⟩

/-- Entries between a bracket and its closing mark are read, if something between
them is read entry by entry. -/
theorem Series.enclosed (series : Series entry close all)
    (each : List.Forall₂ (Entry entry) texts entries) {reader : Reader Datum} {bracket : Char}
    {result : Datum} {fuel : Nat} (enough : texts.length ≤ fuel)
    (empty : entries = [] → ∀ rest position, ∃ after,
      reader ⟨bracket :: close :: rest, position⟩ = .ok (result, ⟨rest, after⟩))
    (inside : ∀ written position left, Opens written →
      all fuel ⟨written, position + 1⟩ = .ok (entries, left) →
        reader ⟨bracket :: written, position⟩ = .ok (result, left)) :
    Reads reader (bracket :: ([',', ' '].intercalate texts ++ [close])) result := by
  intro rest position _
  rw [List.cons_append, List.append_assoc, List.singleton_append]
  cases each with
  | nil => exact empty rfl rest position
  | cons first others =>
    obtain ⟨after, read⟩ := series.reads (.cons first others) (List.cons_ne_nil _ _) enough rest
      (position + 1)
    exact ⟨after, inside _ position _ ((opens_intercalate first.opens _ _).append _) read⟩

end

theorem series_items (item : Reader Datum) : Series item ']' (items item) where
  last read := by
    simp only [items, read, trim_of_visible (c := ']') (by decide)]
    rfl
  next {_ _ _ _ rest position _} read opens others := by
    have gap : Cursor.trim (Cursor.skip ⟨',' :: ' ' :: rest, position⟩ 1) = ⟨rest, position + 2⟩ :=
      opens.trim_gap (position + 1)
    simp only [items, read, trim_of_visible (c := ',') (by decide), gap, others]
  ends := by decide

theorem series_tableFields (item : Reader Datum) :
    Series (field item) '\x7d' (tableFields item) where
  last read := by
    simp only [tableFields, read, trim_of_visible (c := '\x7d') (by decide)]
    rfl
  next {_ _ _ _ rest position _} read opens others := by
    have gap : Cursor.trim (Cursor.skip ⟨',' :: ' ' :: rest, position⟩ 1) = ⟨rest, position + 2⟩ :=
      opens.trim_gap (position + 1)
    simp only [tableFields, read, trim_of_visible (c := ',') (by decide), gap, others]
  ends := by decide

/-! ## Values of one part -/

variable {fuel depth : Nat}

/-- A value is printed as an entry that is read as another value. -/
abbrev Echoes (fuel depth : Nat) (d d' : Datum) : Prop :=
  Entry (value fuel depth) (print d).toList d'

theorem echoes_text (s : String) : Echoes fuel depth (.text s) (.text s) :=
  ⟨opens_stringText s, reads_text s fuel depth⟩

theorem opens_chars (n : Written) : Opens n.chars := by
  obtain ⟨d, ds, isDigit, parts | parts⟩ := n.chars_cases
  · have visible : d ∉ [' ', '\t', '\n', '\r'] := notMem_of_isDigit isDigit (by simp)
    exact ⟨d, ds, parts, by simpa [isSpace, and_assoc] using visible,
      notMem_of_isDigit isDigit (by simp)⟩
  · exact ⟨'-', d :: ds, parts, by decide, by decide⟩

theorem echoes_int {k : Int} (short : Decimal.isLong k = false) :
    Echoes fuel depth (.int k) (.int k) :=
  ⟨toList_print_int k ▸ opens_chars (Written.ofInt k), reads_int short fuel depth⟩

/-- A floating point number is printed as one. -/
theorem exists_echoes_float (x : Float) :
    ∃ y, ∀ fuel depth, Echoes fuel depth (.float x) (.float y) := by
  obtain ⟨y, reads⟩ := exists_reads_float x
  have opens : Opens (print (.float x)).toList := by
    rw [print]
    rcases floatText_cases x with word | ⟨n, -, chars⟩
    · simp only [List.mem_cons, List.not_mem_nil, or_false] at word
      rcases word with word | word | word <;> rw [word] <;> exact ⟨_, _, rfl, by decide, by decide⟩
    · exact chars ▸ opens_chars n
  exact ⟨y, fun fuel depth => ⟨opens, reads fuel depth⟩⟩

/-! ## Lists and tables -/

/-- Inside a bracket with something in it, a list is read item by item. -/
theorem value_list (opens : Opens written) (position : Nat) :
    value fuel (depth + 1) ⟨'[' :: written, position⟩ =
      match items (value fuel depth) fuel ⟨written, position + 1⟩ with
      | .error e => .error e
      | .ok (values, c) => .ok (.list values, c) := by
  have inside : Cursor.trim (Cursor.skip ⟨'[' :: written, position⟩ 1) = ⟨written, position + 1⟩ :=
    opens.trim (position + 1)
  rw [value.eq_def]
  simp only [inside]
  split
  · obtain ⟨c, cs, parts, -, apart⟩ := opens
    cases parts
    exact absurd (by decide) apart
  · rfl

/-- Inside a brace with something in it, a table is read field by field. -/
theorem value_table (opens : Opens written) (position : Nat) :
    value fuel (depth + 1) ⟨'\x7b' :: written, position⟩ =
      match tableFields (value fuel depth) fuel ⟨written, position + 1⟩ with
      | .error e => .error e
      | .ok (pairs, c) => .ok (.table (Table.ofPairs pairs), c) := by
  have inside : Cursor.trim (Cursor.skip ⟨'\x7b' :: written, position⟩ 1) =
      ⟨written, position + 1⟩ :=
    opens.trim (position + 1)
  rw [value.eq_def]
  simp only [inside]
  split
  · obtain ⟨c, cs, parts, -, apart⟩ := opens
    cases parts
    exact absurd (by decide) apart
  · rfl

theorem toList_print_list (items : List Datum) : (print (.list items)).toList =
    '[' :: ([',', ' '].intercalate (items.map fun item => (print item).toList) ++ [']']) := by
  have printed : printAll items = items.map print := by
    induction items with
    | nil => rfl
    | cons item items ih => rw [printAll, ih, List.map_cons]
  simp [print, printed, String.toList_intercalate, Function.comp_def]

theorem toList_print_table (fields : List (String × Datum)) : (print (.table fields)).toList =
    '\x7b' :: ([',', ' '].intercalate (fields.map fieldText) ++ ['\x7d']) := by
  have printed : (printFields fields).map String.toList = fields.map fieldText := by
    induction fields with
    | nil => rfl
    | cons field fields ih => rw [printFields, List.map_cons, ih]; rfl
  simp [print, String.toList_intercalate, printed]

/-- Something stands between the braces of a table with a field. -/
theorem two_lt_length_table (field : String × Datum) (fields : List (String × Datum)) :
    2 < (print (.table (field :: fields))).toList.length := by
  obtain ⟨c, cs, parts, -⟩ :=
    opens_intercalate (opens_fieldText field) [',', ' '] (fields.map fieldText)
  rw [toList_print_table, List.map_cons, parts]
  simp

/-- A list is read as the list of what its items are read as. -/
theorem echoes_list {items items' : List Datum}
    (each : List.Forall₂ (Echoes fuel depth) items items') (enough : items.length ≤ fuel) :
    Echoes fuel (depth + 1) (.list items) (.list items') := by
  rw [Echoes, toList_print_list]
  have entries : List.Forall₂ (Entry (value fuel depth))
      (items.map fun item => (print item).toList) items' := List.forall₂_map_left_iff.mpr each
  have fueled :
      (items.map fun item => (print item).toList).length ≤ fuel := by rwa [List.length_map]
  refine ⟨⟨'[', _, rfl, by decide, by decide⟩, (series_items _).enclosed entries fueled ?_
    fun written position left opens read => ?_⟩
  · rintro rfl rest position
    exact ⟨position + 2, by rw [value.eq_def]; rfl⟩
  · rw [value_list opens, read]

/-- A table whose names differ is read as the table of what its values are read as. -/
theorem echoes_table {fields fields' : List (String × Datum)}
    (each : List.Forall₂
      (fun field field' => field.1 = field'.1 ∧ Echoes fuel depth field.2 field'.2)
      fields fields') (distinct : (Table.names fields').Nodup) (enough : fields.length ≤ fuel) :
    Echoes fuel (depth + 1) (.table fields) (.table fields') := by
  rw [Echoes, toList_print_table]
  have entries :
      List.Forall₂ (Entry (field (value fuel depth))) (fields.map fieldText) fields' := by
    refine List.forall₂_map_left_iff.mpr (each.imp ?_)
    rintro ⟨name, d⟩ ⟨_, d'⟩ ⟨rfl, echoes⟩
    exact echoes.field name
  have fueled : (fields.map fieldText).length ≤ fuel := by rwa [List.length_map]
  refine ⟨⟨'\x7b', _, rfl, by decide, by decide⟩, (series_tableFields _).enclosed entries fueled ?_
    fun written position left opens read => ?_⟩
  · rintro rfl rest position
    exact ⟨position + 2, by rw [value.eq_def]; rfl⟩
  · rw [value_table opens, read]
    dsimp only
    rw [Table.ofPairs_of_nodup distinct]

/-- A document of one value is read as what the value is read as. -/
theorem parse_print {d d' : Datum} (echoes : Echoes ((print d).toList.length + 1) depthLimit d d') :
    parse (print d) = .ok d' := by
  obtain ⟨⟨c, cs, parts, visible, apart⟩, reads⟩ := echoes
  obtain ⟨after, read⟩ := reads [] 0 (by rintro c ⟨⟩)
  have start : skipSpaces (print d).toList 0 = ⟨(print d).toList ++ [], 0⟩ := by
    rw [List.append_nil, parts]
    exact trim_of_visible visible cs 0
  rw [parse]
  split
  · rename_i mark
    cases parts.symm.trans mark
    exact absurd (by decide) apart
  · rw [start, read]
    rfl

end Synopsis.Json
