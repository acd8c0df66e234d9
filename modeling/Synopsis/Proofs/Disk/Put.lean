import Synopsis.Proofs.Disk.Shape

/-!
# Putting entries

What is looked up after an entry was put: the entry itself at its place, if there was something
before, and everything else as it was. What a put does to the files depends on the shape of the
disk, and on a file itself only where nothing was put.
-/

namespace Synopsis

namespace Table

theorem get?_put_self {α : Type} (name : String) (value : α) (table : Table α) :
    get? name (put name value table) = some value := by
  induction table with
  | nil => simp [put, get?]
  | cons first rest ih =>
    obtain ⟨key, old⟩ := first
    by_cases same : key = name
    · simp [put, get?, same]
    · simpa [put, get?, same] using ih

theorem get?_put_of_ne {α : Type} {name other : String} (different : other ≠ name) (value : α)
    (table : Table α) : get? other (put name value table) = get? other table := by
  induction table with
  | nil => simp [put, get?, different.symm]
  | cons first rest ih =>
    obtain ⟨key, old⟩ := first
    by_cases same : key = name
    · simp [put, get?, same, different.symm]
    · by_cases found : key = other
      · simp [put, get?, found, different]
      · simpa [put, get?, same, found] using ih

/-- Putting what is there changes nothing. -/
theorem put_get? {α : Type} {name : String} {value : α} {table : Table α}
    (h : get? name table = some value) : put name value table = table := by
  induction table with
  | nil => cases h
  | cons first rest ih =>
    obtain ⟨key, old⟩ := first
    by_cases same : key = name
    · have hvalue : old = value := by simpa [get?, same] using h
      simp [put, same, hvalue]
    · simpa [put, same] using ih (by simpa [get?, same] using h)

end Table

namespace Entry

/-- The bytes of a file. -/
def bytes? : Entry → Option ByteArray
  | .file bytes => some bytes
  | _ => none

/-- The bytes of the file at a place. -/
def fileAt? (entry : Entry) (place : Location) : Option ByteArray := (entry.at? place).bind bytes?

theorem fileAt?_cons (entry : Entry) (name : String) (rest : Location) :
    entry.fileAt? (name :: rest) = (entry.child? name).bind (·.fileAt? rest) := by
  rw [fileAt?, at?_cons, Option.bind_assoc]
  rfl

/-- Where files are is a matter of the shape. -/
theorem isNone_fileAt?_bare (entry : Entry) (place : Location) :
    (entry.bare.fileAt? place).isNone = (entry.fileAt? place).isNone := by
  rw [fileAt?, fileAt?, at?_bare]
  rcases entry.at? place with _ | ⟨bytes | entries | target⟩ <;> rfl

theorem put_nil (entry new : Entry) : entry.put [] new = new := by
  cases entry <;> rfl

/-- What is put at a place is there, unless it is below something that is no folder. -/
theorem at?_put_of_present {entry : Entry} {place : Location} (new : Entry)
    (present : (entry.at? place).isSome = true) : (entry.put place new).at? place = some new := by
  induction place generalizing entry with
  | nil => cases entry <;> rfl
  | cons name rest ih =>
    cases entry with
    | file bytes => cases present
    | link target => cases present
    | folder entries =>
      rw [at?_cons, child?] at present
      cases found : Table.get? name entries with
      | none => rw [found] at present; cases present
      | some inside =>
        rw [found] at present
        rw [put, at?_cons, child?, Table.get?_put_self, found]
        exact ih present

theorem put_at? {entry inside : Entry} {place : Location} (h : entry.at? place = some inside) :
    entry.put place inside = entry := by
  induction place generalizing entry with
  | nil =>
    cases h
    cases inside <;> rfl
  | cons name rest ih =>
    cases entry with
    | file bytes => cases h
    | link target => cases h
    | folder entries =>
      obtain ⟨next, found, deeper⟩ := Option.bind_eq_some_iff.mp h
      rw [child?] at found
      rw [put, found, Option.getD_some, ih deeper, Table.put_get? found]

/-- Other bytes in a file change no other file. -/
theorem fileAt?_put_file {entry : Entry} {place file : Location} {present : ByteArray}
    (h : entry.at? place = some (.file present)) (bytes : ByteArray) (other : file ≠ place) :
    (entry.put place (.file bytes)).fileAt? file = entry.fileAt? file := by
  induction place generalizing entry file with
  | nil =>
    cases h
    cases file with
    | nil => exact absurd rfl other
    | cons first file => rfl
  | cons name rest ih =>
    cases entry with
    | file bytes => cases h
    | link target => cases h
    | folder entries =>
      obtain ⟨inside, found, deeper⟩ := Option.bind_eq_some_iff.mp h
      rw [child?] at found
      cases file with
      | nil => rfl
      | cons first file =>
        rw [put, fileAt?_cons, fileAt?_cons, child?, child?, found, Option.getD_some]
        by_cases same : first = name
        · subst same
          rw [Table.get?_put_self, found]
          exact ih deeper fun heq => other (by rw [heq])
        · rw [Table.get?_put_of_ne same]

/-- Where an entry is put, and what that leaves of a file elsewhere, is a matter of the shape. -/
theorem fileAt?_put_congr {entry other new new' : Entry} {place file : Location}
    (shape : entry.bare = other.bare)
    (outside : ¬ place <+: file → entry.fileAt? file = other.fileAt? file)
    (inside : ∀ rest, file = place ++ rest → new.fileAt? rest = new'.fileAt? rest) :
    (entry.put place new).fileAt? file = (other.put place new').fileAt? file := by
  induction place generalizing entry other file with
  | nil =>
    rw [put_nil, put_nil]
    exact inside file rfl
  | cons name rest ih =>
    cases entry with
    | file bytes =>
      cases other <;> cases shape
      cases file with
      | nil => exact outside (by simp)
      | cons first file => rfl
    | link target =>
      cases other <;> cases shape
      rfl
    | folder entries =>
      cases other with
      | file | link => cases shape
      | folder others =>
      simp only [bare, folder.injEq] at shape
      cases file with
      | nil => rfl
      | cons first file =>
      rw [List.cons_prefix_cons, fileAt?_cons, fileAt?_cons, child?, child?] at outside
      simp only [put, fileAt?_cons, child?]
      by_cases same : first = name
      · subst same
        have shapes : (Table.get? first entries).map bare = (Table.get? first others).map bare := by
          rw [← get?_bareAll, ← get?_bareAll, shape]
        rw [Table.get?_put_self, Table.get?_put_self]
        refine ih ?_ ?_ fun deeper hdeeper => inside deeper (by rw [hdeeper]; rfl)
        · cases found : Table.get? first entries <;> cases found' : Table.get? first others <;>
            simp_all
        · intro hfile
          have houtside := outside fun h => hfile h.2
          cases found : Table.get? first entries <;> cases found' : Table.get? first others <;>
            simp_all
      · rw [Table.get?_put_of_ne same, Table.get?_put_of_ne same]
        exact outside fun h => same h.1.symm

end Entry

end Synopsis
