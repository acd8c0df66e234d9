import Synopsis.Workspace
/-!
# Output

Reports are written without the escape sequences that color a terminal. A sequence is an escape
character, an opening bracket, digits and semicolons, and a letter. They are taken away in one pass
from the left; what the pass joins is not looked at again.
-/

namespace Synopsis

/-- Characters between the bracket and the letter of an escape sequence. -/
def isEscapeParameter (c : Char) : Bool := c.isDigit || c == ';'

/-- What follows an escape sequence, if a text starts with one. -/
def afterEscape? : List Char → Option (List Char)
  | '\x1b' :: '[' :: rest =>
    match rest.dropWhile isEscapeParameter with
    | c :: after => if c.isAlpha then some after else none
    | [] => none
  | _ => none

theorem length_afterEscape {cs after : List Char} (h : afterEscape? cs = some after) :
    after.length < cs.length := by
  unfold afterEscape? at h
  split at h
  · rename_i rest
    split at h
    · rename_i c tail hd
      split at h
      · have hle := (List.dropWhile_sublist isEscapeParameter (l := rest)).length_le
        rw [hd] at hle
        simp only [Option.some.injEq] at h
        subst h
        simp only [List.length_cons] at *
        omega
      · exact absurd h (by simp)
    · exact absurd h (by simp)
  · exact absurd h (by simp)

def withoutEscapes (cs : List Char) : List Char :=
  match h : afterEscape? cs with
  | some after =>
    have := length_afterEscape h
    withoutEscapes after
  | none =>
    match cs with
    | [] => []
    | c :: rest => c :: withoutEscapes rest
termination_by cs.length

def outputBytes (text : String) : ByteArray := (String.ofList (withoutEscapes text.toList)).toUTF8

namespace Workspace

/-- Writes a text at a path that a user gives and makes the folders above it. The workspace is the
one after the writing, or as far as that went. -/
def writeOutput (w : Workspace) (path text : String) : Workspace × Except Disk.Fault Location :=
  match w.locate path with
  | .error e => (w, .error e)
  | .ok place =>
    match Disk.writeBelowFolders w.disk place (outputBytes text) with
    | (disk, none) => ({ w with disk := disk }, .ok place)
    | (disk, some e) => ({ w with disk := disk }, .error e)

end Workspace

end Synopsis
