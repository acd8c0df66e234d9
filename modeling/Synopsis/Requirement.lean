import Synopsis.Table
import Synopsis.Text.Lines
/-!
# Requirements

A requirement names a package, perhaps with extras in brackets, and says which versions will do. A
list of requirements has one on a line, with comments and markers, and refuses what is no
requirement; an entry of a project file is read with more tolerance.
-/

namespace Synopsis

/-- What stands for any version. -/
def anyVersion : String := "*"

namespace Requirement

open Synopsis.Text

def isNameStart (c : Char) : Bool := c.isAlphanum

def isNameChar (c : Char) : Bool := c.isAlphanum || c == '.' || c == '_' || c == '-'

/-- The name that a text starts with, and the rest. -/
def splitName? (cs : List Char) : Option (List Char × List Char) :=
  match cs with
  | [] => none
  | c :: rest =>
    if isNameStart c then some (c :: rest.takeWhile isNameChar, rest.dropWhile isNameChar) else none

/-- What follows extras in brackets, if a text starts with them and the bracket is closed. -/
def dropExtras (cs : List Char) : List Char :=
  match cs with
  | '[' :: inside =>
    match inside.dropWhile (· != ']') with
    | [] => cs
    | _ :: rest => rest
  | _ => cs

/-- What follows a name: the specifier, after extras and blanks. -/
def afterName (cs : List Char) : List Char := trimStart (dropExtras (trimStart cs))

def isSpecifierStart (c : Char) : Bool :=
  c == '<' || c == '>' || c == '=' || c == '!' || c == '~'

def specifierText (cs : List Char) : String :=
  let text := trim cs
  if text.isEmpty then anyVersion else String.ofList text

/-- A line without its comment and its marker. -/
def significant (line : List Char) : List Char :=
  trim (before [';'] (before [' ', '#'] line))

/-- The requirement on a line of a list: a name and the versions that will do. -/
def ofLine? (line : List Char) : Option (String × String) := do
  let (name, rest) ← splitName? (significant line)
  let specifier := afterName rest
  match specifier with
  | [] => some (String.ofList name, anyVersion)
  | c :: _ =>
    if isSpecifierStart c then some (String.ofList name, specifierText specifier) else none

def dropFinalNewline (cs : List Char) : List Char :=
  match cs.reverse with
  | '\n' :: rest => rest.reverse
  | _ => cs

/-- The requirement in an entry of a project file. What follows the name has to be on one line. -/
def ofItem? (entry : List Char) : Option (String × String) := do
  let (name, rest) ← splitName? (trimStart (before [';'] entry))
  let specifier := dropFinalNewline (afterName rest)
  if specifier.contains '\n' then none
  else some (String.ofList name, specifierText specifier)

end Requirement

/-- The requirements in a list, one a line. -/
def requirements (content : String) : Table String :=
  Table.ofPairs ((Text.splitLines content.toList).filterMap Requirement.ofLine?)

end Synopsis
