import Synopsis.Text.Lines
/-!
# Exclusion rules

A glob pattern is read into items, each of which stands for one character, except the star,
which stands for any number of characters, slashes included. An exclusion rule is a glob with
the way in which it is held against a path relative to the root: to the whole path, to each of
its tails, or to each of its segments.
-/

namespace Synopsis

structure CharSet where
  negated : Bool
  singles : List Char
  ranges : List (Char × Char)
  deriving DecidableEq, Repr

def CharSet.holds (set : CharSet) (c : Char) : Bool :=
  (set.singles.contains c || set.ranges.any fun (low, high) => low ≤ c && c ≤ high) != set.negated

inductive Glob where
  | star
  | any
  | one (c : Char)
  | set (s : CharSet)
  /-- An empty set, which no character is in. -/
  | never
  deriving DecidableEq, Repr

namespace Glob

/-- Whether an item other than the star stands for the character. -/
def accepts : Glob → Char → Bool
  | .star, _ => false
  | .any, _ => true
  | .one x, c => x == c
  | .set s, c => s.holds c
  | .never, _ => false

/-- Whether the items stand for the whole text. -/
def accept : List Glob → List Char → Bool
  | [], cs => cs.isEmpty
  | .star :: items, [] => accept items []
  | .star :: items, c :: cs => accept items (c :: cs) || accept (.star :: items) cs
  | _ :: _, [] => false
  | item :: items, c :: cs => item.accepts c && accept items cs
termination_by items cs => items.length + cs.length

/-- Splits the text in brackets at the hyphens that make ranges: a hyphen does so unless it is
the first character, comes right after a range or is the last one. `wait` characters are passed
over first. -/
def chunks : Nat → List Char → List Char → List (List Char)
  | _, piece, [] => [piece.reverse]
  | 0, piece, '-' :: rest => piece.reverse :: chunks 2 [] rest
  | 0, piece, c :: rest => chunks 0 (c :: piece) rest
  | wait + 1, piece, c :: rest => chunks (wait - 0) (c :: piece) rest

/-- Drops a range whose ends are out of order, together with its ends. -/
def dropEmptyRanges : List (List Char) → List (List Char)
  | [] => []
  | first :: rest =>
    match dropEmptyRanges rest with
    | [] => [first]
    | second :: more =>
      match first.getLast?, second.head? with
      | some low, some high =>
        if high < low then (first.dropLast ++ second.drop 1) :: more else first :: second :: more
      | _, _ => first :: second :: more

/-- The ranges between the end of a chunk and the start of the next one. -/
def rangesOf : List (List Char) → List (Char × Char)
  | first :: second :: more =>
    match first.getLast?, second.head? with
    | some low, some high => (low, high) :: rangesOf (second :: more)
    | _, _ => rangesOf (second :: more)
  | _ => []

def ofBrackets (inside : List Char) : Glob :=
  let first := if inside.head? == some '!' then 2 else 1
  let pieces := chunks first [] inside
  let pieces := match pieces.getLast?, pieces.dropLast.getLast? with
    | some [], some before => pieces.dropLast.dropLast ++ [before ++ ['-']]
    | _, _ => pieces
  let pieces := dropEmptyRanges pieces
  let (negated, pieces) := match pieces with
    | ('!' :: head) :: rest => (true, head :: rest)
    | _ => (false, pieces)
  match negated, pieces with
  | false, [[]] => .never
  | true, [[]] => .any
  | _, _ => .set ⟨negated, pieces.flatten, rangesOf pieces⟩

/-- The text up to the closing bracket and what follows it. A closing bracket that comes first, or
right after the exclamation mark, is part of the text. -/
def brackets? (cs : List Char) : Option (List Char × List Char) :=
  let (lead, rest) := match cs with
    | '!' :: ']' :: rest => (['!', ']'], rest)
    | '!' :: rest => (['!'], rest)
    | ']' :: rest => ([']'], rest)
    | rest => ([], rest)
  let inside := rest.takeWhile (· != ']')
  match rest.dropWhile (· != ']') with
  | [] => none
  | _ :: after => some (lead ++ inside, after)

/-- Reads a pattern; `fuel` is at least its length. -/
def read : Nat → List Char → List Glob
  | _, [] => []
  | 0, _ :: _ => []
  | fuel + 1, c :: rest =>
    if c == '*' then .star :: read fuel rest
    else if c == '?' then .any :: read fuel rest
    else if c == '[' then
      match brackets? rest with
      | some (inside, after) => ofBrackets inside :: read fuel after
      | none => .one '[' :: read fuel rest
    else .one c :: read fuel rest

def fits (pattern text : String) : Bool :=
  accept (read pattern.length pattern.toList) text.toList

end Glob

structure IgnoreRule where
  pattern : String
  /-- The rule holds for directories alone. -/
  directoryOnly : Bool
  /-- The pattern started with a slash. -/
  anchored : Bool
  /-- The pattern started with a double star and a slash. -/
  floating : Bool
  /-- The pattern holds a slash. -/
  hasSlash : Bool
  deriving DecidableEq, Repr

namespace IgnoreRule

/-- The non-empty tails of a list. -/
def tails {α : Type} : List α → List (List α)
  | [] => []
  | x :: xs => (x :: xs) :: tails xs

/-- Whether the rule excludes a path relative to the root. -/
def excludes (rule : IgnoreRule) (path : String) (isDirectory : Bool) : Bool :=
  let segments := (Text.splitOn '/' path.toList).map String.ofList
  if rule.pattern == "" then false
  else if rule.directoryOnly && !isDirectory then false
  else if rule.hasSlash then
    if rule.floating && !rule.anchored then
      (tails segments).any fun tail => Glob.fits rule.pattern (Text.join "/" tail)
    else Glob.fits rule.pattern path
  else if rule.anchored then Glob.fits rule.pattern path
  else segments.any (Glob.fits rule.pattern)

/-- Drops every leading double star with its slash, and tells whether there was one. -/
def dropFloating : List Char → Bool × List Char
  | '*' :: '*' :: '/' :: rest => (true, (dropFloating rest).2)
  | cs => (false, cs)

/-- Reads a pattern as a user writes it; a blank one is no rule. -/
def ofPattern (text : String) : Option IgnoreRule :=
  let cs := Text.trim text.toList
  if cs.isEmpty then none
  else
    let (directoryOnly, cs) :=
      match cs.reverse with
      | '*' :: '*' :: '/' :: rest => (true, rest.reverse)
      | '/' :: rest => (true, rest.reverse)
      | _ => (false, cs)
    let (anchored, cs) := match cs with
      | '/' :: rest => (true, rest)
      | _ => (false, cs)
    let (floating, cs) := dropFloating cs
    if cs.isEmpty then none
    else some ⟨String.ofList cs, directoryOnly, anchored, floating, cs.contains '/'⟩

/-- The patterns that hold for every project. -/
def defaultPatterns : List String :=
  ["node_modules/", ".git/", "dist/", "build/", ".next/", "coverage/", "__pycache__/", "venv/",
    "*.min.js", "*.map", "package-lock.json", "yarn.lock", "pnpm-lock.yaml"]

/-- The rules for the default patterns and the given ones. -/
def withDefaults (extra : List String) : List IgnoreRule :=
  (defaultPatterns ++ extra).filterMap ofPattern

end IgnoreRule

end Synopsis
