import Synopsis.Yaml.Node
import Synopsis.Text.Lines
import Synopsis.Text.Lower
/-!
# What texts stand for

A plain text without a tag may look like nothing, a truth value, a number, a moment, or one of two
marks; otherwise it is a text. A tag says what a text stands for whether it looks like it or not,
and a text that does not is a fault.
-/

namespace Synopsis.Yaml

open Synopsis.Text Synopsis.Decimal

inductive Kind where
  | null | bool | int | float | binary | moment | pairs | set | text | list | table
  /-- The mark that puts the fields of other tables into one. -/
  | merge
  /-- The mark for the value of a table itself. -/
  | self
  | unknown
  deriving DecidableEq, Repr

def Kind.ofTag (tag : String) : Kind :=
  match dropPrefix? "tag:yaml.org,2002:".toList tag.toList with
  | none => .unknown
  | some name =>
    match String.ofList name with
    | "null" => .null
    | "bool" => .bool
    | "int" => .int
    | "float" => .float
    | "binary" => .binary
    | "timestamp" => .moment
    | "omap" => .pairs
    | "pairs" => .pairs
    | "set" => .set
    | "str" => .text
    | "seq" => .list
    | "map" => .table
    | "merge" => .merge
    | "value" => .self
    | _ => .unknown

/-- Words for truth values with what they stand for, in lower case. -/
def truthWords : List (String × Bool) :=
  [("yes", true), ("no", false), ("true", true), ("false", false), ("on", true), ("off", false)]

/-- Whether a word is written in small letters, in capitals, or with one capital at the start. -/
def isCased (word s : String) : Bool :=
  s == word || s == word.toUpper || s == word.capitalize

/-- Digits and low lines. -/
def isPadded (p : Char → Bool) (cs : List Char) : Bool := cs.all fun c => p c || c == '_'

/-- A digit, or two of which the first is at most five. -/
def isSixty (cs : List Char) : Bool :=
  match cs with
  | [d] => d.isDigit
  | [t, d] => '0' ≤ t && t ≤ '5' && d.isDigit
  | _ => false

def looksWhole (cs : List Char) : Bool :=
  let (_, body) := takeSign cs
  match body with
  | '0' :: rest =>
    match rest with
    | [] => true
    | 'b' :: ds => !ds.isEmpty && isPadded (fun c => c == '0' || c == '1') ds
    | 'x' :: ds => !ds.isEmpty && isPadded (fun c => (hexDigit? c).isSome) ds
    | ds => isPadded (fun c => '0' ≤ c && c ≤ '7') ds
  | d :: _ =>
    match splitOn ':' body with
    | [] => false
    | first :: parts => d.isDigit && isPadded Char.isDigit first && parts.all isSixty
  | [] => false

def isExponent (cs : List Char) : Bool :=
  match cs with
  | [] => true
  | e :: sign :: ds =>
    (e == 'e' || e == 'E') && (sign == '+' || sign == '-') && !ds.isEmpty && ds.all Char.isDigit
  | _ => false

def looksReal (cs : List Char) : Bool :=
  let (_, body) := takeSign cs
  let special (names : List String) (cs : List Char) : Bool := names.contains (String.ofList cs)
  let pad (c : Char) : Bool := c.isDigit || c == '_'
  if special [".inf", ".Inf", ".INF"] body then true
  else if special [".nan", ".NaN", ".NAN"] cs then true
  else match cs with
    | '.' :: d :: rest => d.isDigit && isExponent (rest.dropWhile pad)
    | _ =>
      match body with
      | d :: _ =>
        let (whole, fraction) := cutAt (· == '.') body
        match fraction, splitOn ':' whole with
        | some fraction, first :: parts =>
          d.isDigit && first.all pad && parts.all isSixty &&
            (if parts.isEmpty then isExponent (fraction.dropWhile pad) else fraction.all pad)
        | _, _ => false
      | [] => false

/-- Some digits, at least `least` and at most `most`, and the rest. -/
def digitRun (least most : Nat) (cs : List Char) : Option (List Char × List Char) :=
  let ds := (cs.take most).takeWhile Char.isDigit
  if ds.length < least then none else some (ds, cs.drop ds.length)

def number (ds : List Char) : Nat := ofDigits 10 (ds.filterMap digit?)

def after (c : Char) : List Char → Option (List Char)
  | d :: rest => if c == d then some rest else none
  | [] => none

/-- A day and a time as they are written; the numbers may be out of range. -/
structure MomentText where
  year : Nat
  month : Nat
  day : Nat
  /-- Whether month and day have two digits each. -/
  isWide : Bool
  clock : Option Clock := none
  offset : Option Int := none

/-- The distance from universal time after a time, which ends the text. -/
def zone? (cs : List Char) : Option (Option Int) :=
  let signed (sign : Int) (cs : List Char) : Option (Option Int) := do
    let (hours, cs) ← digitRun 1 2 cs
    match cs with
    | [] => return some (sign * (number hours * 3600))
    | ':' :: cs =>
      let (minutes, cs) ← digitRun 2 2 cs
      if cs.isEmpty then return some (sign * (number hours * 3600 + number minutes * 60)) else none
    | _ => none
  match cs.dropWhile fun c => c == ' ' || c == '\t' with
  | [] => if cs.isEmpty then some none else none
  | ['Z'] => some (some 0)
  | '+' :: cs => signed 1 cs
  | '-' :: cs => signed (-1) cs
  | _ => none

def momentText? (cs : List Char) : Option MomentText := do
  let (year, cs) ← digitRun 4 4 cs
  let (month, cs) ← digitRun 1 2 (← after '-' cs)
  let (day, cs) ← digitRun 1 2 (← after '-' cs)
  let found : MomentText :=
    { year := number year, month := number month, day := number day
      isWide := month.length == 2 && day.length == 2 }
  match cs with
  | [] => return found
  | c :: rest =>
    let blank (c : Char) : Bool := c == ' ' || c == '\t'
    let cs ← if c == 'T' || c == 't' then some rest
      else if blank c then some (rest.dropWhile blank) else none
    let (hour, cs) ← digitRun 1 2 cs
    let (minute, cs) ← digitRun 2 2 (← after ':' cs)
    let (second, cs) ← digitRun 2 2 (← after ':' cs)
    let (fraction, cs) := match cs with
      | '.' :: cs => (cs.takeWhile Char.isDigit, cs.dropWhile Char.isDigit)
      | cs => ([], cs)
    let micro := number ((fraction ++ List.replicate 6 '0').take 6)
    let offset ← zone? cs
    return { found with clock := some ⟨number hour, number minute, number second, micro⟩
                        offset := offset }

def looksMoment (cs : List Char) : Bool :=
  match momentText? cs with
  | some m => m.isWide || m.clock.isSome
  | none => false

def Kind.ofPlain (s : String) : Kind :=
  let cs := s.toList
  if truthWords.any fun (word, _) => isCased word s then .bool
  else if looksReal cs then .float
  else if looksWhole cs then .int
  else if s == "<<" then .merge
  else if s == "" || s == "~" || isCased "null" s then .null
  else if looksMoment cs then .moment
  else if s == "=" then .self
  else .text

def digitIn? (base : Nat) (c : Char) : Option Nat := (hexDigit? c).filter (· < base)

/-- The whole number that a text writes in a base; a mark of the base may stand before it. -/
def wholeIn? (base : Nat) (mark : Char) (s : List Char) : Option Int :=
  let (negative, body) := takeSign (trim (plainDigits s))
  let body := match body with
    | '0' :: c :: rest => if c.toLower == mark then rest else body
    | _ => body
  let ds := body.filterMap (digitIn? base)
  if body.isEmpty || ds.length != body.length then none
  else
    let n : Int := ofDigits base ds
    some (if negative then -n else n)

def wholeInTen (s : List Char) : Except Fault Int :=
  let text := String.ofList s
  match lenientInt? text with
  | some n =>
    if longestNumeral < lenientDigits text then .error (.longWhole (lenientDigits text)) else .ok n
  | none => .error (.noWhole 10 text)

/-- Numbers that count units, each sixty of the next one, as one number. -/
def sixties {α : Type} (add : α → Nat → α → α) (zero : α) (parts : List α) : α :=
  (parts.reverse.foldl (fun (total, unit) part => (add total unit part, unit * 60)) (zero, 1)).1

def whole (s : String) : Except Fault Int :=
  let cs := s.toList.filter (· != '_')
  if cs.isEmpty then .error .emptyNumber
  else
    let (negative, body) := takeSign cs
    let signed (n : Int) : Int := if negative then -n else n
    let based (base : Nat) (mark : Char) (ds : List Char) : Except Fault Int :=
      match wholeIn? base mark ds with
      | some n => .ok (signed n)
      | none => .error (.noWhole base (String.ofList ds))
    match body with
    | [] => .error .emptyNumber
    | ['0'] => .ok 0
    | '0' :: 'b' :: ds => based 2 'b' ds
    | '0' :: 'x' :: ds => based 16 'x' ds
    | '0' :: _ => based 8 'o' body
    | _ =>
      if body.contains ':' then do
        let parts ← (splitOn ':' body).mapM wholeInTen
        return signed (sixties (fun total unit n => total + n * (unit : Int)) 0 parts)
      else do return signed (← wholeInTen body)

def real (s : String) : Except Fault Float :=
  let cs := (lower (String.ofList (s.toList.filter (· != '_')))).toList
  if cs.isEmpty then .error .emptyNumber
  else
    let (negative, body) := takeSign cs
    let signed (x : Float) : Float := if negative then -x else x
    let one (ds : List Char) : Except Fault Float :=
      match lenientFloat? (String.ofList ds) with
      | some x => .ok x
      | none => .error (.noNumber (String.ofList ds))
    if body == ".inf".toList then .ok (signed (1.0 / 0.0))
    else if body == ".nan".toList then .ok (0.0 / 0.0)
    else if body.contains ':' then do
      let parts ← (splitOn ':' body).mapM one
      return signed (sixties (fun total unit x => total + x * Decimal.scientific unit 0) 0.0 parts)
    else do return signed (← one body)

def durationText (seconds : Int) : String :=
  let days := Int.fdiv seconds 86400
  let rest := Int.fmod seconds 86400
  let parts := (if days == 0 then [] else [s!"days={days}"]) ++
    (if rest == 0 then [] else [s!"seconds={rest}"])
  "datetime.timedelta(" ++ ", ".intercalate parts ++ ")"

/-- The first reason why no calendar has a moment. -/
def MomentText.refusal? (m : MomentText) : Option String :=
  let tooFar := match m.offset with
    | some n => 86400 ≤ n.natAbs
    | none => false
  if m.clock.isSome && tooFar then
    some ("offset must be a timedelta strictly between " ++
      s!"-timedelta(hours=24) and timedelta(hours=24), not {durationText (m.offset.getD 0)}.")
  else if m.year == 0 then some "year 0 is out of range"
  else if m.month == 0 || 12 < m.month then some "month must be in 1..12"
  else if m.day == 0 || monthLength m.year m.month < m.day then some "day is out of range for month"
  else match m.clock with
    | none => none
    | some c =>
      if 23 < c.hour then some "hour must be in 0..23"
      else if 59 < c.minute then some "minute must be in 0..59"
      else if 59 < c.second then some "second must be in 0..59"
      else none

def moment (s : String) : Except Fault Moment :=
  match momentText? s.toList with
  | none => .error .noMoment
  | some m =>
    match m.refusal? with
    | some reason => .error (.calendar reason)
    | none =>
      let day : Day := ⟨m.year, m.month, m.day⟩
      match m.clock with
      | none => .ok (.day day)
      | some c => .ok (.instant day c m.offset)

def sixtyFour? (c : Char) : Option Nat :=
  if 'A' ≤ c && c ≤ 'Z' then some (c.toNat - 65)
  else if 'a' ≤ c && c ≤ 'z' then some (c.toNat - 71)
  else if c.isDigit then some (c.toNat + 4)
  else if c == '+' then some 62
  else if c == '/' then some 63
  else none

/-- The bytes that characters in base sixty-four write; others are passed over. `place` is
the place in a group of four, `held` what is left of the last character, and `pads` the
number of equals signs before. -/
def sixtyFourBytes (place held pads : Nat) : List Char → Option (List Nat)
  | [] => if place == 0 then some [] else none
  | c :: rest =>
    if c == '=' then
      if 2 ≤ place then
        if 4 ≤ place + pads + 1 then some [] else sixtyFourBytes place held (pads + 1) rest
      else sixtyFourBytes place held pads rest
    else match sixtyFour? c with
      | none => sixtyFourBytes place held pads rest
      | some n =>
        match place with
        | 0 => sixtyFourBytes 1 n 0 rest
        | 1 => (sixtyFourBytes 2 (n % 16) 0 rest).map ((held * 4 + n / 16) :: ·)
        | 2 => (sixtyFourBytes 3 (n % 4) 0 rest).map ((held * 16 + n / 4) :: ·)
        | _ => (sixtyFourBytes 0 0 0 rest).map ((held * 64 + n) :: ·)

/-- The bytes that a text stands for, as a list of numbers. -/
def bytes (s : String) : Except Fault (List Nat) :=
  if s.toList.any (128 ≤ ·.toNat) then .error .malformed
  else match sixtyFourBytes 0 0 0 s.toList with
    | some bs => .ok bs
    | none => .error .malformed

/-- What a text stands for as a node of some kind. Bytes are a list of numbers. -/
def ofText (kind : Kind) (s : String) : Except Fault Datum :=
  match kind with
  | .null => .ok .null
  | .bool =>
    match truthWords.lookup (lower s) with
    | some b => .ok (.bool b)
    | none => .error (.noTruth (lower s))
  | .int => (whole s).map .int
  | .float => (real s).map .float
  | .binary => (bytes s).map fun bs => .list (bs.map fun b => .int (b : Nat))
  | .moment => (moment s).map .moment
  | .text => .ok (.text s)
  | _ => .error .malformed

end Synopsis.Yaml
