import Synopsis.Table
import Synopsis.Text.Printable
import Synopsis.Decimal.Read
import Synopsis.Decimal.Shortest
/-!
# Data

The values that documents hold: nothing, truth values, numbers, texts, dates and times, lists
and tables. `Datum.asText` is a value as a text shows it, with a text standing for itself and
everything inside a list or a table written so that it can be told apart.
-/

namespace Synopsis

structure Day where
  year : Nat
  month : Nat
  day : Nat
  deriving DecidableEq, Repr

def monthLength (year month : Nat) : Nat :=
  if month == 2 then
    if year % 4 == 0 && (year % 100 != 0 || year % 400 == 0) then 29 else 28
  else if [4, 6, 9, 11].contains month then 30
  else 31

structure Clock where
  hour : Nat
  minute : Nat
  second : Nat
  micro : Nat
  deriving DecidableEq, Repr

/-- A day, a time of day, or both, with a distance from universal time in seconds. -/
inductive Moment where
  | day (d : Day)
  | clock (c : Clock)
  | instant (d : Day) (c : Clock) (offset : Option Int)
  deriving DecidableEq, Repr

/-- A number with zeros before it up to a width. -/
def padded (width n : Nat) : String :=
  let ds := (toString n).toList
  String.ofList (List.replicate (width - ds.length) '0' ++ ds)

/-- A text with the letter Z in place of every zero distance from universal time. -/
def withZulu : List Char → List Char
  | '+' :: '0' :: '0' :: ':' :: '0' :: '0' :: rest => 'Z' :: withZulu rest
  | c :: rest => c :: withZulu rest
  | [] => []

namespace Moment

def dayText (d : Day) : String := s!"{padded 4 d.year}-{padded 2 d.month}-{padded 2 d.day}"

/-- Hours, minutes and seconds with colons, and six places when there are microseconds. -/
def clockText (c : Clock) : String :=
  let places := if c.micro == 0 then "" else "." ++ padded 6 c.micro
  s!"{padded 2 c.hour}:{padded 2 c.minute}:{padded 2 c.second}{places}"

/-- A distance from universal time as hours and minutes with a sign. -/
def offsetText (seconds : Int) : String :=
  let sign := if seconds < 0 then "-" else "+"
  let n := seconds.natAbs
  let rest := if n % 60 == 0 then "" else ":" ++ padded 2 (n % 60)
  s!"{sign}{padded 2 (n / 3600)}:{padded 2 (n / 60 % 60)}{rest}"

/-- The moment, day and time being separated by `between`. -/
def textWith (between : String) : Moment → String
  | .day d => dayText d
  | .clock c => clockText c
  | .instant d c offset =>
    dayText d ++ between ++ clockText c ++ (offset.map offsetText).getD ""

/-- The moment as a report shows it. -/
def timestamp (m : Moment) : String := String.ofList (withZulu (m.textWith "T").toList)

/-- The moment as a journal shows it: day and time with milliseconds. -/
def journalText : Moment → String
  | .day d => dayText d ++ " 00:00:00,000"
  | .clock c => clockText { c with micro := 0 } ++ "," ++ padded 3 (c.micro / 1000)
  | .instant d c _ =>
    dayText d ++ " " ++ clockText { c with micro := 0 } ++ "," ++ padded 3 (c.micro / 1000)

/-- The parts of a time of day that are written out; zeros at the end are left away. -/
def clockParts (c : Clock) : List Nat :=
  [c.hour, c.minute] ++
    (if c.micro != 0 then [c.second, c.micro] else if c.second != 0 then [c.second] else [])

/-- The moment inside a list or a table. -/
def shown (m : Moment) : String :=
  let list (ns : List Nat) := ", ".intercalate (ns.map toString)
  match m with
  | .day d => s!"datetime.date({list [d.year, d.month, d.day]})"
  | .clock c => s!"datetime.time({list (clockParts c)})"
  | .instant d c offset =>
    let zone := match offset with
      | none => ""
      | some 0 => ", tzinfo=datetime.timezone.utc"
      | some n =>
        let days := Int.fdiv n 86400
        let seconds := Int.fmod n 86400
        let distance :=
          if days == 0 then s!"seconds={seconds}" else s!"days={days}, seconds={seconds}"
        s!", tzinfo=datetime.timezone(datetime.timedelta({distance}))"
    s!"datetime.datetime({list ([d.year, d.month, d.day] ++ clockParts c)}{zone})"

end Moment

inductive Datum where
  | null
  | bool (b : Bool)
  | int (n : Int)
  | float (x : Float)
  | text (s : String)
  | moment (m : Moment)
  | list (items : List Datum)
  | table (fields : List (String × Datum))

namespace Datum

mutual
/-- A value inside a list or a table. -/
def shown : Datum → String
  | .null => "None"
  | .bool b => if b then "True" else "False"
  | .int n => toString n
  | .float x => Decimal.floatText x
  | .text s => Text.quoted s
  | .moment m => m.shown
  | .list items => "[" ++ ", ".intercalate (shownAll items) ++ "]"
  | .table fields => "\x7b" ++ ", ".intercalate (shownFields fields) ++ "\x7d"

def shownAll : List Datum → List String
  | [] => []
  | item :: items => shown item :: shownAll items

def shownFields : List (String × Datum) → List String
  | [] => []
  | (name, value) :: fields => (Text.quoted name ++ ": " ++ shown value) :: shownFields fields
end

/-- A value as a text shows it. -/
def asText : Datum → String
  | .text s => s
  | .moment m => m.textWith " "
  | value => value.shown

mutual
/-- Whether a value holds a whole number of too many digits to be written. -/
def holdsLong : Datum → Bool
  | .int n => Decimal.isLong n
  | .list items => anyHoldsLong items
  | .table fields => anyFieldHoldsLong fields
  | _ => false

def anyHoldsLong : List Datum → Bool
  | [] => false
  | item :: items => holdsLong item || anyHoldsLong items

def anyFieldHoldsLong : List (String × Datum) → Bool
  | [] => false
  | (_, value) :: fields => holdsLong value || anyFieldHoldsLong fields
end

/-- The fields of a table; nothing else has any. -/
def fields : Datum → Table Datum
  | .table fields => fields
  | _ => []

def get? (name : String) (value : Datum) : Option Datum := Table.get? name value.fields

def items? : Datum → Option (List Datum)
  | .list items => some items
  | _ => none

/-- The text, of a value that is one. -/
def text? : Datum → Option String
  | .text s => some s
  | _ => none

/-- Whether a value counts as there: not null, not false, not zero and not empty. -/
def isSet : Datum → Bool
  | .null => false
  | .bool b => b
  | .int n => n != 0
  | .float x => x != 0.0
  | .text s => s != ""
  | .moment _ => true
  | .list items => !items.isEmpty
  | .table fields => !fields.isEmpty

end Datum

end Synopsis
