import Synopsis.Text.Lines
import Synopsis.Text.Printable
import Synopsis.Text.Word
/-!
# Reading arguments

Arguments are switches and operands. A switch may be shortened as long as it is clear which one is
meant, its value may follow it or stand after an equals sign, and short switches may be written
together. After a double hyphen everything is an operand. A grammar says which switches there are
and whether an operand is expected; what switches and operands mean is left to the caller.
-/

namespace Synopsis.Options

structure Switch (σ : Type) where
  names : List String
  meaning : σ
  takesValue : Bool := false

def Switch.label {σ : Type} (s : Switch σ) : String := Text.join "/" s.names

inductive Operand where
  /-- One argument. -/
  | single (label : String)
  /-- A word with everything after it. -/
  | command (label : String)
  deriving DecidableEq, Repr

def Operand.label : Operand → String
  | .single label => label
  | .command label => label

structure Grammar (σ : Type) where
  switches : List (Switch σ)
  operand : Option Operand

structure Reading (σ : Type) where
  switch : Switch σ
  name : String
  /-- The value is joined to the switch by an equals sign. -/
  byEquals : Bool
  value : Option String

/-- An argument as it is understood before it is known what comes before it. -/
inductive Token (σ : Type) where
  | operand (text : String)
  /-- The double hyphen after which everything is an operand. -/
  | divider
  | switch (text : String) (reading : Option (Reading σ))

def Token.text {σ : Type} : Token σ → String
  | .operand text => text
  | .divider => "--"
  | .switch text _ => text

def Token.isSwitch {σ : Type} : Token σ → Bool
  | .switch _ _ => true
  | _ => false

/-! ## Telling switches from operands -/

/-- The names of all switches, each with its switch. -/
def Grammar.named {σ : Type} (g : Grammar σ) : List (String × Switch σ) :=
  g.switches.flatMap fun s => s.names.map fun name => (name, s)

def splitEquals (text : String) : String × Option String :=
  let cs := text.toList
  let left := cs.takeWhile (· != '=')
  match cs.dropWhile (· != '=') with
  | [] => (text, none)
  | _ :: right => (String.ofList left, some (String.ofList right))

def startsWith (text start : String) : Bool :=
  (Text.dropPrefix? start.toList text.toList).isSome

/-- The switches that a shortened or joined argument may mean. -/
def readings {σ : Type} (g : Grammar σ) (text : String) : List (Reading σ) :=
  if startsWith text "--" then
    let (start, value) := splitEquals text
    (g.named.filter fun (name, _) => startsWith name start).map fun (name, s) =>
      ⟨s, name, value.isSome, value⟩
  else
    g.named.filterMap fun (name, s) =>
      if name == String.ofList (text.toList.take 2) then
        some ⟨s, name, false, some (String.ofList (text.toList.drop 2))⟩
      else if startsWith name text then some ⟨s, name, false, none⟩
      else none

/-- Whether an argument is a negative number. -/
def isNegativeNumber (text : String) : Bool :=
  match text.toList with
  | '-' :: rest =>
    let isDigit (c : Char) : Bool := (Text.digitValue? c).isSome
    let whole := rest.takeWhile isDigit
    match rest.dropWhile isDigit with
    | [] => !whole.isEmpty
    | ['\n'] => !whole.isEmpty
    | '.' :: places =>
      let ds := places.takeWhile isDigit
      let after := places.dropWhile isDigit
      !ds.isEmpty && (after.isEmpty || after == ['\n'])
    | _ => false
  | _ => false

def ambiguous {σ : Type} (text : String) (found : List (Reading σ)) : String :=
  s!"ambiguous option: {text} could match " ++ Text.join ", " (found.map (·.name))

/-- What an argument before the divider is. -/
def tokenOf {σ : Type} (g : Grammar σ) (text : String) : Except String (Token σ) :=
  if !startsWith text "-" then .ok (.operand text)
  else match g.named.lookup text with
    | some s => .ok (.switch text (some ⟨s, text, false, none⟩))
    | none =>
      if text == "-" then .ok (.operand text)
      else
        let (start, value) := splitEquals text
        match if value.isSome then g.named.lookup start else none with
        | some s => .ok (.switch text (some ⟨s, start, true, value⟩))
        | none =>
          match readings g text with
          | [found] => .ok (.switch text (some found))
          | [] =>
            if isNegativeNumber text || text.toList.contains ' ' then .ok (.operand text)
            else .ok (.switch text none)
          | found => .error (ambiguous text found)

def tokens {σ : Type} (g : Grammar σ) : List String → Except String (List (Token σ))
  | [] => .ok []
  | "--" :: rest => .ok (.divider :: rest.map .operand)
  | text :: rest => do
    let token ← tokenOf g text
    return token :: (← tokens g rest)

/-! ## Taking switches and operands -/

/-- A switch that is taken, with its value if it takes one. -/
structure Taken (σ : Type) where
  switch : Switch σ
  value : Option String

def wrong {σ : Type} (s : Switch σ) (reason : String) : String :=
  s!"argument {s.label}: {reason}"

def ignored {σ : Type} (s : Switch σ) (value : String) : String :=
  wrong s ("ignored explicit argument " ++ Text.quoted value)

/-- Takes a switch that has a value joined to it, `value`, and the short switches that this turns
out to be, at most `fuel` of them. What is no switch is left over. -/
def takeJoined {σ : Type} (g : Grammar σ) (rest : List (Token σ)) :
    Nat → Reading σ → Except String (List (Taken σ) × List String × List (Token σ))
  | 0, _ => .ok ([], [], rest)
  | _ + 1, ⟨s, _, _, none⟩ =>
    if !s.takesValue then .ok ([⟨s, none⟩], [], rest)
    else match rest with
      | .operand value :: rest => .ok ([⟨s, some value⟩], [], rest)
      | _ => .error (wrong s "expected one argument")
  | fuel + 1, ⟨s, name, byEquals, some value⟩ =>
    if s.takesValue then .ok ([⟨s, some value⟩], [], rest)
    else match value.toList with
      | [] => .error (ignored s value)
      | c :: more =>
        if startsWith name "--" || byEquals || c == '-' then .error (ignored s value)
        else
          let next := String.ofList ['-', c]
          match g.named.lookup next with
          | none => .ok ([⟨s, none⟩], ["-" ++ value], rest)
          | some other =>
            let reading : Reading σ := match more with
              | [] => ⟨other, next, false, none⟩
              | '=' :: more => ⟨other, next, true, some (String.ofList more)⟩
              | more => ⟨other, next, false, some (String.ofList more)⟩
            match takeJoined g rest fuel reading with
            | .error e => .error e
            | .ok (taken, extra, rest) => .ok (⟨s, none⟩ :: taken, extra, rest)

/-- Takes the operand from the start of the arguments, if it stands there: its arguments and what
follows. -/
def takeOperand {σ : Type} (operand : Operand) (ts : List (Token σ)) :
    Option (List String × List (Token σ)) :=
  let isDivider (t : Token σ) : Bool := match t with | .divider => true | _ => false
  let lead := ts.takeWhile isDivider
  match ts.dropWhile isDivider with
  | .operand text :: rest =>
    match operand with
    | .command _ => some (lead.map Token.text ++ text :: rest.map Token.text, [])
    | .single _ => some ([text], rest.dropWhile isDivider)
  | _ => none

structure State (α : Type) where
  value : α
  /-- The operand was taken. -/
  complete : Bool := false
  /-- Arguments that mean nothing. -/
  extra : List String := []

/-- How switches and operands change a value, with a fault of the caller's own. -/
structure Handler (σ ε α : Type) where
  refuse : String → ε
  switch : Taken σ → α → Except ε α
  /-- The operand may leave arguments over. -/
  operand : List String → α → Except ε (α × List String)

def stepOperand {σ ε α : Type} (g : Grammar σ) (h : Handler σ ε α) (ts : List (Token σ))
    (state : State α) : Except ε (Option (List (Token σ) × State α)) :=
  match if state.complete then none else g.operand.bind fun operand => takeOperand operand ts with
  | none => .ok none
  | some (texts, rest) => do
    let (value, extra) ← h.operand texts state.value
    return some (rest, { value, complete := true, extra := state.extra ++ extra })

def stepSwitch {σ ε α : Type} (g : Grammar σ) (h : Handler σ ε α) (text : String)
    (reading : Option (Reading σ)) (rest : List (Token σ)) (state : State α) :
    Except ε (List (Token σ) × State α) :=
  match reading with
  | none => .ok (rest, { state with extra := state.extra ++ [text] })
  | some reading =>
    match takeJoined g rest (text.length + 1) reading with
    | .error reason => .error (h.refuse reason)
    | .ok (taken, extra, rest) => do
      let value ← taken.foldlM (fun value t => h.switch t value) state.value
      return (rest, { state with value, extra := state.extra ++ extra })

/-- Takes switches and operands in turn, at most `fuel` of them, while there are switches; at the
end the operand may still come, and the rest means nothing. -/
def steps {σ ε α : Type} (g : Grammar σ) (h : Handler σ ε α) :
    Nat → List (Token σ) → State α → Except ε (State α)
  | 0, _, state => .ok state
  | fuel + 1, ts, state =>
    match ts with
    | .switch text reading :: rest => do
      let (rest, state) ← stepSwitch g h text reading rest state
      steps g h fuel rest state
    | ts => do
      match ← stepOperand g h ts state with
      | some (rest, state) => steps g h fuel rest state
      | none =>
        let left := ts.takeWhile fun t => !t.isSwitch
        let rest := ts.dropWhile fun t => !t.isSwitch
        let state := { state with extra := state.extra ++ left.map Token.text }
        if rest.isEmpty then return state else steps g h fuel rest state

/-- Reads arguments: the value that they give and the arguments that mean nothing. A missing operand
is refused. -/
def read {σ ε α : Type} (g : Grammar σ) (h : Handler σ ε α) (value : α) (arguments : List String) :
    Except ε (α × List String) := do
  let ts ← (tokens g arguments).mapError h.refuse
  let state ← steps g h (2 * ts.length + 1) ts { value }
  match g.operand with
  | some operand =>
    if state.complete then return (state.value, state.extra)
    else throw (h.refuse ("the following arguments are required: " ++ operand.label))
  | none => return (state.value, state.extra)

end Synopsis.Options
