import Synopsis.Yaml.Meaning
/-!
# Values of documents

Every node stands for a value or for a fault. Of several faults the one counts that is met first
when the lists and tables are gone through level by level. Names in tables that are no texts are
left out, since nothing is looked up by them.
-/

namespace Synopsis.Yaml

def Node.kind : Node → Kind
  | .text (some tag) _ _ => Kind.ofTag tag
  | .text none isPlain s => if isPlain then Kind.ofPlain s else .text
  | .list tag _ => (tag.map Kind.ofTag).getD .list
  | .table tag _ => (tag.map Kind.ofTag).getD .table
  | .alias _ => .table

/-- Whether a node is a list or table, or stands for one, and so cannot be a name in a table. -/
def Kind.isNested : Kind → Bool
  | .list | .table | .pairs | .set => true
  | _ => false

/-- A name in a table as a text; none if it is something else. -/
def Node.name? : Node → Option String
  | .text tag isPlain s =>
    let kind := (Node.text tag isPlain s).kind
    if kind == .text || kind == .self then some s else none
  | _ => none

/-- The text of the value of a table itself, for a table that stands for a text. -/
def Node.selfText? : Node → Option String
  | .text _ _ s => some s
  | .table _ fields => (fields.find? (·.1.kind == .self)).bind fun
    | (_, .text _ _ s) => some s
    | _ => none
  | _ => none

mutual
/-- The value that a node stands for, faults aside. A set has its items one level down, as it is no
list. -/
def Node.datum : Node → Datum
  | .text tag isPlain s =>
    match ofText (Node.text tag isPlain s).kind s with
    | .ok d => d
    | .error _ => .null
  | .list tag items =>
    match (Node.list tag items).kind with
    | .list => .list (datums items)
    | .pairs => .list (pairItems items)
    | _ => .null
  | .table tag fields =>
    let node := Node.table tag fields
    match node.kind with
    | .table => .table (Table.ofPairs (mergedInto fields ++ ownFields fields))
    | .set => .list ((datumsOfNames fields).map fun d => .list [d])
    | kind =>
      match node.selfText? with
      | some s => ((ofText kind s).toOption).getD .null
      | none => .null
  | .alias _ => .table []

def datums : List Node → List Datum
  | [] => []
  | t :: ts => t.datum :: datums ts

/-- The only fields of some tables, as pairs. -/
def pairItems : List Node → List Datum
  | [] => []
  | .table _ [(k, v)] :: ts => .list [k.datum, v.datum] :: pairItems ts
  | _ :: ts => pairItems ts

def datumsOfNames : List (Node × Node) → List Datum
  | [] => []
  | (k, _) :: rest => k.datum :: datumsOfNames rest

def ownFields : List (Node × Node) → List (String × Datum)
  | [] => []
  | (k, v) :: rest =>
    let more := ownFields rest
    match (if k.kind == .merge then none else k.name?) with
    | some name => (name, v.datum) :: more
    | none => more

def mergedInto : List (Node × Node) → List (String × Datum)
  | [] => []
  | (k, v) :: rest => (if k.kind == .merge then mergedFrom v else []) ++ mergedInto rest

/-- The fields that a node gives to a table into which it is merged. Of several tables
an earlier one counts more. -/
def mergedFrom : Node → List (String × Datum)
  | .table _ fields => mergedInto fields ++ ownFields fields
  | .list _ items => mergedFromAll items
  | _ => []

/-- The fields that some nodes give, those of later ones first. -/
def mergedFromAll : List Node → List (String × Datum)
  | [] => []
  | t :: ts => mergedFromAll ts ++ mergedFrom t
end

/-- A fault and the level at which it is met. -/
abbrev Met := Option (Nat × Fault)

def Met.first : Met → Met → Met
  | some (n, e), some (m, f) => if m < n then some (m, f) else some (n, e)
  | some e, none => some e
  | none, f => f

/-- A fault at a level if a condition holds. -/
def Met.when (condition : Bool) (level : Nat) (e : Fault) : Met :=
  if condition then some (level, e) else none

def Met.ofText (level : Nat) (kind : Kind) (s : String) : Met :=
  match Yaml.ofText kind s with
  | .ok _ => none
  | .error e => some (level, e)

mutual
def Node.fault (level : Nat) : Node → Met
  | .text tag isPlain s =>
    let kind := (Node.text tag isPlain s).kind
    if kind.isNested then some (level + 1, .malformed) else Met.ofText level kind s
  | .list tag items =>
    match (Node.list tag items).kind with
    | .list => faults (level + 1) items
    | .pairs => pairFaults (level + 1) items
    | .table => some (level + 1, .malformed)
    | .set => some (level + 1, .malformed)
    | _ => some (level, .malformed)
  | .table tag fields =>
    let node := Node.table tag fields
    match node.kind with
    | .table => (mergeFaults (level + 1) fields).first (fieldFaults (level + 1) fields)
    | .set => (mergeFaults (level + 1) fields).first (fieldFaults (level + 1) fields)
    | .list => some (level + 1, .malformed)
    | .pairs => some (level + 1, .malformed)
    | kind =>
      match node.selfText? with
      | some s => Met.ofText level kind s
      | none => some (level, .malformed)
  | .alias _ => none

def faults (level : Nat) : List Node → Met
  | [] => none
  | t :: ts => (t.fault level).first (faults level ts)

/-- The first fault of nodes that have to be tables of one field. -/
def pairFaults (level : Nat) : List Node → Met
  | [] => none
  | .table _ [(k, v)] :: ts =>
    ((k.fault level).first (v.fault level)).first (pairFaults level ts)
  | _ :: _ => some (level, .malformed)

def fieldFaults (level : Nat) : List (Node × Node) → Met
  | [] => none
  | (k, v) :: rest =>
    let own :=
      if k.kind == .merge then (mergedFaults level v)
      else if k.kind == .self then v.fault level
      else ((k.fault level).first (Met.when k.kind.isNested level .malformed)).first (v.fault level)
    own.first (fieldFaults level rest)

/-- The first fault of the names under which other tables are merged into one. -/
def mergeFaults (level : Nat) : List (Node × Node) → Met
  | [] => none
  | (k, v) :: rest =>
    (if k.kind == .merge then unmergeable level v else none).first (mergeFaults level rest)

/-- The fault of a node that cannot be merged into a table. -/
def unmergeable (level : Nat) : Node → Met
  | .table _ fields => mergeFaults level fields
  | .list _ items => unmergeableAll level items
  | .alias _ => none
  | .text _ _ _ => some (level, .malformed)

def unmergeableAll (level : Nat) : List Node → Met
  | [] => none
  | .table _ fields :: ts => (mergeFaults level fields).first (unmergeableAll level ts)
  | .alias _ :: ts => unmergeableAll level ts
  | _ :: _ => some (level, .malformed)

/-- The first fault of the fields that a node gives to a table. -/
def mergedFaults (level : Nat) : Node → Met
  | .table _ fields => fieldFaults level fields
  | .list _ items => mergedFaultsAll level items
  | _ => none

def mergedFaultsAll (level : Nat) : List Node → Met
  | [] => none
  | t :: ts => (mergedFaults level t).first (mergedFaultsAll level ts)
end

mutual
/-- A node with what the aliases in it repeat. -/
def Node.expand (anchors : List (String × Node)) : Node → Node
  | .alias name => (anchors.lookup name).getD (.alias name)
  | .list tag items => .list tag (expandAll anchors items)
  | .table tag fields => .table tag (expandFields anchors fields)
  | t => t

def expandAll (anchors : List (String × Node)) : List Node → List Node
  | [] => []
  | t :: ts => t.expand anchors :: expandAll anchors ts

def expandFields (anchors : List (String × Node)) : List (Node × Node) → List (Node × Node)
  | [] => []
  | (k, v) :: rest => (k.expand anchors, v.expand anchors) :: expandFields anchors rest
end

/-- The value of a document; nothing if there is none. A node inside itself is repeated four times,
which is deeper than settings are looked for. -/
def parse (text : String) : Except Fault Datum :=
  match read text with
  | .error e => .error e
  | .ok (none, _) => .ok .null
  | .ok (some t, anchors) =>
    match t.fault 0 with
    | some (_, e) => .error e
    | none =>
      let whole := (List.range 4).foldl (fun t _ => t.expand anchors) t
      .ok whole.datum

end Synopsis.Yaml
