import Synopsis.Datum
/-!
# Shapes of documents

The shape of a value names its kinds to a bounded depth: a list by its length and the shape of
its first item, a table by the shapes of its leading fields and the number of the others.
-/

namespace Synopsis.Json

inductive Shape where
  /-- A kind of value without parts, or the mark for what lies too deep. -/
  | tag (name : String)
  | list (length : Nat) (item : Option Shape)
  | table (fields : List (String × Shape)) (others : Nat)
  deriving Repr

namespace Shape

def maxDepth : Int := 3

/-- Number of fields of a table that are described. -/
def maxFields : Nat := 10

mutual
def ofDatum (depth : Int) (value : Datum) : Shape :=
  if maxDepth < depth then .tag "..."
  else match value with
    | .list [] => .list 0 none
    | .list (first :: rest) => .list (rest.length + 1) (some (ofDatum (depth + 1) first))
    | .table fields => .table (ofFields (depth + 1) maxFields fields) (fields.length - maxFields)
    | .bool _ => .tag "boolean"
    | .int _ => .tag "number"
    | .float _ => .tag "number"
    | .text _ => .tag "string"
    | .moment _ => .tag "null"
    | .null => .tag "null"

/-- The shapes of the first fields, at most `count` of them. -/
def ofFields (depth : Int) : Nat → List (String × Datum) → List (String × Shape)
  | 0, _ => []
  | _, [] => []
  | count + 1, (name, value) :: fields =>
    (name, ofDatum depth value) :: ofFields depth count fields
end

end Shape

end Synopsis.Json
