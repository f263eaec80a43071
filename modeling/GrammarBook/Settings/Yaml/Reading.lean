import GrammarBook.Settings.Yaml.Node

namespace GrammarBook
namespace Settings
namespace YamlFormat

/-!
# Readings of YAML nodes

Any scalar may be read as a text. Only a plain one may be read as null or as a count, except that a
literal block may be tagged as a count. Keys are read as texts whatever their tag.
-/

/-! ## Scalars -/

def isNullWord (text : List Char) : Bool :=
  text == "~".toList || text == "null".toList || text == "Null".toList || text == "NULL".toList

def nullType : String := "tag:yaml.org,2002:null"

def integerType : String := "tag:yaml.org,2002:int"

/-- The number that digits of a base write. -/
def based? (base : Nat) (digits : List Char) : Option Nat := do
  let values ← digits.mapM Text.hexDigit?
  if values.isEmpty ∨ values.any (base ≤ ·) then none
  let value := values.foldl (fun value digit => base * value + digit) 0
  if value < Text.countLimit then pure value else none

/-- The count that a scalar writes. In base ten no zero stands before other digits. -/
def count? (text : List Char) : Option Nat :=
  match Text.dropPlus text with
  | '0' :: 'x' :: digits => based? 16 digits
  | '0' :: 'o' :: digits => based? 8 digits
  | '0' :: 'b' :: digits => based? 2 digits
  | '0' :: _ :: _ => none
  | digits => based? 10 digits

/-- A plain scalar as a value. Null is written without a type, or with its own. -/
def plainValue (type : Option String) (text : List Char) : Value :=
  if type = some nullType then if isNullWord text then .null else .other
  else if type = none ∧ (text = [] ∨ isNullWord text) then .null
  else if text = [] then .blank
  else .scalar (count? text) (some (String.ofList text))

def scalarValue (type : Option String) (style : Style) (text : List Char) : Value :=
  match style with
  | .plain => plainValue type text
  | .literal =>
    .scalar (if type = some integerType then count? text else none) (some (String.ofList text))
  | _ => .scalar none (some (String.ofList text))

/-! ## Nodes -/

/-- The name that a key writes, if it is a scalar. -/
def keyText? (numbered : List (Nat × Node)) (key : Node) : Option String :=
  match key.content numbered with
  | .scalar _ _ text => some (String.ofList text)
  | _ => none

/-- A node as a value, with mappings in it up to the given depth. Sequences and deeper mappings have
no reading. -/
def Node.toValue (numbered : List (Nat × Node)) : Nat → Node → Value
  | depth, node =>
    match depth, node.content numbered with
    | _, .scalar type style text => scalarValue type style text
    | depth + 1, .mapping entries =>
      .ofEntries (entries.map fun entry =>
        (keyText? numbered entry.1, toValue numbered depth entry.2))
    | _, _ => .other

/-- The depth of settings: a table of sections, which are tables. -/
def settingsDepth : Nat := 2

/-- The root of a document as a value. A root without content is a table without entries. -/
def rootValue (root : Node) : Value :=
  let numbered := root.numbered
  match root.content numbered with
  | .scalar _ .plain [] => .table []
  | _ => root.toValue numbered settingsDepth

end YamlFormat
end Settings
end GrammarBook
