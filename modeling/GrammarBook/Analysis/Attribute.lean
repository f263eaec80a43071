import GrammarBook.Document.Basic
import GrammarBook.Inflection

namespace GrammarBook

/-!
# Attributes

A rule holds an attribute for each name it refers to. In an inline definition repeated references
become one plural attribute; in a multiline definition every line keeps its own. Attributes are
named after what they refer to, in lower case, in the plural where they are plural, and with a
number from the second of one stem on.
-/

/-- What an attribute holds: the node of another rule, or the text of a token. -/
inductive AttributeKind where
  | node
  | token
  deriving DecidableEq, Repr

def AttributeKind.name : AttributeKind → String
  | node => "instance"
  | token => "token"

/-- An attribute of a rule. -/
structure Attribute where
  name : String
  identifier : String
  isPlural : Bool
  kind : AttributeKind
  deriving DecidableEq, Repr

/-- What an attribute for the identifier holds. -/
def Identifier.attributeKind : Identifier → AttributeKind
  | upper _ => .node
  | lower _ => .token

/-- A reference as it occurs in a rule, with its plurality in that place. -/
structure Occurrence where
  identifier : Identifier
  isPlural : Bool
  deriving DecidableEq, Repr

namespace Occurrence

/-- Adds an occurrence: a first one at the end, a repeated one by making the first plural. -/
def merge (occurrence : Occurrence) : List Occurrence → List Occurrence
  | [] => [occurrence]
  | first :: others =>
    if first.identifier = occurrence.identifier then { first with isPlural := true } :: others
    else first :: merge occurrence others

/-- The occurrences with repeated ones merged into their first. -/
def consolidate (occurrences : List Occurrence) : List Occurrence :=
  occurrences.foldl (fun merged occurrence => merge occurrence merged) []

/-- The lowered name of what is referred to. -/
def lowered (occurrence : Occurrence) : String := Inflection.lowered occurrence.identifier.name

/-- What the numbering of attributes goes by. -/
def stem (occurrence : Occurrence) : String := Inflection.singular occurrence.lowered

/-- The attribute of an occurrence before which the given number of occurrences had its stem. -/
def toAttribute (occurrence : Occurrence) (earlier : Nat) : Attribute :=
  let base :=
    if earlier = 0 then occurrence.lowered else occurrence.stem ++ toString (earlier + 1)
  { name := if occurrence.isPlural then Inflection.plural base else base
    identifier := occurrence.identifier.name
    isPlural := occurrence.isPlural
    kind := occurrence.identifier.attributeKind }

/-- The attributes of occurrences that follow those with the given stems. -/
def attributesAfter (stems : List String) : List Occurrence → List Attribute
  | [] => []
  | occurrence :: others =>
    occurrence.toAttribute (stems.count occurrence.stem) ::
      attributesAfter (occurrence.stem :: stems) others

def attributes (occurrences : List Occurrence) : List Attribute := attributesAfter [] occurrences

end Occurrence
end GrammarBook
