import GrammarBook.Settings.Yaml.Token

namespace GrammarBook
namespace Settings
namespace YamlFormat

/-!
# Nodes of YAML texts

A node is a scalar, a sequence, a mapping, or an alias for a node with an anchor. The anchors of a
document have numbers. A new anchor gets the number of names that are known so far, also where its
own name is one of them. Of several nodes with one number the last counts.
-/

/-! ## Nodes -/

/-- A node. -/
inductive Node where
  | alias (number : Nat)
  | scalar (type : Option String) (style : Style) (text : List Char)
  | sequence (items : List Node)
  | mapping (entries : List (Node × Node))
  | anchored (number : Nat) (node : Node)
  deriving Inhabited

/-- A node that nothing is written for. -/
def Node.empty (type : Option String) : Node := .scalar type .plain []

mutual

/-- The nodes with anchors in a node and their numbers, from front to back; a node comes before its
parts. -/
def Node.numbered : Node → List (Nat × Node)
  | .alias _ => []
  | .scalar _ _ _ => []
  | .sequence items => itemsNumbered items
  | .mapping entries => entriesNumbered entries
  | .anchored number node => (number, node) :: node.numbered

/-- The nodes with anchors in the items of a sequence. -/
def itemsNumbered : List Node → List (Nat × Node)
  | [] => []
  | item :: others => item.numbered ++ itemsNumbered others

/-- The nodes with anchors in the entries of a mapping. -/
def entriesNumbered : List (Node × Node) → List (Nat × Node)
  | [] => []
  | (key, value) :: others => key.numbered ++ (value.numbered ++ entriesNumbered others)

end

/-- What a node stands for, which is neither an alias nor a node with an anchor, given the nodes
with anchors. -/
def Node.content (numbered : List (Nat × Node)) : Node → Node
  | .alias number =>
    match numbered.reverse.find? (·.1 == number) with
    | some (_, node) => node
    | none => .empty none
  | .anchored _ node => node
  | node => node

/-! ## Reading nodes -/

/-- The tokens that follow, and the numbers of the names that are known. -/
structure Progress where
  tokens : List Token
  names : List (String × Nat) := []

/-- Reads something from the tokens. -/
abbrev Reader := StateT Progress Option

namespace Reader

def peek : Reader (Option Token) := do pure (← get).tokens.head?

def drop : Reader Unit := modify fun progress => { progress with tokens := progress.tokens.drop 1 }

/-- Leaves out the next token if it is the given one, and says whether it was. -/
def accept (token : Token) : Reader Bool := do
  if (← peek) = some token then
    drop
    pure true
  else pure false

/-- The number of an anchor that is known. -/
def numberOf (name : String) : Reader Nat := do
  match (← get).names.find? (·.1 == name) with
  | some (_, number) => pure number
  | none => failure

/-- Gives a name a number. -/
def introduce (name : String) : Reader Nat := do
  let names := (← get).names
  let number := names.length
  let others := names.filter (·.1 ≠ name)
  modify fun progress => { progress with names := (name, number) :: others }
  pure number

/-- Reads a part of a node, which is empty before some tokens. -/
def part (stops : List Token) (node : Reader Node) : Reader Node := do
  match ← peek with
  | some token => if token ∈ stops then pure (.empty none) else node
  | none => node

/-- Reads what stands behind a colon, if there is one. -/
def valuePart (stops : List Token) (node : Reader Node) : Reader Node := do
  if ← accept .value then part stops node else pure (.empty none)

/-! ### Columns -/

/-- The tokens that end an empty part of a mapping in a column. -/
def columnStops : List Token := [.key, .value, .columnEnd]

/-- The items of a sequence in a column, at most as many as the bound. -/
def columnItems (node : Reader Node) : Nat → Reader (List Node)
  | 0 => failure
  | bound + 1 => do
    if ← accept .item then
      let first ← part [.item, .columnEnd] node
      pure (first :: (← columnItems node bound))
    else if ← accept .columnEnd then pure []
    else failure

/-- The items of a sequence in the column of the mapping around it, at most as many as the bound.
Any other token ends it. -/
def sharedItems (node : Reader Node) : Nat → Reader (List Node)
  | 0 => failure
  | bound + 1 => do
    if ← accept .item then
      let first ← part (.item :: columnStops) node
      pure (first :: (← sharedItems node bound))
    else pure []

/-- The entries of a mapping in a column, at most as many as the bound. -/
def columnEntries (node : Reader Node) : Nat → Reader (List (Node × Node))
  | 0 => failure
  | bound + 1 => do
    if ← accept .key then
      let key ← part columnStops node
      let value ← valuePart columnStops node
      pure ((key, value) :: (← columnEntries node bound))
    else if ← accept .columnEnd then pure []
    else failure

/-! ### Brackets -/

/-- The key of a pair in square brackets. Where it is left out, the token behind it is skipped. -/
def squareKey (node : Reader Node) : Reader Node := do
  if ← accept .value <||> accept .comma <||> accept .closeSquare then pure (.empty none) else node

/-- An item in square brackets. A pair is a mapping of its own. -/
def squareItem (node : Reader Node) : Reader Node := do
  if ← accept .key then
    let key ← squareKey node
    let value ← valuePart [.comma, .closeSquare] node
    pure (.mapping [(key, value)])
  else node

/-- The items of a sequence in square brackets, with commas between them and maybe behind them; at
most as many as the bound. -/
def squareItems (node : Reader Node) : Nat → Reader (List Node)
  | 0 => failure
  | bound + 1 => do
    if ← accept .closeSquare then return []
    let first ← squareItem node
    if ← accept .comma then return first :: (← squareItems node bound)
    if ← accept .closeSquare then return [first]
    failure

/-- The tokens that end an empty part of a mapping in curly brackets. -/
def curlyStops : List Token := [.comma, .closeCurly]

def curlyEntry (node : Reader Node) : Reader (Node × Node) := do
  if ← accept .key then
    let key ← part (.value :: curlyStops) node
    pure (key, ← valuePart curlyStops node)
  else pure (← node, .empty none)

/-- The entries of a mapping in curly brackets, with commas between them and maybe behind them; at
most as many as the bound. -/
def curlyEntries (node : Reader Node) : Nat → Reader (List (Node × Node))
  | 0 => failure
  | bound + 1 => do
    if ← accept .closeCurly then return []
    let first ← curlyEntry node
    if ← accept .comma then return first :: (← curlyEntries node bound)
    if ← accept .closeCurly then return [first]
    failure

/-! ### Properties -/

/-- What stands before a node. -/
structure Properties where
  number : Option Nat := none
  type : Option String := none

def anchor : Reader (Option String) := do
  match ← peek with
  | some (.anchor name) =>
    drop
    pure (some name)
  | _ => pure none

/-- Reads a tag, if there is one. Its handle has to be known. -/
def type (handles : List (String × String)) : Reader (Option String) := do
  match ← peek with
  | some (.tag tag) =>
    drop
    match tag.name? handles with
    | some name => pure (some name)
    | none => failure
  | _ => pure none

/-- Reads an anchor and a tag in either order, both of which may be left out. -/
def properties (handles : List (String × String)) : Reader (Option String × Option String) := do
  match ← anchor with
  | some name => pure (some name, ← type handles)
  | none =>
    match ← type handles with
    | some name => pure (← anchor, some name)
    | none => pure (none, none)

/-! ### Nodes -/

/-- Where a node stands. In brackets there are no columns. As a part of a mapping, a sequence may
stand in the column of the mapping. -/
inductive Place where
  | brackets
  | column
  | mapping
  deriving DecidableEq, Repr

/-- Reads a node without its properties, and its parts in the given way. The bound is on the number
of parts. A mark of exclamation is no type for a scalar that is written. -/
def content (node : Place → Reader Node) (bound : Nat) (place : Place) (isMarked : Bool)
    (type : Option String) : Reader Node := do
  match ← peek with
  | some (.scalar style text) =>
    drop
    pure (.scalar (type.filter (· ≠ "!")) style text)
  | some .openSquare =>
    drop
    pure (.sequence (← squareItems (node .brackets) bound))
  | some .openCurly =>
    drop
    pure (.mapping (← curlyEntries (node .brackets) bound))
  | some .item =>
    if place = .mapping then pure (.sequence (← sharedItems (node .column) bound))
    else if isMarked then pure (.empty type)
    else failure
  | some .sequenceColumn =>
    if place ≠ .brackets then
      drop
      pure (.sequence (← columnItems (node .column) bound))
    else if isMarked then pure (.empty type)
    else failure
  | some .mappingColumn =>
    if place ≠ .brackets then
      drop
      pure (.mapping (← columnEntries (node .mapping) bound))
    else if isMarked then pure (.empty type)
    else failure
  | _ => if isMarked then pure (.empty type) else failure

/-- Reads a node, nested at most as deep as the bound. An anchor is known from the beginning of its
node on. -/
def node (handles : List (String × String)) : Nat → Place → Reader Node
  | 0, _ => failure
  | depth + 1, place => do
    if let some (.alias name) := ← peek then
      drop
      return .alias (← numberOf name)
    let (name, type) ← properties handles
    let content := content (node handles depth) (depth + 1) place (name.isSome || type.isSome) type
    match name with
    | none => content
    | some name =>
      let number ← introduce name
      pure (.anchored number (← content))

end Reader
end YamlFormat
end Settings
end GrammarBook
