import GrammarBook.Settings.Yaml.Cursor
import GrammarBook.Text.Count
import GrammarBook.Text.Hexadecimal

namespace GrammarBook
namespace Settings
namespace YamlFormat

/-!
# Tags and directives of YAML texts

A tag names the type of a node. It is written in full, or as a handle with a suffix. Directives at
the beginning of a document state the version of YAML and what handles stand for.
-/

/-! ## Names of types -/

/-- A character that may stand in the name of a type. Some more may where its end is marked. -/
def isTagChar (isEnclosed : Bool) (c : Char) : Bool :=
  isNameChar c || ";/?:@&=+$.!~*'()%".toList.contains c ||
    (isEnclosed && (c == ',' || c == '[' || c == ']'))

/-- An octet that is written with a percent sign and two digits. -/
def octet? : List Char → Option (Nat × List Char)
  | '%' :: high :: low :: rest => do
    pure (16 * (← Text.hexDigit? high) + (← Text.hexDigit? low), rest)
  | _ => none

/-- The number of octets of a character with the given first one. -/
def octetCount? (first : Nat) : Option Nat :=
  if first < 0x80 then some 1
  else if first < 0xC0 then none
  else if first < 0xE0 then some 2
  else if first < 0xF0 then some 3
  else if first < 0xF8 then some 4
  else none

/-- The octets of a character behind its first one, as many as asked for. -/
def moreOctets? : Nat → List Char → Option (List Char × List Char)
  | 0, text => some ([], text)
  | count + 1, text => do
    let (octet, text) ← octet? text
    if octet / 64 ≠ 2 then none
    let (octets, text) ← moreOctets? count text
    pure (Char.ofNat octet :: octets, text)

/-- An escaped character. Each of its octets stands for itself, as the character of its number. -/
def octets? (text : List Char) : Option (List Char × List Char) := do
  let (first, text) ← octet? text
  let count ← octetCount? first
  let (others, text) ← moreOctets? (count - 1) text
  pure (Char.ofNat first :: others, text)

/-- The name of a type, or a part of one, with the rest. The bound is on its length. -/
def typeName? (isEnclosed : Bool) : Nat → List Char → Option (List Char × List Char)
  | 0, _ => none
  | _, [] => some ([], [])
  | bound + 1, c :: rest =>
    if !isTagChar isEnclosed c then some ([], c :: rest)
    else do
      let (front, rest) ← if c = '%' then octets? (c :: rest) else some ([c], rest)
      let (others, rest) ← typeName? isEnclosed bound rest
      pure (front ++ others, rest)

/-- What counts of a name: it ends before an octet of zero. -/
def cutName (name : List Char) : String := String.ofList (name.takeWhile (· ≠ Char.ofNat 0))

/-! ## Tags -/

/-- A tag as it is written. A tag in full has an empty handle. -/
structure Tag where
  handle : String
  suffix : String
  deriving DecidableEq, Repr

/-- A tag in full, behind its opening mark. -/
def enclosedTag? (text : List Char) : Option (Tag × List Char) := do
  match ← typeName? true (text.length + 1) text with
  | (name, '>' :: rest) => if name.isEmpty then none else some (⟨"", cutName name⟩, rest)
  | _ => none

/-- A tag with a handle, behind the exclamation mark of the handle. A handle has a second one behind
a name; one alone is a handle too, and without a suffix it is a tag in full. -/
def shortTag? (text : List Char) : Option (Tag × List Char) := do
  let (name, rest) := text.span isNameChar
  match rest with
  | '!' :: rest =>
    let (suffix, rest) ← typeName? false (rest.length + 1) rest
    if suffix.isEmpty then none
    else some (⟨"!" ++ String.ofList name ++ "!", cutName suffix⟩, rest)
  | rest =>
    let (suffix, rest) ← typeName? false (rest.length + 1) rest
    let suffix := cutName (name ++ suffix)
    pure (if suffix = "" then ⟨"", "!"⟩ else ⟨"!", suffix⟩, rest)

/-- A tag behind its exclamation mark. It is a word of its own; in brackets a comma may follow. -/
def tag? (inFlow : Bool) (cursor : Cursor) : Option (Tag × Cursor) := do
  let (tag, rest) ←
    match cursor.rest with
    | '<' :: rest => enclosedTag? rest
    | rest => shortTag? rest
  if endsWord rest ∨ (inFlow ∧ rest.head? = some ',') then some (tag, cursor.advanceTo rest)
  else none

/-! ## Directives -/

/-- A line before a document. -/
inductive Directive where
  | version (major minor : Nat)
  | handle (handle expansion : String)
  deriving DecidableEq, Repr

/-- A number of at most nine digits. -/
def versionNumber? (text : List Char) : Option (Nat × List Char) :=
  let (digits, rest) := text.span Text.isDecimal
  if digits.isEmpty ∨ 9 < digits.length then none else some (Text.decimalValue digits, rest)

/-- The version that a directive states. -/
def version? (text : List Char) : Option (Directive × List Char) := do
  match ← versionNumber? (text.dropWhile isBlank) with
  | (major, '.' :: rest) =>
    let (minor, rest) ← versionNumber? rest
    pure (.version major minor, rest)
  | _ => none

def handle? : List Char → Option (String × List Char)
  | '!' :: text =>
    let (name, rest) := text.span isNameChar
    match rest with
    | '!' :: rest => some ("!" ++ String.ofList name ++ "!", rest)
    | rest => if name.isEmpty then some ("!", rest) else none
  | _ => none

/-- The handle that a directive introduces, and what it stands for. -/
def handleDirective? (text : List Char) : Option (Directive × List Char) := do
  let (handle, rest) ← handle? (text.dropWhile isBlank)
  if !rest.head?.any isBlank then none
  let rest := rest.dropWhile isBlank
  let (expansion, rest) ← typeName? true (rest.length + 1) rest
  if expansion.isEmpty ∨ !endsWord rest then none
  pure (.handle handle (cutName expansion), rest)

/-- A directive behind its percent sign, with the place behind its line. -/
def directive? (cursor : Cursor) : Option (Directive × Cursor) := do
  let (name, rest) := cursor.rest.span isNameChar
  if !endsWord rest then none
  let (directive, rest) ←
    if name = "YAML".toList then version? rest
    else if name = "TAG".toList then handleDirective? rest
    else none
  pure (directive, ← (cursor.advanceTo rest).endLine?)

/-- What the handles stand for, given the directives of a document. The version has to be known, and
nothing is stated twice. Handles that YAML itself has may be given another meaning. -/
def handles? (directives : List Directive) : Option (List (String × String)) := do
  let versions := directives.filterMap fun
    | .version major minor => some (major, minor)
    | .handle _ _ => none
  let handles := directives.filterMap fun
    | .version _ _ => none
    | .handle handle expansion => some (handle, expansion)
  if 1 < versions.length ∨ versions.any (fun version => version ≠ (1, 1) ∧ version ≠ (1, 2)) then
    none
  if !decide (handles.map (·.1)).Nodup then none
  pure (handles ++ [("!", "!"), ("!!", "tag:yaml.org,2002:")])

def Tag.name? (handles : List (String × String)) (tag : Tag) : Option String :=
  if tag.handle = "" then some tag.suffix
  else (handles.find? (·.1 == tag.handle)).map fun handle => handle.2 ++ tag.suffix

end YamlFormat
end Settings
end GrammarBook
