import GrammarBook.Settings.Yaml.Cursor
import GrammarBook.Text.Count
import GrammarBook.Text.Hexadecimal

namespace GrammarBook
namespace Settings
namespace YamlFormat

/-!
# Scalars of YAML texts

A scalar is plain, quoted or a block of lines. Single line ends inside plain and quoted scalars
count as blanks, and of several the first does not count. How a scalar is written matters for what
it may be read as.
-/

/-! ## Gaps between words -/

/-- Blanks and line ends between two words. -/
structure Gap where
  blanks : List Char := []
  breaks : List Char := []

/-- What a gap counts for. -/
def Gap.content (gap : Gap) : List Char :=
  match gap.breaks with
  | [] => gap.blanks
  | first :: others =>
    if first ≠ '\n' then first :: others else if others.isEmpty then [' '] else others

/-- The gap at a cursor, and the place behind it. Behind a line end, tabs before the margin are
refused. -/
def gap? (margin : Nat) (hasBreak : Bool) : Nat → Cursor → Option (Gap × Cursor)
  | 0, cursor => some ({}, cursor)
  | bound + 1, cursor =>
    match cursor.rest with
    | [] => some ({}, cursor)
    | c :: _ =>
      if isBlank c then do
        if hasBreak ∧ c = '\t' ∧ cursor.column < margin then none
        let (gap, last) ← gap? margin hasBreak bound (cursor.advance 1)
        pure (if hasBreak then gap else { gap with blanks := c :: gap.blanks }, last)
      else if isBreak c then do
        let (gap, last) ← gap? margin true bound cursor.nextLine
        pure ({ breaks := breakChar c :: gap.breaks }, last)
      else some ({}, cursor)

/-! ## Plain scalars -/

/-- A mark that ends a plain scalar inside brackets. -/
def isFlowMark (c : Char) : Bool :=
  c == ',' || c == '[' || c == ']' || c == '\x7b' || c == '\x7d'

/-- A word of a plain scalar, with the rest. A colon ends it if it ends a word itself. -/
def plainWord? (inFlow : Bool) : List Char → Option (List Char × List Char)
  | [] => some ([], [])
  | c :: rest =>
    if endsWord (c :: rest) then some ([], c :: rest)
    else if inFlow && c == ':' && rest.head?.any (fun c => isFlowMark c || c == '?') then none
    else if (c == ':' && endsWord rest) || (inFlow && isFlowMark c) then some ([], c :: rest)
    else do
      let (word, rest) ← plainWord? inFlow rest
      pure (c :: word, rest)

/-- A plain scalar of at most as many words as the bound, the place behind it and the blanks after
it, and whether a line has ended there. Outside brackets its further lines have to reach the
margin. -/
def plain? (inFlow : Bool) (margin : Nat) : Nat → Cursor → Option (List Char × Cursor × Bool)
  | 0, _ => none
  | bound + 1, cursor =>
    if cursor.atBoundary ∨ cursor.head? = some '#' then some ([], cursor, false)
    else do
      let (word, _) ← plainWord? inFlow cursor.rest
      if word.isEmpty then return ([], cursor, false)
      let (gap, next) ← gap? margin false (bound + 1) (cursor.advance word.length)
      let hasBreak := !gap.breaks.isEmpty
      if gap.blanks.isEmpty ∧ !hasBreak then return (word, next, false)
      if !inFlow ∧ next.column < margin then return (word, next, hasBreak)
      let (others, last, hasEnded) ← plain? inFlow margin bound next
      if others.isEmpty then return (word, last, hasBreak)
      return (word ++ gap.content ++ others, last, hasEnded)

/-- A plain scalar can start here. -/
def startsPlain (inFlow : Bool) : List Char → Bool
  | [] => false
  | c :: rest =>
    if c == '-' then !endsWord rest
    else if c == '?' || c == ':' then !inFlow && !endsWord rest
    else !endsWord (c :: rest) && !isFlowMark c && !"#&*!|>'\"%@`".toList.contains c

/-! ## Quoted scalars -/

/-- What an escape stands for, with the number of its characters behind the backslash. -/
def escape? : List Char → Option (Char × Nat)
  | [] => none
  | c :: rest =>
    if c = '0' then some (Char.ofNat 0, 1)
    else if c = 'a' then some (Char.ofNat 7, 1)
    else if c = 'b' then some (Char.ofNat 8, 1)
    else if c = 't' ∨ c = '\t' then some ('\t', 1)
    else if c = 'n' then some ('\n', 1)
    else if c = 'v' then some (Char.ofNat 11, 1)
    else if c = 'f' then some (Char.ofNat 12, 1)
    else if c = 'r' then some ('\r', 1)
    else if c = 'e' then some (Char.ofNat 27, 1)
    else if c = ' ' ∨ c = '"' ∨ c = '/' ∨ c = '\\' then some (c, 1)
    else if c = 'N' then some ('\u0085', 1)
    else if c = '_' then some ('\u00A0', 1)
    else if c = 'L' then some ('\u2028', 1)
    else if c = 'P' then some ('\u2029', 1)
    else if c = 'x' then (Text.hexChar? 2 rest).map fun read => (read.1, 3)
    else if c = 'u' then (Text.hexChar? 4 rest).map fun read => (read.1, 5)
    else if c = 'U' then (Text.hexChar? 8 rest).map fun read => (read.1, 9)
    else none

def prepend (front : List Char) (read : Option (List Char × Cursor)) :
    Option (List Char × Cursor) :=
  read.map fun (text, cursor) => (front ++ text, cursor)

/-- A quoted scalar behind its opening quote. The bound is on its length. -/
def quoted? (quote : Char) : Nat → Cursor → Option (List Char × Cursor)
  | 0, _ => none
  | bound + 1, cursor =>
    if cursor.atBoundary then none
    else
      match cursor.rest with
      | [] => none
      | c :: rest =>
        if c = quote then
          if quote = '\'' ∧ rest.head? = some '\'' then
            prepend ['\''] (quoted? quote bound (cursor.advance 2))
          else some ([], cursor.advance 1)
        else if c = '\\' ∧ quote = '"' then
          if rest.head?.any isBreak then do
            let (gap, next) ← gap? 0 true (rest.length + 1) (cursor.advance 1).nextLine
            prepend gap.breaks (quoted? quote bound next)
          else do
            let (c, length) ← escape? rest
            prepend [c] (quoted? quote bound (cursor.advance (length + 1)))
        else if isBlank c || isBreak c then do
          let (gap, next) ← gap? 0 false (rest.length + 2) cursor
          prepend gap.content (quoted? quote bound next)
        else prepend [c] (quoted? quote bound (cursor.advance 1))

/-! ## Blocks of lines -/

/-- What becomes of the line ends behind a block. -/
inductive Chomping where
  | clip
  | strip
  | keep
  deriving DecidableEq, Repr

/-- The mark for the line ends behind a block, if there is one. -/
def chomping? : List Char → Option (Chomping × List Char)
  | '-' :: rest => some (.strip, rest)
  | '+' :: rest => some (.keep, rest)
  | _ => none

/-- The width of a block's indentation, if it is given; it is not zero. -/
def width? : List Char → Option (Nat × List Char)
  | c :: rest =>
    if Text.isDecimal c ∧ c ≠ '0' then some (c.toNat - '0'.toNat, rest) else none
  | [] => none

/-- The marks of a block, in either order, with the rest. -/
def blockMarks (text : List Char) : Chomping × Option Nat × List Char :=
  match chomping? text with
  | some (chomping, rest) =>
    match width? rest with
    | some (width, rest) => (chomping, some width, rest)
    | none => (chomping, none, rest)
  | none =>
    match width? text with
    | some (width, rest) =>
      match chomping? rest with
      | some (chomping, rest) => (chomping, some width, rest)
      | none => (.clip, some width, rest)
    | none => (.clip, none, text)

/-- The empty lines at a cursor, the place behind them, and the widest indentation among them and
the line behind. An indentation of a known width ends there; tabs do not indent. -/
def emptyLines? (indent : Option Nat) : Nat → Nat → Cursor → Option (List Char × Nat × Cursor)
  | 0, _, _ => none
  | bound + 1, widest, cursor =>
    let blanks := (cursor.rest.takeWhile (· = ' ')).length
    let cursor := cursor.advance (indent.elim blanks (min blanks))
    let widest := max widest cursor.column
    match cursor.rest with
    | [] => some ([], widest, cursor)
    | c :: _ =>
      if c = '\t' ∧ indent.all (cursor.column < ·) then none
      else if isBreak c then do
        let (breaks, widest, last) ← emptyLines? indent bound widest cursor.nextLine
        pure (breakChar c :: breaks, widest, last)
      else some ([], widest, cursor)

/-- What stands between two lines of a block: a folded line end is a blank if no line is empty and
neither line starts with a blank. -/
def lineJoint (isFolded startsBlank : Bool) (previousBlank : Bool) (lineEnd breaks : List Char) :
    List Char :=
  if isFolded && lineEnd == ['\n'] && !previousBlank && !startsBlank then
    if breaks.isEmpty then [' '] else breaks
  else lineEnd ++ breaks

/-- The lines of a block from a cursor on, given what stands before them: whether the line before
started with a blank, its end, and the empty lines behind it. -/
def blockLines? (isFolded : Bool) (chomping : Chomping) (indent : Nat) :
    Nat → Bool → List Char → List Char → Cursor → Option (List Char × Cursor)
  | 0, _, _, _, _ => none
  | bound + 1, previousBlank, lineEnd, breaks, cursor =>
    if cursor.column ≠ indent ∨ cursor.rest.isEmpty then
      some (match chomping with
        | .strip => []
        | .clip => lineEnd
        | .keep => lineEnd ++ breaks, cursor)
    else do
      let startsBlank := cursor.head?.any isBlank
      let line := cursor.rest.takeWhile fun c => !isBreak c
      let stop := cursor.advance line.length
      let newEnd := (stop.head?.map breakChar).toList
      let next := if newEnd.isEmpty then stop else stop.nextLine
      let (newBreaks, _, next) ← emptyLines? (some indent) (next.rest.length + 1) 0 next
      prepend (lineJoint isFolded startsBlank previousBlank lineEnd breaks ++ line)
        (blockLines? isFolded chomping indent bound startsBlank newEnd newBreaks next)

/-- A block of lines behind its opening mark. Its lines have to reach the margin. -/
def block? (isFolded : Bool) (margin : Nat) (cursor : Cursor) : Option (List Char × Cursor) := do
  let (chomping, width, rest) := blockMarks cursor.rest
  let cursor ← (cursor.advanceTo rest).endLine?
  let indent := width.map (margin - 1 + ·)
  let (breaks, widest, cursor) ← emptyLines? indent (cursor.rest.length + 1) 0 cursor
  let indent := indent.getD (max widest (max margin 1))
  blockLines? isFolded chomping indent (cursor.rest.length + 1) false [] breaks cursor

end YamlFormat
end Settings
end GrammarBook
