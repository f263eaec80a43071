import GrammarBook.Analysis.Regex
import GrammarBook.Proofs.Regex.Expr
import GrammarBook.Proofs.Token.Exactness

namespace GrammarBook
namespace Regex

/-!
# How a regular expression is read

A regular expression is read sign by sign: the ends of groups, bars, quantifiers, and what matches a
single character. A quantifier binds to the single piece that was read last, which is a character, a
class or a group. Only what documents are compiled to can be read; other notations are refused, and
so are ranges and counts that decrease.
-/

/-! ## Signs -/

/-- What a regular expression is written with. -/
inductive Sign where
  | opened
  | closed
  | bar
  | one (set : CharClass)
  | quantifier (counts : Counts)
  deriving DecidableEq

/-- The category with a name of two letters. -/
def categoryOf? : List Char → Option Category
  | ['C', 'c'] => some .control
  | ['N', 'd'] => some .decimalNumber
  | ['L', 'l'] => some .lowercaseLetter
  | ['L', 'u'] => some .uppercaseLetter
  | _ => none

/-- What a backslash and a character stand for. -/
def escaped? (c : Char) : Option Member :=
  match c with
  | 'n' => some (.single '\n')
  | 'r' => some (.single '\r')
  | 't' => some (.single '\t')
  | 's' => some (.space true)
  | 'S' => some (.space false)
  | c => if c ∈ metacharacters then some (.single c) else none

/-- Reads what stands for one character, in a class or on its own. -/
def member? : List Char → Option (Member × List Char)
  | '\\' :: 'p' :: '\x7b' :: one :: other :: '\x7d' :: rest =>
    (categoryOf? [one, other]).map fun category => (.inCategory category, rest)
  | '\\' :: c :: rest => (escaped? c).map fun member => (member, rest)
  | c :: rest => if c ∈ metacharacters then none else some (.single c, rest)
  | [] => none

/-- Reads a member of a class; a dash behind it makes a range of it. -/
def rangeMember? (text : List Char) : Option (Member × List Char) :=
  match member? text with
  | some (.single low, '-' :: rest) =>
    match member? rest with
    | some (.single high, rest) => if low ≤ high then some (.range low high, rest) else none
    | _ => none
  | found => found

/-- Reads the members of a class up to its end. The number bounds them. -/
def members? : Nat → List Char → Option (List Member × List Char)
  | _, ']' :: rest => some ([], rest)
  | 0, _ => none
  | bound + 1, text => do
    let (member, rest) ← rangeMember? text
    let (others, rest) ← members? bound rest
    pure (member :: others, rest)

/-- Reads a class, which has a member at least. -/
def class? (isExcluded : Bool) (text : List Char) : Option (Sign × List Char) :=
  match members? text.length text with
  | some (member :: others, rest) => some (.one ⟨isExcluded, member :: others⟩, rest)
  | _ => none

/-- A quantifier, with the question mark that makes it a lazy one passed over. -/
def quantified (counts : Counts) : List Char → Sign × List Char
  | '?' :: rest => (.quantifier counts, rest)
  | rest => (.quantifier counts, rest)

/-- Reads counts behind their opening brace. -/
def counts? (text : List Char) : Option (Counts × List Char) :=
  match Kind.cutWhile Text.isDecimal text with
  | ([], _) => none
  | (minimum, '\x7d' :: rest) =>
    some (⟨Text.decimalValue minimum, some (Text.decimalValue minimum)⟩, rest)
  | (minimum, ',' :: text) =>
    match Kind.cutWhile Text.isDecimal text with
    | ([], '\x7d' :: rest) => some (⟨Text.decimalValue minimum, none⟩, rest)
    | (maximum, '\x7d' :: rest) =>
      if Text.decimalValue minimum ≤ Text.decimalValue maximum then
        some (⟨Text.decimalValue minimum, some (Text.decimalValue maximum)⟩, rest)
      else none
    | _ => none
  | _ => none

def sign? : List Char → Option (Sign × List Char)
  | '(' :: '?' :: ':' :: rest => some (.opened, rest)
  | ')' :: rest => some (.closed, rest)
  | '|' :: rest => some (.bar, rest)
  | '.' :: rest => some (.one ⟨true, [.single '\n']⟩, rest)
  | '[' :: '^' :: rest => class? true rest
  | '[' :: rest => class? false rest
  | '?' :: rest => some (quantified ⟨0, some 1⟩ rest)
  | '*' :: rest => some (quantified ⟨0, none⟩ rest)
  | '+' :: rest => some (quantified ⟨1, none⟩ rest)
  | '\x7b' :: rest => (counts? rest).map fun read => quantified read.1 read.2
  | text => (member? text).map fun read => (.one ⟨false, [read.1]⟩, read.2)

/-- Reads all signs. The number bounds them. -/
def signs? : Nat → List Char → Option (List Sign)
  | _, [] => some []
  | 0, _ :: _ => none
  | bound + 1, text => do
    let (sign, rest) ← sign? text
    let others ← signs? bound rest
    pure (sign :: others)

/-! ## Trees -/

/-- A group that is being read: the choices before its last bar, and the pieces behind that, the
last one first. -/
structure Frame where
  choices : Option Expr
  pieces : List Expr

namespace Frame

def new : Frame := ⟨none, []⟩

/-- The group, as far as it has been read. -/
def expr (frame : Frame) : Expr :=
  match frame.choices with
  | none => .row frame.pieces.reverse
  | some earlier => .choice earlier (.row frame.pieces.reverse)

def push (frame : Frame) (pieces : List Expr) : Frame :=
  { frame with pieces := pieces.reverse ++ frame.pieces }

end Frame

/-- The innermost group that is being read, with those around it. -/
structure Nesting where
  inner : Frame
  outer : List Frame

namespace Nesting

def step (nesting : Nesting) : Sign → Option Nesting
  | .opened => some ⟨.new, nesting.inner :: nesting.outer⟩
  | .closed =>
    match nesting.outer with
    | around :: outer => some ⟨around.push [nesting.inner.expr], outer⟩
    | [] => none
  | .bar => some ⟨⟨some nesting.inner.expr, []⟩, nesting.outer⟩
  | .one set => some ⟨nesting.inner.push [.one set], nesting.outer⟩
  | .quantifier counts =>
    match nesting.inner.pieces with
    | piece :: pieces =>
      some ⟨{ nesting.inner with pieces := .repeated counts piece :: pieces }, nesting.outer⟩
    | [] => none

/-- What has been read when nothing is left, if all groups are closed. -/
def finish? (nesting : Nesting) : Option Expr :=
  match nesting.outer with
  | [] => some nesting.inner.expr
  | _ :: _ => none

end Nesting

/-- The tree of a regular expression, if it can be read. -/
def read? (regex : String) : Option Expr := do
  let signs ← signs? regex.toList.length regex.toList
  let nesting ← signs.foldlM Nesting.step ⟨.new, []⟩
  nesting.finish?

/-! ## Reading sign by sign -/

/-- Reading the text on gives the tree. -/
inductive ReadsOn : Nesting → List Char → Expr → Prop
  | finish {nesting : Nesting} {expr : Expr} (finished : nesting.finish? = some expr) :
      ReadsOn nesting [] expr
  | sign {nesting following : Nesting} {front rest : List Char} {sign : Sign} {expr : Expr}
      (nonempty : front ≠ []) (read : sign? (front ++ rest) = some (sign, rest))
      (steps : nesting.step sign = some following) (later : ReadsOn following rest expr) :
      ReadsOn nesting (front ++ rest) expr

theorem ReadsOn.exists_signs {nesting : Nesting} {text : List Char} {expr : Expr}
    (reads : ReadsOn nesting text expr) (bound : Nat) (enough : text.length ≤ bound) :
    ∃ signs, signs? bound text = some signs ∧
      (signs.foldlM Nesting.step nesting).bind Nesting.finish? = some expr := by
  induction reads generalizing bound with
  | finish finished =>
      refine ⟨[], ?_, finished⟩
      cases bound <;> rfl
  | @sign nesting following front rest sign expr nonempty read steps later ih =>
      obtain ⟨c, tail, rfl⟩ := List.exists_cons_of_ne_nil nonempty
      cases bound with
      | zero => simp at enough
      | succ bound =>
          have shorter : rest.length ≤ bound := by
            simp only [List.cons_append, List.length_cons, List.length_append] at enough
            omega
          obtain ⟨signs, readOthers, folds⟩ := ih bound shorter
          refine ⟨sign :: signs, ?_, ?_⟩
          · rw [List.cons_append] at read ⊢
            rw [signs?, read]
            · simp [readOthers]
            · simp
          · rw [List.foldlM_cons, steps]
            exact folds

/-- What is read sign by sign is the tree of the regular expression. -/
theorem read?_of_readsOn {regex : String} {expr : Expr}
    (reads : ReadsOn ⟨.new, []⟩ regex.toList expr) : read? regex = some expr := by
  obtain ⟨signs, read, folds⟩ := reads.exists_signs _ (Nat.le_refl _)
  simp only [read?, read, Option.bind_eq_bind, Option.bind_some]
  exact folds

end Regex
end GrammarBook
