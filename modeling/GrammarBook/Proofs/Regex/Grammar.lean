import GrammarBook.Proofs.Regex.Pieces

namespace GrammarBook
namespace Regex

/-!
# The grammar of regular expressions

A regular expression is a choice between rows, a row has pieces, and a piece is an atom that a
quantifier may follow, with one question mark at most behind the quantifier. Atoms are characters,
shorthands, classes and groups. No class stands in a class, and nothing is empty. Beside the text
stand the characters that are quoted in it: those that stand for themselves, in their order. Where
one of them has a meaning, a backslash precedes it. The text alone settles which ones these are.
-/

/-- The text quotes the character. -/
inductive Quotes : List Char → Char → Prop
  | plain {c : Char} (meaningless : c ∉ metacharacters) : Quotes [c] c
  | escaped {c : Char} (meaningful : c ∈ metacharacters) : Quotes ['\\', c] c

/-- What stands for one character or another by a backslash. -/
def shorthands : List (List Char) :=
  ["\\n", "\\r", "\\s", "\\S", "\\p\x7bCc\x7d", "\\p\x7bNd\x7d", "\\p\x7bLl\x7d",
    "\\p\x7bLu\x7d"].map String.toList

/-- The text is a member of a class. A range does not decrease. -/
inductive IsMember : List Char → List Char → Prop
  | single {text : List Char} {c : Char} (quotes : Quotes text c) : IsMember text [c]
  | range {front back : List Char} {low high : Char} (begins : Quotes front low)
      (ends : Quotes back high) (ascending : low ≤ high) :
      IsMember (front ++ '-' :: back) [low, high]
  | shorthand {text : List Char} (known : text ∈ shorthands) : IsMember text []

/-- The text is one member of a class after another. -/
inductive AreMembers : List Char → List Char → Prop
  | last {text quoted : List Char} (member : IsMember text quoted) : AreMembers text quoted
  | next {text quoted texts others : List Char} (member : IsMember text quoted)
      (later : AreMembers texts others) : AreMembers (text ++ texts) (quoted ++ others)

/-- The text is a number. -/
def IsCount (text : List Char) : Prop := text ≠ [] ∧ text.all Text.isDecimal = true

/-- The text is a quantifier. A maximum is not below its minimum. -/
inductive IsRepeat : List Char → Prop
  | optional : IsRepeat ['?']
  | any : IsRepeat ['*']
  | some : IsRepeat ['+']
  | exactly {count : List Char} (isCount : IsCount count) : IsRepeat ('\x7b' :: (count ++ ['\x7d']))
  | atLeast {minimum : List Char} (isCount : IsCount minimum) :
      IsRepeat ('\x7b' :: (minimum ++ [',', '\x7d']))
  | between {minimum maximum : List Char} (isMinimum : IsCount minimum) (isMaximum : IsCount maximum)
      (ascending : Text.decimalValue minimum ≤ Text.decimalValue maximum) :
      IsRepeat ('\x7b' :: (minimum ++ ',' :: (maximum ++ ['\x7d'])))

/-- The question mark that makes a quantifier a lazy one. -/
def lazyMark (isLazy : Bool) : List Char := if isLazy then ['?'] else []

/-- The kinds of texts that regular expressions are made of. -/
inductive Shape where
  | choice
  | row
  | piece
  | atom

/-- The text is a regular expression, or a part of one of the shape, in which the characters are
quoted. -/
inductive WellFormed : Shape → List Char → List Char → Prop
  | character {text : List Char} {c : Char} (quotes : Quotes text c) : WellFormed .atom text [c]
  | shorthand {text : List Char} (known : text ∈ shorthands) : WellFormed .atom text []
  | anyCharacter : WellFormed .atom ['.'] []
  | set {text quoted : List Char} (isExcluded : Bool) (members : AreMembers text quoted) :
      WellFormed .atom (classStart isExcluded ++ text ++ [']']) quoted
  | group {text quoted : List Char} (inner : WellFormed .choice text quoted) :
      WellFormed .atom (grouped text) quoted
  | once {text quoted : List Char} (atom : WellFormed .atom text quoted) :
      WellFormed .piece text quoted
  | repeated {text quoted quantifier : List Char} (atom : WellFormed .atom text quoted)
      (isRepeat : IsRepeat quantifier) (isLazy : Bool) :
      WellFormed .piece (text ++ (quantifier ++ lazyMark isLazy)) quoted
  | last {text quoted : List Char} (piece : WellFormed .piece text quoted) :
      WellFormed .row text quoted
  | next {text quoted texts others : List Char} (piece : WellFormed .piece text quoted)
      (later : WellFormed .row texts others) : WellFormed .row (text ++ texts) (quoted ++ others)
  | only {text quoted : List Char} (row : WellFormed .row text quoted) :
      WellFormed .choice text quoted
  | either {text quoted texts others : List Char} (row : WellFormed .row text quoted)
      (later : WellFormed .choice texts others) :
      WellFormed .choice (text ++ '|' :: texts) (quoted ++ others)

variable {text quoted texts others : List Char}

theorem quotes_escapeChar (c : Char) : Quotes (escapeChar c) c := by
  unfold escapeChar
  by_cases meaningful : c ∈ metacharacters
  · rw [if_pos meaningful]
    exact .escaped meaningful
  · rw [if_neg meaningful]
    exact .plain meaningful

theorem AreMembers.append (first : AreMembers text quoted) (later : AreMembers texts others) :
    AreMembers (text ++ texts) (quoted ++ others) := by
  induction first with
  | last member => exact .next member later
  | next member _ ih =>
      rw [List.append_assoc, List.append_assoc]
      exact .next member ih

theorem WellFormed.choice_of_atom (atom : WellFormed .atom text quoted) :
    WellFormed .choice text quoted :=
  .only (.last (.once atom))

/-- Rows one after another are a row. -/
theorem WellFormed.append (first : WellFormed .row text quoted)
    (later : WellFormed .row texts others) : WellFormed .row (text ++ texts) (quoted ++ others) := by
  -- The induction is over all shapes, of which only rows are left.
  generalize isRow : Shape.row = shape at first
  induction first with
  | last piece => exact .next piece later
  | next piece _ _ ih =>
      rw [List.append_assoc, List.append_assoc]
      exact .next piece (ih rfl)
  | _ => cases isRow

/-! ## Rows that a quantifier may follow -/

/-- The text is a row, and its last piece is an atom that nothing repeats. -/
inductive EndsInAtom : List Char → List Char → Prop
  | atom {text quoted : List Char} (atom : WellFormed .atom text quoted) : EndsInAtom text quoted
  | behind {text quoted texts others : List Char} (piece : WellFormed .piece text quoted)
      (later : EndsInAtom texts others) : EndsInAtom (text ++ texts) (quoted ++ others)

theorem EndsInAtom.row (ends : EndsInAtom text quoted) : WellFormed .row text quoted := by
  induction ends with
  | atom atom => exact .last (.once atom)
  | behind piece _ ih => exact .next piece ih

/-- A quantifier behind it repeats the atom. -/
theorem EndsInAtom.repeated {quantifier : List Char} (ends : EndsInAtom text quoted)
    (isRepeat : IsRepeat quantifier) (isLazy : Bool) :
    WellFormed .row (text ++ (quantifier ++ lazyMark isLazy)) quoted := by
  induction ends with
  | atom atom => exact .last (.repeated atom isRepeat isLazy)
  | behind piece _ ih =>
      rw [List.append_assoc]
      exact .next piece ih

/-- A text that stands for itself ends in the atom of its last character. -/
theorem endsInAtom_escape (nonempty : text ≠ []) : EndsInAtom (text.flatMap escapeChar) text := by
  induction text with
  | nil => exact absurd rfl nonempty
  | cons c text ih =>
      have character : WellFormed .atom (escapeChar c) [c] := .character (quotes_escapeChar c)
      cases text with
      | nil =>
          rw [List.flatMap_singleton]
          exact .atom character
      | cons next text =>
          rw [List.flatMap_cons]
          exact .behind (.once character) (ih (List.cons_ne_nil _ _))

/-- An optional carriage return and a line feed. -/
theorem endsInAtom_lineEnd : EndsInAtom (['\\', 'r'] ++ (['?'] ++ ['\\', 'n'])) [] := by
  have carriage : WellFormed .piece (['\\', 'r'] ++ (['?'] ++ lazyMark false)) [] :=
    .repeated (.shorthand (by decide)) .optional false
  exact .behind carriage (.atom (.shorthand (by decide)))

/-! ## What a text quotes -/

/-- Where one stands in a regular expression: at large, behind a backslash, in the opening of a group,
or in braces. -/
inductive Spot where
  | plain
  | escaped
  | opening
  | braces

def Spot.after : Spot → Char → Spot
  | plain, c =>
    if c = '\\' then escaped else if c = '(' then opening else if c = '\x7b' then braces else plain
  | escaped, c => if c = 'p' then braces else plain
  | opening, c => if c = ':' then plain else opening
  | braces, c => if c = '\x7d' then plain else braces

def Spot.quotes : Spot → Char → Bool
  | plain, c => c ∉ metacharacters
  | escaped, c => c ∈ metacharacters
  | opening, _ | braces, _ => false

/-- The characters that are quoted from a spot on. -/
def quotedFrom : Spot → List Char → List Char
  | _, [] => []
  | spot, c :: rest => (if spot.quotes c then [c] else []) ++ quotedFrom (spot.after c) rest

/-- At large the text quotes the characters and leaves one at large. -/
def QuotesAll (text quoted : List Char) : Prop :=
  ∀ rest, quotedFrom .plain (text ++ rest) = quoted ++ quotedFrom .plain rest

theorem QuotesAll.append (first : QuotesAll text quoted) (later : QuotesAll texts others) :
    QuotesAll (text ++ texts) (quoted ++ others) := by
  intro rest
  rw [List.append_assoc, first, later, List.append_assoc]

/-- A text of signs. -/
theorem QuotesAll.behind {signs : List Char} (silent : QuotesAll signs [])
    (later : QuotesAll text quoted) : QuotesAll (signs ++ text) quoted :=
  silent.append later

theorem QuotesAll.before {signs : List Char} (first : QuotesAll text quoted)
    (silent : QuotesAll signs []) : QuotesAll (text ++ signs) quoted := by
  have both := first.append silent
  rwa [List.append_nil] at both

theorem Quotes.quotesAll {c : Char} (quotes : Quotes text c) : QuotesAll text [c] := by
  intro rest
  cases quotes with
  | plain meaningless =>
      have apart : c ≠ '\\' ∧ c ≠ '(' ∧ c ≠ '\x7b' := by
        refine ⟨?_, ?_, ?_⟩
        all_goals
          rintro rfl
          exact meaningless (by decide)
      simp [quotedFrom, Spot.quotes, Spot.after, meaningless, apart]
  | escaped meaningful =>
      have notCategory : c ≠ 'p' := by
        rintro rfl
        exact absurd meaningful (by decide)
      have begins : quotedFrom .plain ('\\' :: c :: rest) = quotedFrom .escaped (c :: rest) := rfl
      rw [List.cons_append, List.singleton_append, begins]
      simp [quotedFrom, Spot.quotes, Spot.after, meaningful, notCategory]

theorem quotesAll_shorthand (known : text ∈ shorthands) : QuotesAll text [] := by
  intro rest
  simp only [shorthands, List.map_cons, List.map_nil, List.mem_cons, List.not_mem_nil,
    or_false] at known
  rcases known with rfl | rfl | rfl | rfl | rfl | rfl | rfl | rfl
  all_goals rfl

theorem IsMember.quotesAll (member : IsMember text quoted) : QuotesAll text quoted := by
  cases member with
  | single quotes => exact quotes.quotesAll
  | range begins ends _ =>
      have dash : QuotesAll ['-'] [] := fun _ => rfl
      exact begins.quotesAll.append (dash.behind ends.quotesAll)
  | shorthand known => exact quotesAll_shorthand known

theorem AreMembers.quotesAll (members : AreMembers text quoted) : QuotesAll text quoted := by
  induction members with
  | last member => exact member.quotesAll
  | next member _ ih => exact member.quotesAll.append ih

/-- Nothing is quoted in braces. -/
theorem quotesAll_braces (text : List Char) (closes : '\x7d' ∉ text) :
    QuotesAll ('\x7b' :: (text ++ ['\x7d'])) [] := by
  intro rest
  change quotedFrom .braces ((text ++ ['\x7d']) ++ rest) = quotedFrom .plain rest
  induction text with
  | nil => rfl
  | cons c text ih =>
      rw [List.mem_cons, not_or] at closes
      rw [← ih closes.2]
      simp [quotedFrom, Spot.quotes, Spot.after, Ne.symm closes.1]

theorem IsCount.not_mem (isCount : IsCount text) : '\x7d' ∉ text := by
  intro member
  have isDigit := List.all_eq_true.mp isCount.2 _ member
  exact absurd isDigit (by decide)

theorem IsRepeat.quotesAll (isRepeat : IsRepeat text) : QuotesAll text [] := by
  cases isRepeat with
  | optional | any | some => exact fun _ => rfl
  | exactly isCount => exact quotesAll_braces _ isCount.not_mem
  | @atLeast minimum isCount =>
      have braces := quotesAll_braces (minimum ++ [',']) (by simp [isCount.not_mem])
      rwa [List.append_assoc] at braces
  | @between minimum maximum isMinimum isMaximum _ =>
      have braces := quotesAll_braces (minimum ++ ',' :: maximum)
        (by simp [isMinimum.not_mem, isMaximum.not_mem])
      rwa [List.append_assoc] at braces

theorem quotesAll_classStart (isExcluded : Bool) : QuotesAll (classStart isExcluded) [] := by
  cases isExcluded with
  | true => exact fun _ => rfl
  | false => exact fun _ => rfl

theorem quotesAll_lazyMark (isLazy : Bool) : QuotesAll (lazyMark isLazy) [] := by
  cases isLazy with
  | true => exact fun _ => rfl
  | false => exact fun _ => rfl

/-- A regular expression quotes the characters that it is derived with. -/
theorem WellFormed.quotesAll {shape : Shape} (wellFormed : WellFormed shape text quoted) :
    QuotesAll text quoted := by
  induction wellFormed with
  | character quotes => exact quotes.quotesAll
  | shorthand known => exact quotesAll_shorthand known
  | anyCharacter => exact fun _ => rfl
  | set isExcluded members =>
      have closing : QuotesAll [']'] [] := fun _ => rfl
      exact ((quotesAll_classStart isExcluded).behind members.quotesAll).before closing
  | group _ ih =>
      have opening : QuotesAll groupStart.toList [] := fun _ => rfl
      have closing : QuotesAll [')'] [] := fun _ => rfl
      exact (opening.behind ih).before closing
  | once _ ih => exact ih
  | repeated _ isRepeat isLazy ih =>
      exact ih.before (isRepeat.quotesAll.behind (quotesAll_lazyMark isLazy))
  | last _ ih => exact ih
  | next _ _ first later => exact first.append later
  | only _ ih => exact ih
  | either _ _ first later =>
      have bar : QuotesAll ['|'] [] := fun _ => rfl
      exact first.append (bar.behind later)

/-- There is one list of characters that a regular expression quotes. -/
theorem WellFormed.quoted_eq {shape : Shape} (wellFormed : WellFormed shape text quoted) :
    quoted = quotedFrom .plain text := by
  have all := wellFormed.quotesAll []
  rw [List.append_nil, quotedFrom, List.append_nil] at all
  exact all.symm

end Regex
end GrammarBook
