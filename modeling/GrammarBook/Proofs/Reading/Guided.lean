import GrammarBook.Proofs.Grammar.Form
import GrammarBook.Reading.Productions

namespace GrammarBook
namespace Reading

open Grammar

/-!
# Reading along a form

Every reader of a production does the same thing: it goes along the form of the production and
demands whatever is missing once a token has been taken. `read` says this for any form, given how
the parts are read, and `reader_eq` that the readers of the productions do just that. What holds of
`read` therefore holds of all of them, and neither the soundness nor the completeness of reading has
to go through the productions one by one.

Terms and patterns contain themselves, and their readers are bounded in depth. So there is a reader
of each production at each level, and a bracket is read one level below its term.
-/

/-! ## Laws of readers -/

namespace Reader

variable {α β γ : Type}

instance : LawfulMonad Reader := by
  refine LawfulMonad.mk' Reader ?_ ?_ ?_
  · intro α reader
    funext cursor
    simp only [Functor.map, andThen]
    cases reader cursor <;> rfl
  · intro α β value next
    rfl
  · intro α β γ reader first second
    funext cursor
    simp only [bind, andThen]
    cases reader cursor <;> rfl

theorem map_orElse (make : α → β) (first second : Reader α) :
    make <$> first.orElse second = (make <$> first).orElse (make <$> second) := by
  funext cursor
  simp only [Functor.map, andThen, orElse]
  cases first cursor <;> rfl

theorem orElse_assoc (first second third : Reader α) :
    (first.orElse second).orElse third = first.orElse (second.orElse third) := by
  funext cursor
  simp only [orElse]
  cases first cursor <;> rfl

end Reader

/-! ## The guided reader -/

/-- A token was taken for what was found. -/
def hasTaken : (form : Form) → form.Meaning → Bool
  | .token _, _ | .mark _, _ | .bullet, _ | .part _, _ | .several _, _ => true
  | .empty, _ => false
  | .next first rest, (front, back) => hasTaken first front || hasTaken rest back
  | .either left _, .inl found => hasTaken left found
  | .either _ right, .inr found => hasTaken right found
  | .optional _, found => found.isSome
  | .many _, found => !found.isEmpty

/-- What is read has to be there where the production is committed. -/
def demand {α : Type} (production : Production) (committed : Bool) (reader : Reader α) :
    Reader α :=
  if committed then reader.required production else reader

/-- Reads along a form, with the given readers for its parts. A production is committed once it has
taken a token. -/
def read (parts : (part : Production) → Reader (Meaning part)) (production : Production) :
    (committed : Bool) → (form : Form) → Reader form.Meaning
  | committed, .token kind => demand production committed (token kind)
  | committed, .mark text => demand production committed (delimiter text)
  | committed, .bullet => demand production committed bullet
  | committed, .part part => demand production committed (parts part)
  | _, .empty => pure ()
  | committed, .next first rest => do
    let front ← read parts production committed first
    let back ← read parts production (committed || hasTaken first front) rest
    pure (front, back)
  | committed, .either left right =>
    demand production committed
      ((Sum.inl <$> read parts production false left).orElse
        (Sum.inr <$> read parts production false right))
  | _, .optional form => (read parts production false form).optional
  | _, .many form => (read parts production false form).row
  | committed, .several form => demand production committed (read parts production false form).row1

/-- Reads along a form and makes something of what is found. -/
def readAs {α : Type} (parts : (part : Production) → Reader (Meaning part))
    (production : Production) (committed : Bool) (form : Form) (make : form.Meaning → α) :
    Reader α :=
  make <$> read parts production committed form

section ReadAs

variable {α : Type} {parts : (part : Production) → Reader (Meaning part)}
  {production : Production} {committed : Bool}

/-- A row is read part after part. -/
theorem readAs_next {first rest : Form} {make : (Form.next first rest).Meaning → α}
    {front : Reader first.Meaning} {back : first.Meaning → Reader α}
    (sameFront : read parts production committed first = front)
    (sameBack : ∀ found,
      readAs parts production (committed || hasTaken first found) rest
        (fun others => make (found, others)) = back found) :
    readAs parts production committed (.next first rest) make = front >>= back := by
  rw [readAs, read, map_bind, sameFront]
  congr 1
  funext found
  rw [← sameBack found]
  exact map_bind (m := Reader) ..

/-- Of a choice the first way that finds something is read. -/
theorem readAs_either {left right : Form} {make : (Form.either left right).Meaning → α}
    {one other : Reader α}
    (sameLeft : readAs parts production false left (fun found => make (.inl found)) = one)
    (sameRight : readAs parts production false right (fun found => make (.inr found)) = other) :
    readAs parts production false (.either left right) make = one.orElse other := by
  rw [← sameLeft, ← sameRight]
  refine (Reader.map_orElse ..).trans ?_
  congr 1
  · exact (comp_map ..).symm
  · exact (comp_map ..).symm

end ReadAs

/-! ## The readers of the productions -/

/-- How deep terms and patterns may go: as deep as the source does, or down to a bound. -/
inductive Level where
  | outer
  | inner (depth : Nat)

def Level.term : Level → Reader Term
  | outer => Reading.term
  | inner depth => termWithin depth

def Level.pattern : Level → Reader Pattern
  | outer => Reading.pattern
  | inner depth => patternWithin depth

/-- The reader of a production. A document is no part of anything. -/
def reader (level : Level) : (production : Production) → Reader (Meaning production)
  | .document => Reader.bottom
  | .notice => token .comment
  | .rule => rule
  | .definition => definition
  | .multiline => line.row1
  | .line => line
  | .identifier => identifier
  | .inlined => inlined
  | .term => level.term
  | .reference => reference
  | .bracket => bracket level.term
  | .expression => expression
  | .pattern => level.pattern
  | .alternative => alternative level.pattern
  | .sequence => sequence level.pattern
  | .repetition => repetition level.pattern
  | .element => element level.pattern
  | .group => group level.pattern
  | .filter => filter
  | .character => character
  | .bounded => bounded
  | .extent => extent
  | .text => atom
  | .cardinality => cardinality
  | .constrained => constrained
  | .limit => limit

/-- A production that holds terms or patterns as deep as the source has them, at whatever level it is
read itself. -/
def isOutward : Production → Bool
  | .document | .rule | .definition | .inlined | .expression => true
  | _ => false

def isNested : Production → Bool
  | .term | .pattern => true
  | _ => false

/-- Terms and patterns can be read at the level at all. -/
def IsOpen (level : Level) : Prop := level ≠ .inner 0

/-- The level under a level. Where there is no bound, the pending tokens are one. -/
def Level.lower : Level → Cursor → Level
  | outer, cursor => inner cursor.pending.length
  | inner depth, _ => inner (depth - 1)

/-- The level at which the parts of a production are read. -/
def below (level : Level) (production : Production) (cursor : Cursor) : Level :=
  if isOutward production then .outer
  else if isNested production then level.lower cursor
  else level

/-! ## Readers and forms -/

/-- The readers of the productions that are not nested read along their forms. -/
theorem read_form (level : Level) (production : Production) (isPart : production ≠ .document)
    (notNested : isNested production = false) :
    build production <$>
        read (reader (if isOutward production then .outer else level)) production false
          (form production) =
      reader level production := by
  change readAs _ _ _ _ _ = _
  cases production
  case document | term | pattern => contradiction
  case notice | multiline => exact (readAs_next rfl fun _ => rfl).trans (bind_pure (m := Reader) _)
  case sequence => exact readAs_next rfl fun _ => rfl
  case extent | alternative =>
    refine readAs_next rfl fun _ => ?_
    exact (readAs_next rfl fun _ => rfl).trans (bind_pure (m := Reader) _)
  case inlined | reference | repetition | bounded | limit =>
    exact readAs_next rfl fun _ => readAs_next rfl fun _ => rfl
  case line | group =>
    exact readAs_next rfl fun _ => readAs_next rfl fun _ => readAs_next rfl fun _ => rfl
  case rule | bracket | constrained =>
    exact readAs_next rfl fun _ => readAs_next rfl fun _ => readAs_next rfl fun _ =>
      readAs_next rfl fun _ => rfl
  case expression =>
    exact readAs_next rfl fun _ => readAs_next rfl fun _ => readAs_next rfl fun _ =>
      readAs_next rfl fun _ => readAs_next rfl fun _ => rfl
  case filter =>
    refine readAs_next rfl fun excluded => ?_
    cases excluded
    all_goals
      exact readAs_next rfl fun _ => readAs_next rfl fun _ => readAs_next rfl fun _ => rfl
  case definition => exact readAs_either rfl (id_map _)
  case identifier | character | cardinality => exact readAs_either rfl rfl
  case element =>
    exact (readAs_either rfl (readAs_either rfl rfl)).trans (Reader.orElse_assoc ..).symm
  case text =>
    refine (readAs_either rfl (readAs_either rfl (readAs_either rfl rfl))).trans ?_
    exact ((Reader.orElse_assoc ..).trans (Reader.orElse_assoc ..)).symm

theorem read_form_term (depth : Nat) :
    build .term <$> read (reader (.inner depth)) .term false (form .term) =
      termWithin (depth + 1) :=
  (readAs_either rfl (readAs_either (id_map _) rfl)).trans (Reader.orElse_assoc ..).symm

theorem read_form_pattern (depth : Nat) :
    build .pattern <$> read (reader (.inner depth)) .pattern false (form .pattern) =
      patternWithin (depth + 1) :=
  readAs_next rfl fun _ => readAs_next rfl fun _ => rfl

/-- The readers of the productions read along their forms. -/
theorem reader_eq (level : Level) (production : Production) (isPart : production ≠ .document)
    (isOpen : isNested production = true → IsOpen level) (cursor : Cursor) :
    reader level production cursor =
      (build production <$>
        read (reader (below level production cursor)) production false (form production))
      cursor := by
  cases nested : isNested production with
  | false =>
      rw [← read_form level production isPart nested, below, nested]
      rfl
  | true =>
      have notOutward : isOutward production = false := by
        cases production <;> first | rfl | cases nested
      have fits := isOpen nested
      rw [below, notOutward, nested]
      cases level with
      | outer =>
          cases production <;> try cases nested
          · exact (congrFun (read_form_term cursor.pending.length) cursor).symm
          · exact (congrFun (read_form_pattern cursor.pending.length) cursor).symm
      | inner depth =>
          cases depth with
          | zero => exact absurd rfl fits
          | succ depth =>
              cases production <;> try cases nested
              · exact (congrFun (read_form_term depth) cursor).symm
              · exact (congrFun (read_form_pattern depth) cursor).symm

/-- The document with its expressions in the order of their names. -/
def inOrder (document : Document) : Document :=
  { document with expressions := sortExpressions document.expressions }

theorem read_form_document :
    (fun found => inOrder (build .document found)) <$>
        read (reader .outer) .document true (form .document) =
      document := by
  unfold document heading
  simp only [bind_assoc, pure_bind]
  exact readAs_next rfl fun _ => readAs_next rfl fun _ => readAs_next rfl fun _ =>
    readAs_next rfl fun _ => readAs_next rfl fun _ => readAs_next rfl fun _ =>
    readAs_next rfl fun _ => readAs_next rfl fun _ => readAs_next rfl fun _ => rfl

end Reading
end GrammarBook
