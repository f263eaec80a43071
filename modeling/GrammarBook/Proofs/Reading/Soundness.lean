import GrammarBook.Proofs.Reading.Guided

namespace GrammarBook
namespace Reading

open Grammar

/-!
# What is found can be derived

A reader is honest about a form if it finds only what the tokens it takes stand for by some
derivation, and if it takes nothing where it sees that there is nothing. Once a production is
committed its reader finds something or rejects, so tokens are never lost between the two.
-/

/-- What comes of reading at a cursor is as the form says. -/
def IsHonest (form : Form) (committed : Bool) (cursor : Cursor) : Outcome form.Meaning → Prop
  | .found value rest =>
    ∃ derivation : Derivation form,
      derivation.meaning = value ∧ cursor.pending = derivation.tokens ++ rest.pending
  | .absent rest => committed = false ∧ rest.pending = cursor.pending
  | .rejected _ _ => True

/-- The reader is honest wherever it reads. -/
def Honest (form : Form) (committed : Bool) (reader : Reader form.Meaning) : Prop :=
  ∀ cursor, IsHonest form committed cursor (reader cursor)

/-! ## Tokens -/

/-- The next token is taken off, or reading is rejected. -/
theorem nextToken_cases (cursor : Cursor) :
    (∃ token rest, nextToken cursor = .found token rest ∧
      cursor.pending = token :: rest.pending) ∨
    ∃ cause rest, nextToken cursor = .rejected cause rest := by
  rcases cursor with ⟨held, ahead⟩
  unfold nextToken
  cases held with
  | cons token held => exact Or.inl ⟨token, ⟨held, ahead⟩, rfl, rfl⟩
  | nil =>
      cases ahead with
      | nil => exact Or.inr ⟨_, _, rfl⟩
      | cons token ahead =>
          by_cases error : token.kind = .error
          · exact Or.inr ⟨_, _, if_pos error⟩
          · exact Or.inl ⟨token, ⟨[], ahead⟩, if_neg error, rfl⟩

/-- A token is taken for its text where it is wanted, and not at all otherwise. -/
theorem tokenIf_cases (wanted : Token → Bool) (cursor : Cursor) :
    (∃ token rest, tokenIf wanted cursor = .found token.text rest ∧ wanted token = true ∧
      cursor.pending = token :: rest.pending) ∨
    (∃ rest, tokenIf wanted cursor = .absent rest ∧ rest.pending = cursor.pending) ∨
    ∃ cause rest, tokenIf wanted cursor = .rejected cause rest := by
  unfold tokenIf
  rcases nextToken_cases cursor with ⟨token, rest, taken, pending⟩ | ⟨cause, rest, stopped⟩
  · rw [taken]
    by_cases isWanted : wanted token = true
    · exact Or.inl ⟨token, rest, if_pos isWanted, isWanted, pending⟩
    · exact Or.inr (Or.inl ⟨_, if_neg isWanted, pending.symm⟩)
  · rw [stopped]
    exact Or.inr (Or.inr ⟨cause, rest, rfl⟩)

theorem honest_token (kind : Kind) : Honest (.token kind) false (token kind) := by
  intro cursor
  unfold token
  rcases tokenIf_cases _ cursor with ⟨leaf, rest, found, wanted, pending⟩ |
    ⟨rest, absent, pending⟩ | ⟨cause, rest, rejected⟩
  · rw [found]
    have fits : leaf.kind = kind := beq_iff_eq.mp wanted
    exact ⟨.token leaf fits, rfl, pending⟩
  · rw [absent]
    exact ⟨rfl, pending⟩
  · rw [rejected]
    exact True.intro

theorem honest_delimiter (text : String) : Honest (.mark text) false (delimiter text) := by
  intro cursor
  unfold delimiter
  rcases tokenIf_cases _ cursor with ⟨leaf, rest, found, wanted, pending⟩ |
    ⟨rest, absent, pending⟩ | ⟨cause, rest, rejected⟩
  · rw [found]
    rw [Bool.and_eq_true, beq_iff_eq, beq_iff_eq] at wanted
    exact ⟨.mark leaf wanted, rfl, pending⟩
  · rw [absent]
    exact ⟨rfl, pending⟩
  · rw [rejected]
    exact True.intro

theorem honest_bullet : Honest .bullet false bullet := by
  intro cursor
  unfold bullet
  rcases nextToken_cases cursor with ⟨newline, behind, taken, pending⟩ | ⟨cause, rest, stopped⟩
  · simp only [taken]
    by_cases ends : newline.kind = .newline
    · rw [if_pos ends]
      rcases nextToken_cases behind with ⟨dash, rest, taken, pending'⟩ | ⟨cause, rest, stopped⟩
      · simp only [taken]
        rw [pending'] at pending
        by_cases fits : dash.kind = .delimiter ∧ dash.text = "-"
        · rw [if_pos fits]
          exact ⟨.bullet newline dash ends fits, rfl, pending⟩
        · rw [if_neg fits]
          exact ⟨rfl, pending.symm⟩
      · simp only [stopped]
        exact True.intro
    · rw [if_neg ends]
      exact ⟨rfl, pending.symm⟩
  · simp only [stopped]
    exact True.intro

/-! ## Combinators -/

section Combinators

variable {form first rest left right : Form}

/-- Where a reader never sees that there is nothing, nothing has to be demanded. -/
theorem Honest.always {reader : Reader form.Meaning} (honest : Honest form true reader)
    (committed : Bool) : Honest form committed reader := by
  intro cursor
  have answer := honest cursor
  cases outcome : reader cursor with
  | rejected cause rest => exact True.intro
  | found value rest => rwa [outcome] at answer
  | absent rest =>
      rw [outcome] at answer
      cases answer.1

theorem honest_demand {reader : Reader form.Meaning} (honest : Honest form false reader)
    (production : Production) (committed : Bool) :
    Honest form committed (demand production committed reader) := by
  cases committed with
  | false => exact honest
  | true =>
      intro cursor
      have answer := honest cursor
      simp only [demand, if_true, Reader.required, Reader.orElse]
      cases outcome : reader cursor with
      | found value rest => rwa [outcome] at answer
      | rejected cause rest => exact True.intro
      | absent rest =>
          simp only [Reader.reject, Reader.andThen]
          rcases nextToken_cases rest with ⟨token, rest, taken, _⟩ | ⟨cause, rest, stopped⟩
          · simp only [taken]
            exact True.intro
          · simp only [stopped]
            exact True.intro

/-- Where no token was taken for what a derivation stands for, it has none. -/
theorem tokens_eq_nil_of_hasTaken {form : Form} (derivation : Derivation form)
    (taken : hasTaken form derivation.meaning = false) : derivation.tokens = [] := by
  induction derivation with
  | token | mark | bullet | part | several | present | more => cases taken
  | empty | absent | done => rfl
  | next front back ihFront ihBack =>
      obtain ⟨atFront, atBack⟩ := Bool.or_eq_false_iff.mp taken
      exact List.append_eq_nil_iff.mpr ⟨ihFront atFront, ihBack atBack⟩
  | left inner ih | right inner ih => exact ih taken

theorem honest_next {committed : Bool} {front : Reader first.Meaning}
    {back : first.Meaning → Reader rest.Meaning} (honestFront : Honest first committed front)
    (honestBack : ∀ found, Honest rest (committed || hasTaken first found) (back found)) :
    Honest (.next first rest) committed (do
      let found ← front
      let others ← back found
      pure (found, others)) := by
  intro cursor
  have answer := honestFront cursor
  simp only [bind, Reader.andThen]
  cases outcome : front cursor with
  | absent behind => rwa [outcome] at answer
  | rejected cause behind => exact True.intro
  | found value behind =>
      rw [outcome] at answer
      obtain ⟨begun, means, taken⟩ := answer
      have answer := honestBack value behind
      simp only
      cases outcome : back value behind with
      | rejected cause later => exact True.intro
      | absent later =>
          -- The second part is missing only where the first has taken nothing.
          rw [outcome] at answer
          obtain ⟨isFree, unmoved⟩ := answer
          obtain ⟨notCommitted, noneTaken⟩ := Bool.or_eq_false_iff.mp isFree
          rw [← means] at noneTaken
          rw [tokens_eq_nil_of_hasTaken begun noneTaken] at taken
          exact ⟨notCommitted, unmoved.trans taken.symm⟩
      | found others later =>
          rw [outcome] at answer
          obtain ⟨ended, means', taken'⟩ := answer
          refine ⟨.next begun ended, ?_, ?_⟩
          · rw [Derivation.meaning, means, means']
          · rw [taken, taken', Derivation.tokens, List.append_assoc]

theorem honest_either {one : Reader left.Meaning} {other : Reader right.Meaning}
    (honestLeft : Honest left false one) (honestRight : Honest right false other) :
    Honest (.either left right) false ((Sum.inl <$> one).orElse (Sum.inr <$> other)) := by
  intro cursor
  have answer := honestLeft cursor
  simp only [Functor.map, Reader.orElse, Reader.andThen]
  cases outcome : one cursor with
  | rejected cause behind => exact True.intro
  | found value behind =>
      rw [outcome] at answer
      obtain ⟨derivation, means, taken⟩ := answer
      exact ⟨.left derivation, congrArg Sum.inl means, taken⟩
  | absent behind =>
      rw [outcome] at answer
      obtain ⟨_, unmoved⟩ := answer
      have answer := honestRight behind
      simp only
      cases outcome : other behind with
      | rejected cause later => exact True.intro
      | absent later =>
          rw [outcome] at answer
          exact ⟨rfl, answer.2.trans unmoved⟩
      | found value later =>
          rw [outcome] at answer
          obtain ⟨derivation, means, taken⟩ := answer
          exact ⟨.right derivation, congrArg Sum.inr means, unmoved.symm.trans taken⟩

theorem honest_optional {reader : Reader form.Meaning} (honest : Honest form false reader) :
    Honest (.optional form) true reader.optional := by
  intro cursor
  have answer := honest cursor
  simp only [Reader.optional]
  cases outcome : reader cursor with
  | rejected cause behind => exact True.intro
  | absent behind =>
      rw [outcome] at answer
      exact ⟨.absent, rfl, answer.2.symm⟩
  | found value behind =>
      rw [outcome] at answer
      obtain ⟨derivation, means, taken⟩ := answer
      exact ⟨.present derivation, congrArg some means, taken⟩

theorem honest_rowUpTo {reader : Reader form.Meaning} (honest : Honest form false reader)
    (bound : Nat) : Honest (.many form) true (reader.rowUpTo bound) := by
  induction bound with
  | zero => exact fun _ => True.intro
  | succ bound ih =>
      intro cursor
      have answer := honest cursor
      simp only [Reader.rowUpTo]
      cases outcome : reader cursor with
      | rejected cause behind => exact True.intro
      | absent behind =>
          rw [outcome] at answer
          exact ⟨.done, rfl, answer.2.symm⟩
      | found value behind =>
          rw [outcome] at answer
          obtain ⟨begun, means, taken⟩ := answer
          have answer := ih behind
          simp only
          cases outcome : reader.rowUpTo bound behind with
          | rejected cause later => exact True.intro
          | absent later =>
              rw [outcome] at answer
              cases answer.1
          | found values later =>
              rw [outcome] at answer
              obtain ⟨ended, means', taken'⟩ := answer
              refine ⟨.more begun ended, ?_, ?_⟩
              · rw [Derivation.meaning, means, means']
              · rw [taken, taken', Derivation.tokens, List.append_assoc]

theorem honest_row {reader : Reader form.Meaning} (honest : Honest form false reader) :
    Honest (.many form) true reader.row :=
  fun cursor => honest_rowUpTo honest (cursor.pending.length + 1) cursor

theorem honest_row1 {reader : Reader form.Meaning} (honest : Honest form false reader) :
    Honest (.several form) false reader.row1 := by
  intro cursor
  have answer := honest cursor
  simp only [Reader.row1, bind, Reader.andThen]
  cases outcome : reader cursor with
  | rejected cause behind => exact True.intro
  | absent behind => rwa [outcome] at answer
  | found value behind =>
      rw [outcome] at answer
      obtain ⟨begun, means, taken⟩ := answer
      have answer := honest_row honest behind
      simp only
      cases outcome : reader.row behind with
      | rejected cause later => exact True.intro
      | absent later =>
          rw [outcome] at answer
          cases answer.1
      | found values later =>
          rw [outcome] at answer
          obtain ⟨ended, means', taken'⟩ := answer
          refine ⟨.several begun ended, ?_, ?_⟩
          · rw [Derivation.meaning, means, means']
          · rw [taken, taken', Derivation.tokens, List.append_assoc]

end Combinators

/-! ## Forms and productions -/

/-- The productions that a form names. -/
def parts : Form → List Production
  | .token _ | .mark _ | .bullet | .empty => []
  | .part production => [production]
  | .next left right | .either left right => parts left ++ parts right
  | .optional form | .many form | .several form => parts form

/-- Reading along a form is honest if the readers of its parts are. -/
theorem honest_read {readers : (part : Production) → Reader (Meaning part)}
    (production : Production) (form : Form)
    (honest : ∀ part ∈ parts form, Honest (.part part) false (readers part)) (committed : Bool) :
    Honest form committed (read readers production committed form) := by
  induction form generalizing committed with
  | token kind => exact honest_demand (honest_token kind) production committed
  | mark text => exact honest_demand (honest_delimiter text) production committed
  | bullet => exact honest_demand honest_bullet production committed
  | part part =>
      exact honest_demand (honest part (List.mem_singleton_self part)) production committed
  | empty => exact fun cursor => ⟨.empty, rfl, rfl⟩
  | next first rest ihFirst ihRest =>
      have honestFirst := ihFirst fun part member => honest part (List.mem_append_left _ member)
      have honestRest := ihRest fun part member => honest part (List.mem_append_right _ member)
      exact honest_next (honestFirst committed) fun found => honestRest _
  | either left right ihLeft ihRight =>
      have honestLeft := ihLeft fun part member => honest part (List.mem_append_left _ member)
      have honestRight := ihRight fun part member => honest part (List.mem_append_right _ member)
      exact honest_demand (honest_either (honestLeft false) (honestRight false)) production committed
  | optional form ih => exact (honest_optional (ih honest false)).always committed
  | many form ih => exact (honest_row (ih honest false)).always committed
  | several form ih => exact honest_demand (honest_row1 (ih honest false)) production committed

/-- What is built of something derivable is derivable as a part. -/
theorem honest_build {production : Production} {reader : Reader (form production).Meaning}
    (honest : Honest (form production) false reader) :
    Honest (.part production) false (build production <$> reader) := by
  intro cursor
  have answer := honest cursor
  simp only [Functor.map, Reader.andThen]
  cases outcome : reader cursor with
  | rejected cause rest => exact True.intro
  | absent rest => rwa [outcome] at answer
  | found value rest =>
      rw [outcome] at answer
      obtain ⟨derivation, means, taken⟩ := answer
      exact ⟨.part derivation, congrArg (build production) means, taken⟩

/-- How many productions there are one inside another, down to tokens. Terms in brackets and
patterns in groups are left out. -/
def rank : Production → Nat
  | .limit | .extent | .identifier | .notice | .group => 0
  | .constrained | .bounded | .line => 1
  | .cardinality | .character | .text | .multiline => 2
  | .reference | .filter | .bracket => 3
  | .element | .term => 4
  | .repetition | .inlined => 5
  | .sequence | .definition => 6
  | .alternative | .rule => 7
  | .pattern => 8
  | .expression => 9
  | .document => 10

theorem rank_lt_of_mem_parts {part production : Production}
    (member : part ∈ parts (form production)) :
    rank part < rank production ∨ part = .term ∧ production = .bracket ∨
      part = .pattern ∧ production = .group := by
  revert part
  cases production <;> decide

theorem isOutward_of_mem_parts {part production : Production}
    (member : part ∈ parts (form production)) (inward : isOutward production = false) :
    isOutward part = false := by
  revert part inward
  cases production <;> decide

/-! ## The readers of the productions -/

/-- The reader of the production at the level is honest. -/
def HonestAt (level : Level) (production : Production) : Prop :=
  Honest (.part production) false (reader level production)

/-- A reader is honest if the readers of its parts are. -/
theorem honestAt_of_parts {level : Level} {production : Production}
    (honest : ∀ cursor, ∀ part ∈ parts (form production),
      HonestAt (below level production cursor) part) :
    HonestAt level production := by
  intro cursor
  by_cases isDocument : production = .document
  · subst isDocument
    exact True.intro
  by_cases isOpen : isNested production = true → IsOpen level
  · rw [reader_eq level production isDocument isOpen]
    exact honest_build (honest_read production _ (honest cursor) false) cursor
  · -- Where terms and patterns cannot be read, their readers reject.
    obtain ⟨nested, closed⟩ := Classical.not_imp.mp isOpen
    rw [Classical.not_not.mp closed]
    cases production <;> first | exact True.intro | cases nested

/-- Where terms and patterns are honest, all productions are that do not look past the level. -/
theorem honestAt_of_level {level : Level} (honestTerm : HonestAt level .term)
    (honestPattern : HonestAt level .pattern) (production : Production)
    (inside : level = .outer ∨ isOutward production = false) : HonestAt level production := by
  induction ranked : rank production using Nat.strongRecOn generalizing production with
  | ind bound ih =>
      subst ranked
      cases nested : isNested production with
      | true => cases production <;> first | exact honestTerm | exact honestPattern | cases nested
      | false =>
          apply honestAt_of_parts
          intro cursor part member
          have sameLevel : below level production cursor = level := by
            rcases inside with outer | inward
            · rw [below, nested, outer]
              exact ite_self _
            · rw [below, nested, inward]
              rfl
          rw [sameLevel]
          have partInside : level = .outer ∨ isOutward part = false :=
            inside.imp_right (isOutward_of_mem_parts member)
          rcases rank_lt_of_mem_parts member with lower | ⟨part, _⟩ | ⟨part, _⟩
          · exact ih (rank part) lower part partInside rfl
          · exact part ▸ honestTerm
          · exact part ▸ honestPattern

/-- Terms and patterns down to any depth are honest. -/
theorem honestAt_inner (depth : Nat) :
    HonestAt (.inner depth) .term ∧ HonestAt (.inner depth) .pattern := by
  induction depth with
  | zero => exact ⟨fun _ => True.intro, fun _ => True.intro⟩
  | succ depth ih =>
      have honest := honestAt_of_level ih.1 ih.2
      constructor
      · exact honestAt_of_parts fun _ part member =>
          honest part (Or.inr (isOutward_of_mem_parts member rfl))
      · exact honestAt_of_parts fun _ part member =>
          honest part (Or.inr (isOutward_of_mem_parts member rfl))

/-- Every reader is honest. -/
theorem honestAt_outer (production : Production) : HonestAt .outer production :=
  honestAt_of_level (fun cursor => (honestAt_inner (cursor.pending.length + 1)).1 cursor)
    (fun cursor => (honestAt_inner (cursor.pending.length + 1)).2 cursor) production (Or.inl rfl)

/-- A document that is found is the document of a derivation of the tokens taken, with its
expressions in order. -/
theorem document_sound {cursor rest : Cursor} {found : Document}
    (reads : document cursor = .found found rest) :
    ∃ derivation : Derivation (form .document),
      found = inOrder (build .document derivation.meaning) ∧
        cursor.pending = derivation.tokens ++ rest.pending := by
  have answer := honest_read .document (form .document) (fun part _ => honestAt_outer part) true
    cursor
  rw [← read_form_document] at reads
  simp only [Functor.map, Reader.andThen] at reads
  cases outcome : read (reader .outer) .document true (form .document) cursor with
  | rejected cause behind =>
      rw [outcome] at reads
      cases reads
  | absent behind =>
      rw [outcome] at reads
      cases reads
  | found value behind =>
      rw [outcome] at answer reads
      obtain ⟨derivation, means, taken⟩ := answer
      cases reads
      exact ⟨derivation, by rw [means], taken⟩

end Reading
end GrammarBook
