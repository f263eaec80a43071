import GrammarBook.Proofs.Grammar.Lookahead
import GrammarBook.Proofs.Reading.Soundness

namespace GrammarBook
namespace Reading

open Grammar

/-!
# What can be derived is found

A reader finds a derivation wherever its tokens are next and nothing follows that the form is
guarded against. Two things have to be shown on the way. Where a choice is made, the readers that are
not meant must miss: take nothing, and see that there is nothing. And the bounds on rows and depth
must never be met, which holds because every further part takes a token.
-/

/-- The reader takes the tokens of the derivation for what they stand for. -/
def Finds (form : Form) (reader : Reader form.Meaning) (derivation : Derivation form) : Prop :=
  ∀ (cursor : Cursor) (rest : List Token), cursor.pending = derivation.tokens ++ rest →
    ahead rest ∉ form.guard →
      ∃ after, reader cursor = .found derivation.meaning after ∧ after.pending = rest

/-- What comes of reading where the form takes nothing. -/
def IsMiss (form : Form) (cursor : Cursor) : Outcome form.Meaning → Prop
  | .found value rest =>
    form.isNullable = true ∧ hasTaken form value = false ∧ rest.pending = cursor.pending
  | .absent rest => form.isNullable = false ∧ rest.pending = cursor.pending
  | .rejected _ _ => False

/-- The reader takes nothing where nothing is ahead that the form takes. -/
def Misses (form : Form) (reader : Reader form.Meaning) : Prop :=
  ∀ cursor : Cursor, ahead cursor.pending ≠ .unseen → ahead cursor.pending ∉ form.takes →
    IsMiss form cursor (reader cursor)

/-! ## Tokens -/

/-- Where anything is seen, a token is next that is not an illegal one. -/
theorem exists_of_ahead_ne {tokens : List Token} (seen : ahead tokens ≠ .unseen) :
    ∃ token rest, tokens = token :: rest ∧ token.kind ≠ .error := by
  cases tokens with
  | nil => exact absurd rfl seen
  | cons token rest =>
      refine ⟨token, rest, rfl, ?_⟩
      intro error
      apply seen
      rw [ahead, error]

theorem nextToken_of_pending {cursor : Cursor} {token : Token} {tokens : List Token}
    (pending : cursor.pending = token :: tokens) (notError : token.kind ≠ .error) :
    ∃ rest, nextToken cursor = .found token rest ∧ rest.pending = tokens := by
  rcases cursor with ⟨held, ahead⟩
  unfold nextToken
  cases held with
  | cons first held =>
      cases pending
      exact ⟨⟨held, ahead⟩, rfl, rfl⟩
  | nil =>
      cases ahead with
      | nil => cases pending
      | cons first ahead =>
          cases pending
          exact ⟨⟨[], tokens⟩, if_neg notError, rfl⟩

theorem tokenIf_found {wanted : Token → Bool} {cursor : Cursor} {token : Token}
    {tokens : List Token} (pending : cursor.pending = token :: tokens)
    (notError : token.kind ≠ .error) (isWanted : wanted token = true) :
    ∃ rest, tokenIf wanted cursor = .found token.text rest ∧ rest.pending = tokens := by
  obtain ⟨rest, taken, behind⟩ := nextToken_of_pending pending notError
  refine ⟨rest, ?_, behind⟩
  rw [tokenIf, taken]
  exact if_pos isWanted

theorem tokenIf_absent (wanted : Token → Bool) {cursor : Cursor} {token : Token}
    {tokens : List Token} (pending : cursor.pending = token :: tokens)
    (notError : token.kind ≠ .error) (notWanted : wanted token ≠ true) :
    ∃ rest, tokenIf wanted cursor = .absent rest ∧ rest.pending = cursor.pending := by
  obtain ⟨rest, taken, behind⟩ := nextToken_of_pending pending notError
  refine ⟨rest.handBack token, ?_, ?_⟩
  · rw [tokenIf, taken]
    exact if_neg notWanted
  · rw [Cursor.pending_handBack, behind, pending]

/-- At a newline nothing else is seen than a newline or the dash behind it. -/
theorem ahead_newline_cases {newline : Token} {tokens : List Token}
    (ends : newline.kind = .newline) (seen : ahead (newline :: tokens) ≠ .unseen) :
    ahead (newline :: tokens) = .bullet ∨ ahead (newline :: tokens) = .kind .newline := by
  rw [ahead, ends] at seen ⊢
  cases tokens with
  | nil => exact absurd rfl seen
  | cons next tokens =>
      simp only [atNewline] at seen ⊢
      by_cases error : next.kind = .error
      · exact absurd (if_pos error) seen
      · rw [if_neg error]
        by_cases dash : IsMark "-" next
        · exact Or.inl (if_pos dash)
        · exact Or.inr (if_neg dash)

theorem misses_token {kind : Kind} (clear : (Form.token kind).isClear = true) :
    Misses (.token kind) (token kind) := by
  intro cursor seen notTaken
  obtain ⟨leaf, tokens, pending, notError⟩ := exists_of_ahead_ne seen
  rw [Form.isClear, Bool.and_eq_true, bne_iff_ne, bne_iff_ne] at clear
  have notWanted : (leaf.kind == kind) ≠ true := by
    intro same
    apply notTaken
    rw [beq_iff_eq] at same
    subst same
    rw [pending] at seen ⊢
    by_cases newline : leaf.kind = .newline
    · rw [newline]
      rcases ahead_newline_cases newline seen with bullet | plain
      · rw [bullet]
        decide
      · rw [plain]
        decide
    · rw [ahead_of_kind clear.1 clear.2 newline]
      exact List.mem_append_left _ (List.mem_singleton_self _)
  obtain ⟨rest, absent, unmoved⟩ := tokenIf_absent (·.kind == kind) pending notError notWanted
  rw [token, absent]
  exact ⟨rfl, unmoved⟩

theorem misses_delimiter (text : String) : Misses (.mark text) (delimiter text) := by
  intro cursor seen notTaken
  obtain ⟨leaf, tokens, pending, notError⟩ := exists_of_ahead_ne seen
  have notWanted : (leaf.kind == .delimiter && leaf.text == text) ≠ true := by
    intro fits
    rw [Bool.and_eq_true, beq_iff_eq, beq_iff_eq] at fits
    apply notTaken
    rw [pending, ahead_of_isMark fits]
    exact List.mem_append_left _ (List.mem_singleton_self _)
  obtain ⟨rest, absent, unmoved⟩ :=
    tokenIf_absent (fun leaf => leaf.kind == .delimiter && leaf.text == text) pending notError
      notWanted
  rw [delimiter, absent]
  exact ⟨rfl, unmoved⟩

theorem misses_bullet : Misses .bullet bullet := by
  intro cursor seen notTaken
  obtain ⟨newline, tokens, pending, notError⟩ := exists_of_ahead_ne seen
  obtain ⟨behind, taken, later⟩ := nextToken_of_pending pending notError
  simp only [bullet, taken]
  by_cases ends : newline.kind = .newline
  · rw [if_pos ends]
    rw [pending, ahead, ends] at seen notTaken
    cases tokens with
    | nil => exact absurd rfl seen
    | cons dash tokens =>
        have notError' : dash.kind ≠ .error := by
          intro error
          exact seen (if_pos error)
        have notDash : ¬ IsMark "-" dash := by
          intro fits
          apply notTaken
          simp [atNewline, fits, fits.1, Form.takes, Form.first]
        obtain ⟨rest, taken', later'⟩ := nextToken_of_pending later notError'
        simp only [taken', if_neg (show ¬ (dash.kind = .delimiter ∧ dash.text = "-") from notDash)]
        refine ⟨rfl, ?_⟩
        rw [Cursor.pending_handBack, Cursor.pending_handBack, later', pending]
  · rw [if_neg ends]
    exact ⟨rfl, by rw [Cursor.pending_handBack, later, pending]⟩

/-! ## Missing along a form -/

/-- The productions that a form may begin with. -/
def leads : Form → List Production
  | .token _ | .mark _ | .bullet | .empty => []
  | .part production => [production]
  | .next first rest => leads first ++ if first.isNullable then leads rest else []
  | .either left right => leads left ++ leads right
  | .optional form | .many form | .several form => leads form

section Misses

variable {form first rest left right : Form}

/-- What begins as a part of a form does is taken as the form is. -/
theorem takes_subset (begins : left.first ⊆ right.first) : left.takes ⊆ right.takes := by
  intro sight member
  rcases List.mem_append.mp member with inFirst | newline
  · exact List.mem_append_left _ (begins inFirst)
  · by_cases takesNewline : .kind .newline ∈ left.first
    · rw [if_pos takesNewline] at newline
      apply List.mem_append_right
      rw [if_pos (begins takesNewline)]
      exact newline
    · rw [if_neg takesNewline] at newline
      cases newline

theorem Misses.absent {reader : Reader form.Meaning} (misses : Misses form reader)
    (full : form.isNullable = false) {cursor : Cursor} (seen : ahead cursor.pending ≠ .unseen)
    (notTaken : ahead cursor.pending ∉ form.takes) :
    ∃ rest, reader cursor = .absent rest ∧ rest.pending = cursor.pending := by
  have answer := misses cursor seen notTaken
  cases outcome : reader cursor with
  | found value rest =>
      rw [outcome, IsMiss, full] at answer
      cases answer.1
  | absent rest =>
      rw [outcome] at answer
      exact ⟨rest, rfl, answer.2⟩
  | rejected cause rest =>
      rw [outcome] at answer
      cases answer

theorem misses_next {front : Reader first.Meaning} {back : first.Meaning → Reader rest.Meaning}
    (missesFront : Misses first front)
    (missesBack : ∀ found, first.isNullable = true → hasTaken first found = false →
      Misses rest (back found)) :
    Misses (.next first rest) (do
      let found ← front
      let others ← back found
      pure (found, others)) := by
  intro cursor seen notTaken
  have frontNotTaken := fun member =>
    notTaken (takes_subset (List.subset_append_left ..) member)
  have answer := missesFront cursor seen frontNotTaken
  simp only [bind, Reader.andThen]
  cases outcome : front cursor with
  | rejected cause behind =>
      rw [outcome] at answer
      cases answer
  | absent behind =>
      rw [outcome] at answer
      exact ⟨Bool.and_eq_false_iff.mpr (Or.inl answer.1), answer.2⟩
  | found value behind =>
      rw [outcome] at answer
      obtain ⟨nullable, noneTaken, unmoved⟩ := answer
      have firstSubset : rest.first ⊆ (Form.next first rest).first := by
        rw [Form.first, if_pos nullable]
        exact List.subset_append_right ..
      have backNotTaken := fun member => notTaken (takes_subset firstSubset member)
      rw [← unmoved] at seen backNotTaken
      have answer := missesBack value nullable noneTaken behind seen backNotTaken
      simp only
      cases outcome : back value behind with
      | rejected cause later =>
          rw [outcome] at answer
          cases answer
      | absent later =>
          rw [outcome] at answer
          exact ⟨Bool.and_eq_false_iff.mpr (Or.inr answer.1), answer.2.trans unmoved⟩
      | found others later =>
          rw [outcome] at answer
          exact ⟨Bool.and_eq_true_iff.mpr ⟨nullable, answer.1⟩,
            Bool.or_eq_false_iff.mpr ⟨noneTaken, answer.2.1⟩, answer.2.2.trans unmoved⟩

theorem misses_either {one : Reader left.Meaning} {other : Reader right.Meaning}
    (missesLeft : Misses left one) (fullLeft : left.isNullable = false)
    (missesRight : Misses right other) (fullRight : right.isNullable = false) :
    Misses (.either left right) ((Sum.inl <$> one).orElse (Sum.inr <$> other)) := by
  intro cursor seen notTaken
  obtain ⟨behind, absent, unmoved⟩ := missesLeft.absent fullLeft seen fun member =>
    notTaken (takes_subset (List.subset_append_left ..) member)
  have notTakenRight : ahead behind.pending ∉ right.takes := by
    rw [unmoved]
    exact fun member => notTaken (takes_subset (List.subset_append_right ..) member)
  rw [← unmoved] at seen
  obtain ⟨later, absent', unmoved'⟩ := missesRight.absent fullRight seen notTakenRight
  simp only [Functor.map, Reader.orElse, Reader.andThen, absent, absent']
  exact ⟨Bool.or_eq_false_iff.mpr ⟨fullLeft, fullRight⟩, unmoved'.trans unmoved⟩

theorem misses_optional {reader : Reader form.Meaning} (misses : Misses form reader)
    (full : form.isNullable = false) : Misses (.optional form) reader.optional := by
  intro cursor seen notTaken
  obtain ⟨behind, absent, unmoved⟩ := misses.absent full seen notTaken
  simp only [Reader.optional, absent]
  exact ⟨rfl, rfl, unmoved⟩

theorem misses_row {reader : Reader form.Meaning} (misses : Misses form reader)
    (full : form.isNullable = false) : Misses (.many form) reader.row := by
  intro cursor seen notTaken
  obtain ⟨behind, absent, unmoved⟩ := misses.absent full seen notTaken
  simp only [Reader.row, Reader.rowUpTo, absent]
  exact ⟨rfl, rfl, unmoved⟩

theorem misses_row1 {reader : Reader form.Meaning} (misses : Misses form reader)
    (full : form.isNullable = false) : Misses (.several form) reader.row1 := by
  intro cursor seen notTaken
  obtain ⟨behind, absent, unmoved⟩ := misses.absent full seen notTaken
  simp only [Reader.row1, bind, Reader.andThen, absent]
  exact ⟨full, unmoved⟩

end Misses

/-- Reading along a form misses if the readers of what it may begin with do. -/
theorem misses_read {readers : (part : Production) → Reader (Meaning part)}
    (production : Production) (form : Form) (clear : form.isClear = true)
    (misses : ∀ part ∈ leads form, Misses (.part part) (readers part)) :
    Misses form (read readers production false form) := by
  induction form with
  | token kind => exact misses_token clear
  | mark text => exact misses_delimiter text
  | bullet => exact misses_bullet
  | part part => exact misses part (List.mem_singleton_self part)
  | empty => exact fun _ _ _ => ⟨rfl, rfl, rfl⟩
  | next first rest ihFirst ihRest =>
      simp only [Form.isClear, Bool.and_eq_true] at clear
      apply misses_next
      · exact ihFirst clear.1.1 fun part member => misses part (List.mem_append_left _ member)
      · intro found nullable noneTaken
        rw [noneTaken]
        apply ihRest clear.1.2
        intro part member
        apply misses part
        rw [leads, if_pos nullable]
        exact List.mem_append_right _ member
  | either left right ihLeft ihRight =>
      simp only [Form.isClear, Bool.and_eq_true, Bool.not_eq_true'] at clear
      obtain ⟨⟨⟨⟨clearLeft, clearRight⟩, fullLeft⟩, fullRight⟩, _⟩ := clear
      exact misses_either
        (ihLeft clearLeft fun part member => misses part (List.mem_append_left _ member)) fullLeft
        (ihRight clearRight fun part member => misses part (List.mem_append_right _ member))
        fullRight
  | optional form ih =>
      simp only [Form.isClear, Bool.and_eq_true, Bool.not_eq_true'] at clear
      exact misses_optional (ih clear.1 misses) clear.2
  | many form ih =>
      simp only [Form.isClear, Bool.and_eq_true, Bool.not_eq_true'] at clear
      exact misses_row (ih clear.1.1 misses) clear.1.2
  | several form ih =>
      simp only [Form.isClear, Bool.and_eq_true, Bool.not_eq_true'] at clear
      exact misses_row1 (ih clear.1.1 misses) clear.1.2

theorem misses_build {production : Production} {reader : Reader (form production).Meaning}
    (misses : Misses (form production) reader) :
    Misses (.part production) (build production <$> reader) := by
  intro cursor seen notTaken
  obtain ⟨rest, absent, unmoved⟩ := misses.absent (isNullable_form production) seen fun member =>
    notTaken (takes_subset (first_form_subset production) member)
  simp only [Functor.map, Reader.andThen, absent]
  exact ⟨rfl, unmoved⟩

theorem ne_document_of_leads {form : Form} (clear : form.isClear = true) {part : Production}
    (member : part ∈ leads form) : part ≠ .document := by
  induction form with
  | token | mark | bullet | empty => cases member
  | part production =>
      rw [List.mem_singleton.mp member]
      exact bne_iff_ne.mp clear
  | next first rest ihFirst ihRest =>
      simp only [Form.isClear, Bool.and_eq_true] at clear
      rcases List.mem_append.mp member with atFront | atBack
      · exact ihFirst clear.1.1 atFront
      · split at atBack
        · exact ihRest clear.1.2 atBack
        · cases atBack
  | either left right ihLeft ihRight =>
      simp only [Form.isClear, Bool.and_eq_true] at clear
      rcases List.mem_append.mp member with atLeft | atRight
      · exact ihLeft clear.1.1.1.1 atLeft
      · exact ihRight clear.1.1.1.2 atRight
  | optional form ih =>
      simp only [Form.isClear, Bool.and_eq_true] at clear
      exact ih clear.1 member
  | many form ih | several form ih =>
      simp only [Form.isClear, Bool.and_eq_true] at clear
      exact ih clear.1.1 member

/-- What a production may begin with is further down, and only outward productions begin with a term
or a pattern. -/
theorem leads_form {part production : Production} (member : part ∈ leads (form production)) :
    rank part < rank production ∧ (isNested part = true → isOutward production = true) := by
  revert part
  cases production <;> decide

/-- The readers of the productions miss. -/
theorem misses_reader (level : Level) (production : Production) (isPart : production ≠ .document)
    (isOpen : isNested production = true → IsOpen level) :
    Misses (.part production) (reader level production) := by
  induction ranked : rank production using Nat.strongRecOn generalizing level production with
  | ind bound ih =>
      subst ranked
      intro cursor
      rw [reader_eq level production isPart isOpen]
      have clear := isClear_form production
      refine misses_build (misses_read production _ clear ?_) cursor
      intro part member
      obtain ⟨lower, outward⟩ := leads_form member
      apply ih (rank part) lower _ part (ne_document_of_leads clear member) _ rfl
      intro nested
      rw [below, outward nested]
      intro closed
      cases closed

theorem misses_form {level : Level} (isOpen : IsOpen level) (production : Production) {form : Form}
    (clear : form.isClear = true) : Misses form (read (reader level) production false form) :=
  misses_read production form clear fun part member =>
    misses_reader level part (ne_document_of_leads clear member) fun _ => isOpen

/-! ## The depth of derivations -/

/-- How many terms and patterns there are one inside another. -/
def depth {form : Form} : Derivation form → Nat
  | .token .. | .mark .. | .bullet .. | .empty | .absent | .done => 0
  | @Derivation.part production inner => depth inner + if isNested production then 1 else 0
  | .left inner | .right inner | .present inner => depth inner
  | .next front back => max (depth front) (depth back)
  | .more first others | .several first others => max (depth first) (depth others)

/-- Every term and pattern in the form comes with a token of its own, and there is one more. -/
def isShallow : Form → Bool
  | .token _ | .mark _ | .bullet => true
  | .part .definition | .part .inlined | .part .term | .part .pattern => false
  | .part _ => true
  | .next first rest => isShallow first || isShallow rest
  | .either left right => isShallow left && isShallow right
  | .empty | .optional _ | .many _ => false
  | .several form => isShallow form

theorem isShallow_form {production : Production}
    (shallow : isShallow (.part production) = true ∨ isNested production = true) :
    isShallow (form production) = true := by
  revert shallow
  cases production <;> decide

/-- A derivation is not deeper than it has tokens. -/
theorem depth_le {form : Form} (derivation : Derivation form) :
    depth derivation ≤ derivation.tokens.length ∧
      (isShallow form = true → depth derivation < derivation.tokens.length) := by
  induction derivation with
  | token | mark | bullet => exact ⟨Nat.zero_le _, fun _ => Nat.zero_lt_succ _⟩
  | empty | absent | done => exact ⟨Nat.zero_le _, nofun⟩
  | @part production inner ih =>
      rw [depth, Derivation.tokens]
      cases nested : isNested production with
      | true =>
          have deeper := ih.2 (isShallow_form (Or.inr nested))
          exact ⟨deeper, fun shallow => by cases production <;> cases nested <;> cases shallow⟩
      | false => exact ⟨ih.1, fun shallow => ih.2 (isShallow_form (Or.inl shallow))⟩
  | next front back ihFront ihBack =>
      simp only [depth, Derivation.tokens, List.length_append, isShallow, Bool.or_eq_true]
      refine ⟨by omega, ?_⟩
      rintro (atFront | atBack)
      · have := ihFront.2 atFront
        omega
      · have := ihBack.2 atBack
        omega
  | left inner ih => exact ⟨ih.1, fun shallow => ih.2 (Bool.and_eq_true_iff.mp shallow).1⟩
  | right inner ih => exact ⟨ih.1, fun shallow => ih.2 (Bool.and_eq_true_iff.mp shallow).2⟩
  | present inner ih => exact ⟨ih.1, nofun⟩
  | more first others ihFirst ihOthers =>
      simp only [depth, Derivation.tokens, List.length_append]
      exact ⟨by omega, nofun⟩
  | several first others ihFirst ihOthers =>
      simp only [depth, Derivation.tokens, List.length_append]
      refine ⟨by omega, fun shallow => ?_⟩
      have := ihFirst.2 shallow
      omega

/-! ## Finding along a form -/

theorem finds_token {kind : Kind} (leaf : Token) (fits : leaf.kind = kind)
    (clear : (Form.token kind).isClear = true) :
    Finds (.token kind) (token kind) (.token leaf fits) := by
  intro cursor rest pending _
  rw [Form.isClear, Bool.and_eq_true, bne_iff_ne, bne_iff_ne] at clear
  have wanted : (leaf.kind == kind) = true := beq_iff_eq.mpr fits
  exact tokenIf_found pending (fits ▸ clear.1) wanted

theorem finds_delimiter {text : String} (leaf : Token) (fits : IsMark text leaf) :
    Finds (.mark text) (delimiter text) (.mark leaf fits) := by
  intro cursor rest pending _
  have notError : leaf.kind ≠ .error := by
    rw [fits.1]
    decide
  have wanted : (leaf.kind == .delimiter && leaf.text == text) = true := by
    rw [Bool.and_eq_true, beq_iff_eq, beq_iff_eq]
    exact fits
  exact tokenIf_found pending notError wanted

theorem finds_bullet (newline dash : Token) (ends : newline.kind = .newline)
    (fits : IsMark "-" dash) : Finds .bullet bullet (.bullet newline dash ends fits) := by
  intro cursor rest pending _
  obtain ⟨behind, taken, later⟩ := nextToken_of_pending pending (by rw [ends]; decide)
  obtain ⟨after, taken', later'⟩ := nextToken_of_pending later (by rw [fits.1]; decide)
  refine ⟨after, ?_, later'⟩
  simp only [bullet, taken, if_pos ends, taken',
    if_pos (show dash.kind = .delimiter ∧ dash.text = "-" from fits)]
  rfl

section Finds

variable {form first rest left right : Form}

theorem finds_demand {reader : Reader form.Meaning} {derivation : Derivation form}
    (finds : Finds form reader derivation) (production : Production) (committed : Bool) :
    Finds form (demand production committed reader) derivation := by
  cases committed with
  | false => exact finds
  | true =>
      intro cursor rest pending safe
      obtain ⟨after, found, behind⟩ := finds cursor rest pending safe
      refine ⟨after, ?_, behind⟩
      simp only [demand, if_true, Reader.required, Reader.orElse, found]

theorem finds_next {front : Reader first.Meaning} {back : first.Meaning → Reader rest.Meaning}
    {begun : Derivation first} {ended : Derivation rest}
    (clear : (Form.next first rest).isClear = true) (findsFront : Finds first front begun)
    (findsBack : Finds rest (back begun.meaning) ended) :
    Finds (.next first rest) (do
      let found ← front
      let others ← back found
      pure (found, others)) (.next begun ended) := by
  intro cursor tokens pending safe
  simp only [Form.isClear, Bool.and_eq_true] at clear
  have safeBack := safe_back safe
  have safeFront := (ended.begins clear.1.2 safeBack).safe clear.2 (safe_front safe)
  rw [Derivation.tokens, List.append_assoc] at pending
  obtain ⟨behind, found, pending⟩ := findsFront cursor _ pending safeFront
  obtain ⟨after, found', pending⟩ := findsBack behind _ pending safeBack
  refine ⟨after, ?_, pending⟩
  simp only [bind, Reader.andThen, found, found']
  rfl

theorem finds_left {one : Reader left.Meaning} {other : Reader right.Meaning}
    {inner : Derivation left} (finds : Finds left one inner) :
    Finds (.either left right) ((Sum.inl <$> one).orElse (Sum.inr <$> other)) (.left inner) := by
  intro cursor rest pending safe
  obtain ⟨after, found, behind⟩ :=
    finds cursor rest pending fun member => safe (List.mem_append_left _ member)
  refine ⟨after, ?_, behind⟩
  simp only [Functor.map, Reader.orElse, Reader.andThen, found]
  rfl

/-- Something illegal is nothing that a form begins with. -/
theorem unseen_not_mem_first (form : Form) : Ahead.unseen ∉ form.first := by
  induction form with
  | token | mark | bullet | empty => simp [Form.first]
  | part production => cases production <;> decide
  | next first rest ihFirst ihRest =>
      rw [Form.first, List.mem_append]
      rintro (atFront | atBack)
      · exact ihFirst atFront
      · split at atBack
        · exact ihRest atBack
        · cases atBack
  | either left right ihLeft ihRight =>
      rw [Form.first, List.mem_append]
      rintro (atLeft | atRight)
      · exact ihLeft atLeft
      · exact ihRight atRight
  | optional form ih | many form ih | several form ih => exact ih

theorem finds_right {one : Reader left.Meaning} {other : Reader right.Meaning}
    {inner : Derivation right} (clear : (Form.either left right).isClear = true)
    (misses : Misses left one) (finds : Finds right other inner) :
    Finds (.either left right) ((Sum.inl <$> one).orElse (Sum.inr <$> other)) (.right inner) := by
  intro cursor rest pending safe
  simp only [Form.isClear, Bool.and_eq_true, Bool.not_eq_true'] at clear
  obtain ⟨⟨⟨⟨clearLeft, clearRight⟩, fullLeft⟩, fullRight⟩, apart⟩ := clear
  have safeRight := fun member => safe (List.mem_append_right _ member)
  have begun := inner.ahead_mem_first clearRight fullRight safeRight
  have same : cursor.pending = inner.tokens ++ rest := pending
  rw [← same] at begun
  have seen : ahead cursor.pending ≠ .unseen := fun unseen =>
    unseen_not_mem_first right (unseen ▸ begun)
  obtain ⟨behind, absent, unmoved⟩ :=
    misses.absent fullLeft seen (Form.not_mem_of_areApart apart begun)
  obtain ⟨after, found, later⟩ := finds behind rest (unmoved.trans pending) safeRight
  refine ⟨after, ?_, later⟩
  simp only [Functor.map, Reader.orElse, Reader.andThen, absent, found]
  rfl

theorem finds_absent {reader : Reader form.Meaning} (full : form.isNullable = false)
    (misses : Misses form reader) : Finds (.optional form) reader.optional .absent := by
  intro cursor rest pending safe
  have same : cursor.pending = rest := pending
  rw [← same] at safe
  obtain ⟨after, absent, unmoved⟩ := misses.absent full
    (fun unseen => safe (unseen ▸ List.mem_cons_self ..)) (not_takes_of_safe safe)
  refine ⟨after, ?_, unmoved.trans same⟩
  simp only [Reader.optional, absent]
  rfl

theorem finds_present {reader : Reader form.Meaning} {inner : Derivation form}
    (finds : Finds form reader inner) :
    Finds (.optional form) reader.optional (.present inner) := by
  intro cursor rest pending safe
  obtain ⟨after, found, behind⟩ := finds cursor rest pending (safe_many safe)
  refine ⟨after, ?_, behind⟩
  simp only [Reader.optional, found]
  rfl

theorem finds_done {reader : Reader form.Meaning} (full : form.isNullable = false)
    (misses : Misses form reader) : Finds (.many form) reader.row .done := by
  intro cursor rest pending safe
  have same : cursor.pending = rest := pending
  rw [← same] at safe
  obtain ⟨after, absent, unmoved⟩ := misses.absent full
    (fun unseen => safe (unseen ▸ List.mem_cons_self ..)) (not_takes_of_safe safe)
  refine ⟨after, ?_, unmoved.trans same⟩
  simp only [Reader.row, Reader.rowUpTo, absent]
  rfl

/-- A row that is found within a bound is found within any larger one. -/
theorem rowUpTo_mono {α : Type} {part : Reader α} {bound : Nat} {cursor rest : Cursor}
    {values : List α} (found : part.rowUpTo bound cursor = .found values rest) :
    ∀ larger, bound ≤ larger → part.rowUpTo larger cursor = .found values rest := by
  induction bound generalizing cursor rest values with
  | zero => cases found
  | succ bound ih =>
      intro larger fits
      obtain ⟨larger, rfl⟩ := Nat.exists_eq_add_of_lt fits
      simp only [Reader.rowUpTo] at found ⊢
      cases outcome : part cursor with
      | absent behind =>
          rw [outcome] at found
          exact found
      | rejected cause behind =>
          rw [outcome] at found
          cases found
      | found value behind =>
          simp only [outcome] at found ⊢
          cases others : part.rowUpTo bound behind with
          | absent later =>
              rw [others] at found
              cases found
          | rejected cause later =>
              rw [others] at found
              cases found
          | found values' later =>
              rw [others] at found
              rw [ih others _ (Nat.le_add_right bound larger)]
              exact found

/-- A part and a row behind it are a row, since the part has taken a token. -/
theorem finds_more {reader : Reader form.Meaning} {begun : Derivation form}
    {others : Derivation (.many form)} (clear : (Form.many form).isClear = true)
    (finds : Finds form reader begun) (findsOthers : Finds (.many form) reader.row others) :
    Finds (.many form) reader.row (.more begun others) := by
  intro cursor rest pending safe
  have full : form.isNullable = false := by
    simp only [Form.isClear, Bool.and_eq_true, Bool.not_eq_true'] at clear
    exact clear.1.2
  rw [Derivation.tokens, List.append_assoc] at pending
  obtain ⟨behind, found, later⟩ := finds cursor _ pending (others.safe_others clear safe)
  obtain ⟨after, foundOthers, last⟩ := findsOthers behind rest later safe
  have shorter : behind.pending.length + 1 ≤ cursor.pending.length := by
    have taken := List.length_pos_iff.mpr (begun.tokens_ne_nil full)
    rw [later, pending]
    simp only [List.length_append]
    omega
  refine ⟨after, ?_, last⟩
  simp only [Reader.row, Reader.rowUpTo, found, rowUpTo_mono foundOthers _ shorter]
  rfl

theorem finds_several {reader : Reader form.Meaning} {begun : Derivation form}
    {others : Derivation (.many form)} (clear : (Form.many form).isClear = true)
    (finds : Finds form reader begun) (findsOthers : Finds (.many form) reader.row others) :
    Finds (.several form) reader.row1 (.several begun others) := by
  intro cursor rest pending safe
  rw [Derivation.tokens, List.append_assoc] at pending
  obtain ⟨behind, found, later⟩ := finds cursor _ pending (others.safe_others clear safe)
  obtain ⟨after, foundOthers, last⟩ := findsOthers behind rest later safe
  refine ⟨after, ?_, last⟩
  simp only [Reader.row1, bind, Reader.andThen, found, foundOthers]
  rfl

end Finds

/-! ## Productions -/

/-- The level is deep enough for a derivation of the given depth. -/
def Level.Admits : Level → Nat → Prop
  | outer, _ => True
  | inner bound, depth => depth < bound

theorem Level.Admits.isOpen {level : Level} {depth : Nat} (admits : level.Admits depth) :
    IsOpen level := by
  rintro rfl
  exact absurd admits (Nat.not_lt_zero _)

theorem Level.Admits.mono {level : Level} {small large : Nat} (admits : level.Admits large)
    (fits : small ≤ large) : level.Admits small := by
  cases level with
  | outer => exact True.intro
  | inner bound => exact Nat.lt_of_le_of_lt fits admits

/-- The level at which the parts of a production are read is deep enough for them. -/
theorem admits_below {level : Level} {production : Production} {inner : Derivation (form production)}
    {cursor : Cursor} (admits : level.Admits (depth (.part inner)))
    (fits : inner.tokens.length ≤ cursor.pending.length) :
    (below level production cursor).Admits (depth inner) := by
  rw [below]
  by_cases outward : isOutward production = true
  · rw [if_pos outward]
    exact True.intro
  rw [if_neg outward]
  rw [depth] at admits
  cases nested : isNested production with
  | false => exact admits.mono (Nat.le_add_right ..)
  | true =>
      rw [nested] at admits
      cases level with
      | outer =>
          have deeper := (depth_le inner).2 (isShallow_form (Or.inr nested))
          exact Nat.lt_of_lt_of_le deeper fits
      | inner bound => exact Nat.lt_sub_of_add_lt admits

/-- What is found of the form of a production is found as a part. -/
theorem finds_build {production : Production} {reader : Reader (form production).Meaning}
    {inner : Derivation (form production)} (finds : Finds (form production) reader inner) :
    Finds (.part production) (build production <$> reader) (.part inner) := by
  intro cursor rest pending safe
  obtain ⟨after, found, behind⟩ :=
    finds cursor rest pending fun member => safe (guard_form_subset production member)
  refine ⟨after, ?_, behind⟩
  simp only [Functor.map, Reader.andThen, found]
  rfl

/-- Everything that can be derived is found at a level that is deep enough. -/
theorem finds_read {form : Form} (derivation : Derivation form) (level : Level)
    (production : Production) (committed : Bool) (clear : form.isClear = true)
    (admits : level.Admits (depth derivation)) :
    Finds form (read (reader level) production committed form) derivation := by
  induction derivation generalizing level production committed with
  | token leaf fits => exact finds_demand (finds_token leaf fits clear) production committed
  | mark leaf fits => exact finds_demand (finds_delimiter leaf fits) production committed
  | bullet newline dash ends fits =>
      exact finds_demand (finds_bullet newline dash ends fits) production committed
  | @part part inner ih =>
      refine finds_demand ?_ production committed
      intro cursor rest pending safe
      have fits : inner.tokens.length ≤ cursor.pending.length := by
        rw [pending, List.length_append]
        exact Nat.le_add_right ..
      -- The level below still admits the part, since all of its tokens are pending.
      rw [reader_eq level part (bne_iff_ne.mp clear) fun _ => admits.isOpen]
      exact finds_build
        (ih (below level part cursor) part false (isClear_form part) (admits_below admits fits))
        cursor rest pending safe
  | empty => exact fun cursor rest pending _ => ⟨cursor, rfl, pending⟩
  | next front back ihFront ihBack =>
      have parts := clear
      simp only [Form.isClear, Bool.and_eq_true] at parts
      exact finds_next clear
        (ihFront level production committed parts.1.1 (admits.mono (Nat.le_max_left ..)))
        (ihBack level production _ parts.1.2 (admits.mono (Nat.le_max_right ..)))
  | left inner ih =>
      simp only [Form.isClear, Bool.and_eq_true] at clear
      exact finds_demand (finds_left (ih level production false clear.1.1.1.1 admits)) production
        committed
  | right inner ih =>
      have parts := clear
      simp only [Form.isClear, Bool.and_eq_true] at parts
      exact finds_demand (finds_right clear
        (misses_form admits.isOpen production parts.1.1.1.1)
        (ih level production false parts.1.1.1.2 admits)) production committed
  | absent =>
      simp only [Form.isClear, Bool.and_eq_true, Bool.not_eq_true'] at clear
      exact finds_absent clear.2 (misses_form admits.isOpen production clear.1)
  | present inner ih =>
      simp only [Form.isClear, Bool.and_eq_true] at clear
      exact finds_present (ih level production false clear.1 admits)
  | done =>
      simp only [Form.isClear, Bool.and_eq_true, Bool.not_eq_true'] at clear
      exact finds_done clear.1.2 (misses_form admits.isOpen production clear.1.1)
  | more begun others ihBegun ihOthers =>
      have parts := clear
      simp only [Form.isClear, Bool.and_eq_true] at parts
      exact finds_more clear
        (ihBegun level production false parts.1.1 (admits.mono (Nat.le_max_left ..)))
        (ihOthers level production false clear (admits.mono (Nat.le_max_right ..)))
  | several begun others ihBegun ihOthers =>
      have parts := clear
      simp only [Form.isClear, Bool.and_eq_true] at parts
      exact finds_demand (finds_several clear
        (ihBegun level production false parts.1.1 (admits.mono (Nat.le_max_left ..)))
        (ihOthers level production false clear (admits.mono (Nat.le_max_right ..)))) production
        committed

/-- A document that can be derived is found, with its expressions in order. -/
theorem document_complete (derivation : Derivation (form .document)) {cursor : Cursor}
    {rest : List Token} (pending : cursor.pending = derivation.tokens ++ rest) :
    ∃ after, document cursor = .found (inOrder (build .document derivation.meaning)) after ∧
      after.pending = rest := by
  have finds := finds_read derivation .outer .document true (isClear_form .document) True.intro
  obtain ⟨after, found, behind⟩ := finds cursor rest pending
    fun member => absurd (guard_form_subset .document member) List.not_mem_nil
  refine ⟨after, ?_, behind⟩
  rw [← read_form_document]
  simp only [Functor.map, Reader.andThen, found]
  rfl

end Reading
end GrammarBook
