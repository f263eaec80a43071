import GrammarBook.Proofs.Grammar.Form

namespace GrammarBook
namespace Grammar

/-!
# One derivation for each row of tokens

What comes next decides how a derivation goes on. `first` collects what the tokens of a form may
begin with, and `guard` what must not follow them, because a derivation of the form could have taken
it in. A form is clear when these two never meet where a choice has to be made; that is a finite
check, and all productions pass it. From there on, the tokens of a clear form with something behind
them that is not guarded against determine their derivation and where it ends.

A newline is looked at together with the token behind it: in front of a dash it begins a line.
-/

/-- What is seen ahead. Nothing is seen past the end of the tokens or past an illegal one. -/
inductive Ahead where
  | unseen
  | bullet
  | kind (kind : Kind)
  | mark (text : String)
  deriving DecidableEq

/-- What is seen at a newline, which depends on the token behind it. -/
def atNewline : List Token → Ahead
  | [] => .unseen
  | next :: _ =>
    if next.kind = .error then .unseen else if IsMark "-" next then .bullet else .kind .newline

/-- What a row of tokens begins with. -/
def ahead : List Token → Ahead
  | [] => .unseen
  | token :: rest =>
    match token.kind with
    | .error => .unseen
    | .delimiter => .mark token.text
    | .newline => atNewline rest
    | kind => .kind kind

/-! ## First sets and guards -/

def atomStarts : List Ahead :=
  [.kind .glyph, .kind .intrinsic, .kind .literal, .kind .lowercase]

def elementStarts : List Ahead := .mark "(" :: .kind .excluded :: .mark "[" :: atomStarts

def termStarts : List Ahead :=
  [.kind .lowercase, .kind .uppercase, .mark "(", .kind .literal]

def cardinalityStarts : List Ahead := [.mark "\x7b", .kind .quantified]

/-- What a phrase of a production begins with. -/
def starts : Production → List Ahead
  | .document | .notice => [.kind .comment]
  | .rule => [.kind .uppercase]
  | .definition => .bullet :: termStarts
  | .multiline | .line => [.bullet]
  | .identifier | .reference => [.kind .lowercase, .kind .uppercase]
  | .inlined | .term => termStarts
  | .bracket | .group => [.mark "("]
  | .expression => [.kind .lowercase]
  | .alternative => [.mark "|"]
  | .pattern | .sequence | .repetition | .element => elementStarts
  | .filter => [.kind .excluded, .mark "["]
  | .character => [.kind .glyph, .kind .intrinsic]
  | .bounded => [.kind .glyph]
  | .extent | .limit => [.mark ".."]
  | .text => atomStarts
  | .cardinality => cardinalityStarts
  | .constrained => [.mark "\x7b"]

/-- What must not follow the newlines at the end of a rule or an expression. -/
def newlineGuard : List Ahead := [.unseen, .kind .newline, .bullet, .mark "-"]

/-- What must not follow a repetition. -/
def repetitionGuard : List Ahead := .unseen :: .mark ".." :: cardinalityStarts

/-- What must not follow the terms of a definition. -/
def termsGuard : List Ahead := .unseen :: .kind .note :: (cardinalityStarts ++ termStarts)

def guarded : Production → List Ahead
  | .rule | .expression => newlineGuard
  | .definition => .bullet :: termsGuard
  | .multiline => [.unseen, .kind .note, .bullet]
  | .line => [.unseen, .kind .note]
  | .inlined => termsGuard
  | .term | .reference | .bracket => .unseen :: cardinalityStarts
  | .pattern => .mark "|" :: (repetitionGuard ++ elementStarts)
  | .alternative | .sequence => repetitionGuard ++ elementStarts
  | .repetition => repetitionGuard
  | .element | .text | .character | .bounded => [.unseen, .mark ".."]
  | .limit => [.unseen, .kind .number]
  | .document | .notice | .identifier | .group | .filter | .extent | .cardinality
  | .constrained => []

namespace Form

/-- The form derives the empty row of tokens. -/
def isNullable : Form → Bool
  | token _ | mark _ | bullet | part _ => false
  | empty | optional _ | many _ => true
  | next first rest => first.isNullable && rest.isNullable
  | either left right => left.isNullable || right.isNullable
  | several form => form.isNullable

/-- What the tokens of the form begin with, if there are any. -/
def first : Form → List Ahead
  | token kind => [.kind kind]
  | mark text => [.mark text]
  | bullet => [.bullet]
  | part production => starts production
  | empty => []
  | next front back => front.first ++ if front.isNullable then back.first else []
  | either left right => left.first ++ right.first
  | optional form | many form | several form => form.first

/-- What a reader of the form would take: also a newline that begins a line. -/
def takes (form : Form) : List Ahead :=
  form.first ++ if .kind .newline ∈ form.first then [.bullet] else []

/-- What must not follow the tokens of the form. -/
def guard : Form → List Ahead
  | token kind => if kind = .newline then [.unseen, .mark "-"] else []
  | mark _ | bullet | empty => []
  | part production => guarded production
  | next front back => back.guard ++ if back.isNullable then front.guard else []
  | either left right => left.guard ++ right.guard
  | optional form | many form | several form => .unseen :: (form.takes ++ form.guard)

/-- Two sets have nothing in common. -/
def areApart (left right : List Ahead) : Bool := left.all fun sight => !right.contains sight

/-- What comes next decides every choice that a derivation of the form has to make. -/
def isClear : Form → Bool
  | token kind => kind != .error && kind != .delimiter
  | part production => production != .document
  | mark _ | bullet | empty => true
  | next front back => front.isClear && back.isClear && areApart front.guard back.first
  | either left right =>
    left.isClear && right.isClear && !left.isNullable && !right.isNullable &&
      areApart left.takes right.first
  | optional form => form.isClear && !form.isNullable
  | many form | several form =>
    form.isClear && !form.isNullable && areApart form.guard form.first

theorem not_mem_of_areApart {left right : List Ahead} {sight : Ahead}
    (apart : areApart left right = true) (member : sight ∈ right) : sight ∉ left := by
  intro inLeft
  have excluded := List.all_eq_true.mp apart sight inLeft
  rw [List.contains_iff_mem.mpr member] at excluded
  cases excluded

end Form

/-- The productions pass the check, and the tables say of each what its form says. -/
theorem isClear_form (production : Production) : (form production).isClear = true := by
  cases production <;> decide

theorem isNullable_form (production : Production) : (form production).isNullable = false := by
  cases production <;> decide

theorem first_form_subset (production : Production) :
    (form production).first ⊆ starts production := by
  cases production <;> decide

theorem guard_form_subset (production : Production) :
    (form production).guard ⊆ guarded production := by
  cases production <;> decide

/-! ## What derivations begin with -/

theorem ahead_of_kind {token : Token} {rest : List Token} (notError : token.kind ≠ .error)
    (notDelimiter : token.kind ≠ .delimiter) (notNewline : token.kind ≠ .newline) :
    ahead (token :: rest) = .kind token.kind := by
  rw [ahead]
  cases seen : token.kind <;> simp_all

theorem ahead_of_isMark {text : String} {token : Token} {rest : List Token}
    (fits : IsMark text token) : ahead (token :: rest) = .mark text := by
  rw [ahead, fits.1]
  exact congrArg Ahead.mark fits.2

/-- A newline is seen as one where something is behind it that is no dash. -/
theorem ahead_of_newline {token : Token} {rest : List Token} (newline : token.kind = .newline)
    (safe : ahead rest ∉ (Form.token .newline).guard) :
    ahead (token :: rest) = .kind .newline := by
  cases rest with
  | nil => exact absurd (List.mem_cons_self ..) safe
  | cons next rest =>
      have notError : next.kind ≠ .error := by
        intro error
        exact safe (by simp [ahead, error, Form.guard])
      have notDash : ¬ IsMark "-" next := by
        intro dash
        exact safe (by rw [ahead_of_isMark dash]; simp [Form.guard])
      rw [ahead, newline]
      simp [atNewline, notError, notDash]

theorem ahead_bullet {newline dash : Token} {rest : List Token} (ends : newline.kind = .newline)
    (fits : IsMark "-" dash) : ahead (newline :: dash :: rest) = .bullet := by
  rw [ahead, ends]
  simp [atNewline, fits, fits.1]

/-! ## Safety of the parts -/

section Safety

variable {front back form left right : Form} {tokens rest : List Token}

/-- The tokens of a derivation begin as its form says, unless there are none. -/
def Begins (form : Form) (tokens rest : List Token) : Prop :=
  tokens = [] ∧ form.isNullable = true ∨ ahead (tokens ++ rest) ∈ form.first

/-- Where a form has begun, a guard against all that it begins with is kept. -/
theorem Begins.safe {guard : List Ahead} (begins : Begins form tokens rest)
    (apart : Form.areApart guard form.first = true)
    (safe : form.isNullable = true → ahead rest ∉ guard) : ahead (tokens ++ rest) ∉ guard := by
  rcases begins with ⟨empty, nullable⟩ | begun
  · rw [empty]
    exact safe nullable
  · exact Form.not_mem_of_areApart apart begun

theorem safe_back (safe : ahead rest ∉ (Form.next front back).guard) : ahead rest ∉ back.guard :=
  fun member => safe (List.mem_append_left _ member)

theorem safe_front (safe : ahead rest ∉ (Form.next front back).guard)
    (nullable : back.isNullable = true) : ahead rest ∉ front.guard := by
  intro member
  apply safe
  rw [Form.guard, if_pos nullable]
  exact List.mem_append_right _ member

theorem safe_many (safe : ahead rest ∉ (Form.many form).guard) : ahead rest ∉ form.guard :=
  fun member => safe (List.mem_cons_of_mem _ (List.mem_append_right _ member))

/-- Behind a row nothing stands that the row could have taken. -/
theorem not_takes_of_safe (safe : ahead rest ∉ (Form.many form).guard) :
    ahead rest ∉ form.takes :=
  fun member => safe (List.mem_cons_of_mem _ (List.mem_append_left _ member))

theorem not_first_of_safe (safe : ahead rest ∉ (Form.many form).guard) :
    ahead rest ∉ form.first :=
  fun member => not_takes_of_safe safe (List.mem_append_left _ member)

end Safety

namespace Derivation

theorem begins {form : Form} (derivation : Derivation form) {rest : List Token}
    (clear : form.isClear = true) (safe : ahead rest ∉ form.guard) :
    Begins form derivation.tokens rest := by
  induction derivation generalizing rest with
  | @token kind token fits =>
      right
      rw [Form.isClear, Bool.and_eq_true, bne_iff_ne, bne_iff_ne] at clear
      by_cases newline : kind = .newline
      · subst newline
        exact List.mem_singleton.mpr (ahead_of_newline fits safe)
      · subst fits
        exact List.mem_singleton.mpr (ahead_of_kind clear.1 clear.2 newline)
  | mark token fits => exact Or.inr (List.mem_singleton.mpr (ahead_of_isMark fits))
  | bullet newline dash ends fits =>
      exact Or.inr (List.mem_singleton.mpr (ahead_bullet ends fits))
  | @part production inner ih =>
      have innerSafe := fun member => safe (guard_form_subset production member)
      rcases ih (isClear_form production) innerSafe with ⟨_, nullable⟩ | begun
      · rw [isNullable_form] at nullable
        cases nullable
      · exact Or.inr (first_form_subset production begun)
  | empty => exact Or.inl ⟨rfl, rfl⟩
  | @next first back front later ihFront ihLater =>
      simp only [Form.isClear, Bool.and_eq_true] at clear
      have laterBegins := ihLater clear.1.2 (safe_back safe)
      have frontSafe := laterBegins.safe clear.2 (safe_front safe)
      rw [Begins, tokens, List.append_assoc, Form.first, List.mem_append, List.append_eq_nil_iff]
      rcases ihFront clear.1.1 frontSafe with ⟨noFront, frontNullable⟩ | begun
      · rcases laterBegins with ⟨noLater, laterNullable⟩ | begun
        · exact Or.inl ⟨⟨noFront, noLater⟩, Bool.and_eq_true_iff.mpr ⟨frontNullable, laterNullable⟩⟩
        · rw [noFront, if_pos frontNullable]
          exact Or.inr (Or.inr begun)
      · exact Or.inr (Or.inl begun)
  | @left left right inner ih =>
      simp only [Form.isClear, Bool.and_eq_true] at clear
      have innerSafe := fun member => safe (List.mem_append_left _ member)
      rcases ih clear.1.1.1.1 innerSafe with ⟨empty, nullable⟩ | begun
      · exact Or.inl ⟨empty, Bool.or_eq_true_iff.mpr (Or.inl nullable)⟩
      · exact Or.inr (List.mem_append_left _ begun)
  | @right left right inner ih =>
      simp only [Form.isClear, Bool.and_eq_true] at clear
      have innerSafe := fun member => safe (List.mem_append_right _ member)
      rcases ih clear.1.1.1.2 innerSafe with ⟨empty, nullable⟩ | begun
      · exact Or.inl ⟨empty, Bool.or_eq_true_iff.mpr (Or.inr nullable)⟩
      · exact Or.inr (List.mem_append_right _ begun)
  | absent => exact Or.inl ⟨rfl, rfl⟩
  | present inner ih =>
      rw [Form.isClear, Bool.and_eq_true] at clear
      rcases ih clear.1 (safe_many safe) with ⟨empty, nullable⟩ | begun
      · exact Or.inl ⟨empty, rfl⟩
      · exact Or.inr begun
  | done => exact Or.inl ⟨rfl, rfl⟩
  | more first others ihFirst ihOthers | several first others ihFirst ihOthers =>
      have parts := clear
      simp only [Form.isClear, Bool.and_eq_true] at parts
      have firstSafe := (ihOthers clear safe).safe parts.2 fun _ => safe_many safe
      rcases ihFirst parts.1.1 firstSafe with ⟨_, nullable⟩ | begun
      · rw [nullable] at parts
        cases parts.1.2
      · exact Or.inr (by rw [tokens, List.append_assoc]; exact begun)

/-- Only nullable forms derive no tokens. -/
theorem tokens_ne_nil {form : Form} (derivation : Derivation form)
    (notNullable : form.isNullable = false) : derivation.tokens ≠ [] := by
  induction derivation with
  | token | mark | bullet => exact List.cons_ne_nil _ _
  | @part production inner ih => exact ih (isNullable_form production)
  | empty | absent | present | done | more => cases notNullable
  | next front back ihFront ihBack =>
      rcases Bool.and_eq_false_iff.mp notNullable with atFront | atBack
      · exact List.append_ne_nil_of_left_ne_nil (ihFront atFront) _
      · exact List.append_ne_nil_of_right_ne_nil _ (ihBack atBack)
  | left inner ih => exact ih (Bool.or_eq_false_iff.mp notNullable).1
  | right inner ih => exact ih (Bool.or_eq_false_iff.mp notNullable).2
  | several first others ihFirst _ =>
      exact List.append_ne_nil_of_left_ne_nil (ihFirst notNullable) _

/-- What begins as a form that is not nullable is seen ahead. -/
theorem ahead_mem_first {form : Form} (derivation : Derivation form) {rest : List Token}
    (clear : form.isClear = true) (notNullable : form.isNullable = false)
    (safe : ahead rest ∉ form.guard) : ahead (derivation.tokens ++ rest) ∈ form.first := by
  rcases derivation.begins clear safe with ⟨_, nullable⟩ | begun
  · rw [notNullable] at nullable
    cases nullable
  · exact begun

/-- Behind the first part of a row comes more of the row, or what the row is guarded against. -/
theorem safe_others {form : Form} (others : Derivation (.many form)) {rest : List Token}
    (clear : (Form.many form).isClear = true) (safe : ahead rest ∉ (Form.many form).guard) :
    ahead (others.tokens ++ rest) ∉ form.guard := by
  have apart := (Bool.and_eq_true_iff.mp clear).2
  exact (others.begins clear safe).safe apart fun _ => safe_many safe

/-- What may follow a part that can be repeated or left out does not begin as one more such part. -/
theorem rest_ne_part {form : Form} (inner : Derivation form) {rest rest' : List Token}
    (clear : form.isClear = true) (full : form.isNullable = false)
    (safe : ahead rest ∉ (Form.many form).guard) (safe' : ahead rest' ∉ form.guard) :
    rest ≠ inner.tokens ++ rest' := by
  intro same
  have seen := inner.ahead_mem_first clear full safe'
  rw [← same] at seen
  exact not_first_of_safe safe seen

/-- The two sides of a choice do not begin alike. -/
theorem left_ne_right {left right : Form} (one : Derivation left) (other : Derivation right)
    {rest rest' : List Token} (clear : (Form.either left right).isClear = true)
    (safe : ahead rest ∉ (Form.either left right).guard)
    (safe' : ahead rest' ∉ (Form.either left right).guard) :
    one.tokens ++ rest ≠ other.tokens ++ rest' := by
  simp only [Form.isClear, Bool.and_eq_true, Bool.not_eq_true'] at clear
  obtain ⟨⟨⟨⟨clearLeft, clearRight⟩, fullLeft⟩, fullRight⟩, apart⟩ := clear
  intro same
  have seen := one.ahead_mem_first clearLeft fullLeft fun member =>
    safe (List.mem_append_left _ member)
  have seen' := other.ahead_mem_first clearRight fullRight fun member =>
    safe' (List.mem_append_right _ member)
  rw [← same] at seen'
  exact Form.not_mem_of_areApart apart seen' (List.mem_append_left _ seen)

/-- The tokens of a derivation are those of no other, also where more tokens follow, as long as these
are none that the form is guarded against. -/
def IsOnly {form : Form} (one : Derivation form) : Prop :=
  ∀ (other : Derivation form) (rest rest' : List Token), ahead rest ∉ form.guard →
    ahead rest' ∉ form.guard → one.tokens ++ rest = other.tokens ++ rest' →
      one = other ∧ rest = rest'

theorem isOnly_next {front back : Form} {first : Derivation front} {later : Derivation back}
    (clear : (Form.next front back).isClear = true) (firstOnly : first.IsOnly)
    (laterOnly : later.IsOnly) : (next first later).IsOnly := by
  intro other rest rest' safe safe' same
  simp only [Form.isClear, Bool.and_eq_true] at clear
  cases other with
  | next first' later' =>
      have safeLater := safe_back safe
      have safeLater' := safe_back safe'
      simp only [tokens, List.append_assoc] at same
      obtain ⟨rfl, behind⟩ := firstOnly first' _ _
        ((later.begins clear.1.2 safeLater).safe clear.2 (safe_front safe))
        ((later'.begins clear.1.2 safeLater').safe clear.2 (safe_front safe')) same
      obtain ⟨rfl, sameRest⟩ := laterOnly later' _ _ safeLater safeLater' behind
      exact ⟨rfl, sameRest⟩

theorem isOnly_optional {form : Form} {one : Derivation (.optional form)}
    (clear : (Form.optional form).isClear = true)
    (innerOnly : ∀ inner, one = present inner → inner.IsOnly) : one.IsOnly := by
  intro other rest rest' safe safe' same
  rw [Form.isClear, Bool.and_eq_true, Bool.not_eq_true'] at clear
  cases one with
  | absent =>
      cases other with
      | absent => exact ⟨rfl, same⟩
      | present inner' =>
          exact absurd same (inner'.rest_ne_part clear.1 clear.2 safe (safe_many safe'))
  | present inner =>
      cases other with
      | absent => exact absurd same.symm (inner.rest_ne_part clear.1 clear.2 safe' (safe_many safe))
      | present inner' =>
          obtain ⟨rfl, sameRest⟩ :=
            innerOnly inner rfl inner' rest rest' (safe_many safe) (safe_many safe') same
          exact ⟨rfl, sameRest⟩

/-- A part of a row and the parts behind it are told by their tokens. -/
theorem eq_of_parts {form : Form} {first first' : Derivation form}
    {others others' : Derivation (.many form)} {rest rest' : List Token}
    (clear : (Form.many form).isClear = true) (firstOnly : first.IsOnly) (othersOnly : others.IsOnly)
    (safe : ahead rest ∉ (Form.many form).guard) (safe' : ahead rest' ∉ (Form.many form).guard)
    (same : first.tokens ++ others.tokens ++ rest = first'.tokens ++ others'.tokens ++ rest') :
    first = first' ∧ others = others' ∧ rest = rest' := by
  rw [List.append_assoc, List.append_assoc] at same
  obtain ⟨sameFirst, behind⟩ := firstOnly first' _ _ (others.safe_others clear safe)
    (others'.safe_others clear safe') same
  exact ⟨sameFirst, othersOnly others' rest rest' safe safe' behind⟩

/-- A part of a row with more behind it is not taken for what follows the row. -/
theorem rest_ne_parts {form : Form} (first : Derivation form) (others : Derivation (.many form))
    {rest rest' : List Token} (clear : (Form.many form).isClear = true)
    (safe : ahead rest ∉ (Form.many form).guard) (safe' : ahead rest' ∉ (Form.many form).guard) :
    rest ≠ first.tokens ++ others.tokens ++ rest' := by
  have parts := clear
  simp only [Form.isClear, Bool.and_eq_true, Bool.not_eq_true'] at parts
  rw [List.append_assoc]
  exact first.rest_ne_part parts.1.1 parts.1.2 safe (others.safe_others clear safe')

/-- A derivation of a clear form is the only one of its tokens. -/
theorem unique {form : Form} (one : Derivation form) (clear : form.isClear = true) : one.IsOnly := by
  -- The other derivation has the same form, so it can differ only where a form leaves a choice: the
  -- side of an alternative, a part that may be missing, the end of a row. There the next token tells.
  induction one with
  | token | mark | bullet =>
      intro other rest rest' _ _ same
      cases other
      cases same
      exact ⟨rfl, rfl⟩
  | @part production inner ih =>
      intro other rest rest' safe safe' same
      cases other with
      | part inner' =>
          obtain ⟨rfl, sameRest⟩ := ih (isClear_form production) inner' rest rest'
            (fun member => safe (guard_form_subset production member))
            (fun member => safe' (guard_form_subset production member)) same
          exact ⟨rfl, sameRest⟩
  | empty =>
      intro other rest rest' _ _ same
      cases other with
      | empty => exact ⟨rfl, same⟩
  | next front back ihFront ihBack =>
      have parts := clear
      simp only [Form.isClear, Bool.and_eq_true] at parts
      exact isOnly_next clear (ihFront parts.1.1) (ihBack parts.1.2)
  | left inner ih =>
      intro other rest rest' safe safe' same
      cases other with
      | left inner' =>
          simp only [Form.isClear, Bool.and_eq_true] at clear
          obtain ⟨rfl, sameRest⟩ := ih clear.1.1.1.1 inner' rest rest'
            (fun member => safe (List.mem_append_left _ member))
            (fun member => safe' (List.mem_append_left _ member)) same
          exact ⟨rfl, sameRest⟩
      | right inner' => exact absurd same (inner.left_ne_right inner' clear safe safe')
  | right inner ih =>
      intro other rest rest' safe safe' same
      cases other with
      | left inner' => exact absurd same.symm (inner'.left_ne_right inner clear safe' safe)
      | right inner' =>
          simp only [Form.isClear, Bool.and_eq_true] at clear
          obtain ⟨rfl, sameRest⟩ := ih clear.1.1.1.2 inner' rest rest'
            (fun member => safe (List.mem_append_right _ member))
            (fun member => safe' (List.mem_append_right _ member)) same
          exact ⟨rfl, sameRest⟩
  | absent => exact isOnly_optional clear nofun
  | present inner ih =>
      refine isOnly_optional clear fun inner' same => ?_
      cases same
      exact ih (Bool.and_eq_true_iff.mp clear).1
  | done =>
      intro other rest rest' safe safe' same
      cases other with
      | done => exact ⟨rfl, same⟩
      | more first' others' => exact absurd same (first'.rest_ne_parts others' clear safe safe')
  | more first others ihFirst ihOthers =>
      intro other rest rest' safe safe' same
      have parts := clear
      simp only [Form.isClear, Bool.and_eq_true] at parts
      cases other with
      | done => exact absurd same.symm (first.rest_ne_parts others clear safe' safe)
      | more first' others' =>
          obtain ⟨rfl, rfl, sameRest⟩ :=
            eq_of_parts clear (ihFirst parts.1.1) (ihOthers clear) safe safe' same
          exact ⟨rfl, sameRest⟩
  | several first others ihFirst ihOthers =>
      intro other rest rest' safe safe' same
      have parts := clear
      simp only [Form.isClear, Bool.and_eq_true] at parts
      cases other with
      | several first' others' =>
          obtain ⟨rfl, rfl, sameRest⟩ :=
            eq_of_parts clear (ihFirst parts.1.1) (ihOthers clear) safe safe' same
          exact ⟨rfl, sameRest⟩

end Derivation
end Grammar
end GrammarBook
