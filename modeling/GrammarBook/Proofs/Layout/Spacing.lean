import GrammarBook.Proofs.Grammar.Lookahead
import GrammarBook.Proofs.Layout.Writing
import GrammarBook.Proofs.Token.Relexing

namespace GrammarBook
namespace Grammar

open Token

/-!
# Tokens kept apart

What is written for a phrase within one line is scanned as the tokens of the phrase. Only names and
numbers could run into what follows them. That they do not is checked form by form: where a part may
end with one of them, the next part begins with something else, or a blank is written between.
-/

/-! ## Where words meet -/

/-- Tokens that a letter or a digit behind them could prolong. -/
def isWordKind : Kind → Bool
  | .intrinsic | .lowercase | .number | .uppercase => true
  | _ => false

/-- What begins with a letter or a digit. -/
def wordSights : List Ahead :=
  [.kind .intrinsic, .kind .lowercase, .kind .number, .kind .uppercase]

/-- The text does not begin with what could continue a name or a number. -/
def Stops (text : List Char) : Prop := text.head?.all (!Kind.continuesName ·) = true

/-- Tokens that are written as they are. -/
def isPlain : Kind → Bool
  | .comment | .delimiter | .newline | .note | .space => false
  | _ => true

/-- A phrase of the production may end with a name or a number. -/
def endsInWord : Production → Bool
  | .definition | .multiline | .line | .inlined | .identifier | .reference | .term | .pattern
  | .alternative | .sequence | .repetition | .element | .text | .character | .limit => true
  | _ => false

/-- Phrases of the production are set apart by blanks. -/
def isSetApart : Production → Bool
  | .term | .repetition | .character => true
  | _ => false

namespace Form

/-- The tokens of the form may end with a name or a number. -/
def endsInWord : Form → Bool
  | token kind => isWordKind kind
  | mark _ | bullet | empty => false
  | part production => Grammar.endsInWord production
  | next front back => back.endsInWord || (back.isNullable && front.endsInWord)
  | either left right => left.endsInWord || right.endsInWord
  | optional form | many form | several form => form.endsInWord

/-- A blank is written in front of all members but the first. -/
def isSetApart : Form → Bool
  | part production => Grammar.isSetApart production
  | many form => form.isSetApart
  | _ => false

/-- The tokens of the form do not begin with a name or a number. -/
def startsApart (form : Form) : Bool := areApart wordSights form.first

/-- No name and no number is written directly before another one. -/
def isLegible : Form → Bool
  | token kind => isPlain kind
  | bullet => false
  | mark _ | empty => true
  | part production => isInline production
  | next front back =>
    front.isLegible && back.isLegible && (!front.endsInWord || back.startsApart)
  | either left right => left.isLegible && right.isLegible
  | optional form => form.isLegible
  | many form | several form =>
    form.isLegible && (form.isSetApart || !form.endsInWord || form.startsApart)

end Form

theorem isLegible_form {production : Production} (inline : isInline production = true) :
    (form production).isLegible = true := by
  revert inline
  cases production <;> decide

theorem endsInWord_form {production : Production} (ends : (form production).endsInWord = true) :
    endsInWord production = true := by
  revert ends
  cases production <;> decide

/-- What begins with less starts apart no less. -/
theorem Form.startsApart_of_subset {form other : Form} (subset : form.first ⊆ other.first)
    (apart : other.startsApart = true) : form.startsApart = true := by
  apply List.all_eq_true.mpr
  intro sight isWord
  rw [Bool.not_eq_true', Bool.eq_false_iff, Ne, List.contains_iff_mem]
  intro member
  exact Form.not_mem_of_areApart apart (subset member) isWord

/-- Where no blank is written in front, the form has to start apart itself. -/
theorem Form.startsApart_of_apart {form : Form} {later : Prop} (joined : form.isSetApart = false)
    (apart : form.startsApart = true ∨ form.isSetApart = true ∧ later) :
    form.startsApart = true := by
  rcases apart with starts | ⟨setApart, _⟩
  · exact starts
  · rw [joined] at setApart
    cases setApart

/-! ## Words as they are written -/

theorem stops_blank (rest : List Char) : Stops (' ' :: rest) := rfl

/-- What could continue a name begins a name or a number, or nothing at all. -/
theorem leadOf_of_continuesName {c : Char} (continues : Kind.continuesName c = true) :
    Kind.leadOf c ∈ [Kind.uppercase, .lowercase, .number, .error] := by
  rw [Kind.continuesName, Bool.or_eq_true, beq_iff_eq, Kind.isWordChar, Bool.or_eq_true,
    Bool.or_eq_true] at continues
  rcases continues with ((capital | small) | numeral) | rfl
  · rw [show Kind.leadOf c = .uppercase from if_pos capital]
    decide
  · rw [Kind.leadOf_of_isSmall small]
    decide
  · rw [Kind.leadOf_of_isNumeral numeral]
    decide
  · decide

/-- A token that is no name and no number begins with nothing that could continue one. -/
theorem stops_token {kind : Kind} {text : List Char} (accepted : kind.acceptsChars text = true)
    (notWord : isWordKind kind = false) (rest : List Char) : Stops (text ++ rest) := by
  obtain ⟨c, tail, rfl⟩ := List.exists_cons_of_ne_nil (Kind.ne_nil_of_acceptsChars accepted)
  have lead := Kind.leadOf_of_accepts accepted
  change (!Kind.continuesName c) = true
  rw [Bool.not_eq_true', Bool.eq_false_iff]
  intro continues
  have member := leadOf_of_continuesName continues
  rw [lead] at member
  revert accepted notWord member
  cases kind <;> simp [isWordKind, Kind.lead, Kind.acceptsChars]

theorem not_isNumeral_of_stops {rest : List Char} (stops : Stops rest) :
    rest.head?.all (!Kind.isNumeral ·) = true := by
  cases rest with
  | nil => rfl
  | cons c rest =>
      change (!Kind.continuesName c) = true at stops
      change (!Kind.isNumeral c) = true
      rw [Bool.not_eq_true', Bool.eq_false_iff] at stops ⊢
      intro numeral
      apply stops
      rw [Kind.continuesName, Kind.isWordChar, numeral, Bool.or_true]
      rfl

/-- A word ends where nothing comes that could continue it, and all other tokens end anyway. -/
theorem endsBefore_of_stops {kind : Kind} (inLine : isPlain kind = true ∨ kind = .delimiter)
    {rest : List Char} (stops : isWordKind kind = true → Stops rest) (text : List Char) :
    kind.EndsBefore text rest := by
  cases kind
  case comment | newline | note | space => rcases inLine with plain | delimiter <;> contradiction
  case intrinsic | lowercase | uppercase => exact stops rfl
  case number => exact not_isNumeral_of_stops (stops rfl)
  all_goals exact True.intro

/-- The token is spelled as one of its kind. -/
def IsSpelled (token : Token) : Prop := token.kind.IsSpelled token.text.toList

theorem leafText_plain {kind : Kind} (plain : isPlain kind = true) (text : String) :
    Formatter.leafText kind text = text := by
  revert plain
  cases kind <;> simp [isPlain, Formatter.leafText]

/-- A token that is written as it is stands in the text as a word. -/
theorem lexed_plain {token : Token} (spelled : IsSpelled token) (plain : isPlain token.kind = true)
    {rest : List Char} {words : List Word} (stops : isWordKind token.kind = true → Stops rest)
    (later : Lexed rest words) :
    Lexed ((Formatter.leafText token.kind token.text).toList ++ rest) (toWord token :: words) := by
  have explicit : token.kind ≠ .space := by
    intro isSpace
    rw [isSpace] at plain
    cases plain
  rw [leafText_plain plain]
  exact .word explicit
    (Kind.lexeme?_exact spelled (endsBefore_of_stops (.inl plain) stops _)) later

/-- A delimiter stands in the text as a word, with the blanks around it. -/
theorem lexed_delimiter {token : Token} (spelled : IsSpelled token)
    (isDelimiter : token.kind = .delimiter) {rest : List Char} {words : List Word}
    (later : Lexed rest words) :
    Lexed ((Formatter.leafText token.kind token.text).toList ++ rest) (toWord token :: words) := by
  have written {rest : List Char} (later : Lexed rest words) :
      Lexed (token.text.toList ++ rest) (toWord token :: words) := by
    have notWord : isWordKind token.kind = true → Stops rest := by
      rw [isDelimiter]
      exact nofun
    have ends := endsBefore_of_stops (.inr isDelimiter) notWord token.text.toList
    exact .word (by rw [isDelimiter]; decide) (Kind.lexeme?_exact spelled ends) later
  rw [isDelimiter, Formatter.leafText]
  by_cases bar : token.text = "|"
  · rw [if_pos bar]
    rw [bar] at written
    exact .blank rfl (written (.blank rfl later))
  · rw [if_neg bar]
    by_cases dash : token.text = "-"
    · rw [if_pos dash]
      rw [dash] at written
      exact written (.blank rfl later)
    · rw [if_neg dash]
      exact written later

theorem stops_delimiter {token : Token} (spelled : IsSpelled token)
    (isDelimiter : token.kind = .delimiter) (rest : List Char) :
    Stops ((Formatter.leafText token.kind token.text).toList ++ rest) := by
  have written (rest : List Char) : Stops (token.text.toList ++ rest) :=
    stops_token spelled.1 (by rw [isDelimiter]; rfl) rest
  rw [isDelimiter, Formatter.leafText]
  by_cases bar : token.text = "|"
  · rw [if_pos bar]
    exact stops_blank _
  · rw [if_neg bar]
    by_cases dash : token.text = "-"
    · rw [if_pos dash]
      rfl
    · rw [if_neg dash]
      exact written rest

/-! ## Forms as they are written -/

theorem openingText_cases (production : Production) (groups index : Nat) :
    openingText production groups index = [] ∨ openingText production groups index = [' '] := by
  cases production
  case term | repetition | character =>
    by_cases later : 1 < index
    · exact .inr (if_pos later)
    · exact .inl (if_neg later)
  case pattern =>
    by_cases outside : groups = 0
    · exact .inr (if_pos outside)
    · exact .inl (if_neg outside)
  all_goals exact .inl rfl

theorem openingText_isSetApart {production : Production}
    (setApart : isSetApart production = true) (groups : Nat) {index : Nat} (later : 1 < index) :
    openingText production groups index = [' '] := by
  revert setApart
  cases production <;> simp [isSetApart, openingText, later]

/-- What a derivation is written as does not prolong a name in front of it, if its form starts apart
or a blank is written first. -/
theorem stops_layout {form : Form} (derivation : Derivation form)
    (spelled : ∀ token ∈ derivation.tokens, IsSpelled token) (legible : form.isLegible = true)
    {groups index : Nat}
    (apart : form.startsApart = true ∨ form.isSetApart = true ∧ 1 < index) {rest : List Char}
    (stops : form.isNullable = true → Stops rest) :
    Stops (derivation.layout groups index ++ rest) := by
  induction derivation generalizing groups index rest with
  | @token kind leaf fits =>
      subst fits
      have notWord : isWordKind leaf.kind = false := by
        rcases apart with starts | ⟨setApart, _⟩
        · revert starts
          cases leaf.kind <;> decide
        · cases setApart
      rw [Derivation.layout, leafText_plain legible]
      exact stops_token (spelled leaf (List.mem_singleton.mpr rfl)).1 notWord rest
  | mark leaf fits => exact stops_delimiter (spelled leaf (List.mem_singleton.mpr rfl)) fits.1 rest
  | bullet => cases legible
  | @part production inner ih =>
      rw [Derivation.layout]
      rcases openingText_cases production groups index with none | blank
      · have starts : (Form.part production).startsApart = true := by
          rcases apart with starts | ⟨setApart, later⟩
          · exact starts
          · rw [openingText_isSetApart setApart groups later] at none
            cases none
        rw [none]
        apply ih spelled (isLegible_form legible)
          (.inl (@Form.startsApart_of_subset _ (.part production) (first_form_subset _) starts))
        intro nullable
        rw [isNullable_form] at nullable
        cases nullable
      · rw [blank]
        exact stops_blank _
  | empty => exact stops rfl
  | @next first last front back front_ih back_ih =>
      have starts := Form.startsApart_of_apart rfl apart
      obtain ⟨spelledFront, spelledBack⟩ := List.forall_mem_append.mp spelled
      obtain ⟨bothLegible, _⟩ := Bool.and_eq_true_iff.mp legible
      obtain ⟨frontLegible, backLegible⟩ := Bool.and_eq_true_iff.mp bothLegible
      have frontStarts := Form.startsApart_of_subset (List.subset_append_left ..) starts
      rw [Derivation.layout, List.append_assoc]
      apply front_ih spelledFront frontLegible (.inl frontStarts)
      intro frontNullable
      have subset : last.first ⊆ (Form.next first last).first := by
        rw [Form.first, if_pos frontNullable]
        exact List.subset_append_right ..
      apply back_ih spelledBack backLegible (.inl (Form.startsApart_of_subset subset starts))
      intro backNullable
      exact stops (Bool.and_eq_true_iff.mpr ⟨frontNullable, backNullable⟩)
  | left inner ih =>
      have starts := Form.startsApart_of_apart rfl apart
      apply ih spelled (Bool.and_eq_true_iff.mp legible).1
        (.inl (Form.startsApart_of_subset (List.subset_append_left ..) starts))
      intro nullable
      exact stops (Bool.or_eq_true_iff.mpr (.inl nullable))
  | right inner ih =>
      have starts := Form.startsApart_of_apart rfl apart
      apply ih spelled (Bool.and_eq_true_iff.mp legible).2
        (.inl (Form.startsApart_of_subset (List.subset_append_right ..) starts))
      intro nullable
      exact stops (Bool.or_eq_true_iff.mpr (.inr nullable))
  | absent => exact stops rfl
  | present inner ih =>
      have starts := Form.startsApart_of_apart rfl apart
      exact ih spelled legible (.inl starts) fun _ => stops rfl
  | done => exact stops rfl
  | more first others first_ih others_ih =>
      obtain ⟨spelledFirst, spelledOthers⟩ := List.forall_mem_append.mp spelled
      rw [Derivation.layout, List.append_assoc]
      apply first_ih spelledFirst (Bool.and_eq_true_iff.mp legible).1 apart
      intro _
      exact others_ih spelledOthers legible
        (apart.imp_right fun setApart => ⟨setApart.1, Nat.lt_succ_of_lt setApart.2⟩) stops
  | several first others first_ih others_ih =>
      obtain ⟨spelledFirst, spelledOthers⟩ := List.forall_mem_append.mp spelled
      have starts := Form.startsApart_of_apart rfl apart
      rw [Derivation.layout, List.append_assoc]
      apply first_ih spelledFirst (Bool.and_eq_true_iff.mp legible).1 (.inl starts)
      intro nullable
      exact others_ih spelledOthers legible (.inl starts) fun _ => stops nullable

/-- What the other members of a list are written as does not prolong the first one. -/
theorem stops_others {form : Form} (others : Derivation (.many form))
    (spelled : ∀ token ∈ others.tokens, IsSpelled token)
    (legible : (Form.many form).isLegible = true) {groups index : Nat} (isLater : 1 < index)
    {rest : List Char} (stops : form.endsInWord = true → Stops rest)
    (ends : form.endsInWord = true) : Stops (others.layout groups index ++ rest) := by
  have apart : form.startsApart = true ∨ form.isSetApart = true := by
    have meets := (Bool.and_eq_true_iff.mp legible).2
    rw [ends, Bool.not_true, Bool.or_false, Bool.or_eq_true] at meets
    exact meets.symm
  apply stops_layout others spelled legible _ fun _ => stops ends
  rcases apart with starts | setApart
  · exact .inl starts
  · exact .inr ⟨setApart, isLater⟩

/-- What is written for a phrase within one line is scanned as the tokens of the phrase. -/
theorem lexed_layout {form : Form} (derivation : Derivation form)
    (spelled : ∀ token ∈ derivation.tokens, IsSpelled token) (legible : form.isLegible = true)
    {groups index : Nat} (counted : 0 < index) {rest : List Char} {words : List Word}
    (later : Lexed rest words) (stops : form.endsInWord = true → Stops rest) :
    Lexed (derivation.layout groups index ++ rest) (derivation.tokens.map toWord ++ words) := by
  induction derivation generalizing groups index rest words with
  | token leaf fits =>
      subst fits
      exact lexed_plain (spelled leaf (List.mem_singleton.mpr rfl)) legible stops later
  | mark leaf fits =>
      exact lexed_delimiter (spelled leaf (List.mem_singleton.mpr rfl)) fits.1 later
  | bullet => cases legible
  | @part production inner ih =>
      have written (groups : Nat) : Lexed (inner.layout groups 1 ++ rest) _ :=
        ih spelled (isLegible_form legible) Nat.one_pos later
          fun ends => stops (endsInWord_form ends)
      rw [Derivation.layout]
      rcases openingText_cases production groups index with none | blank
      · rw [none]
        exact written _
      · rw [blank]
        exact .blank rfl (written _)
  | empty | absent | done => exact later
  | @next first last front back front_ih back_ih =>
      obtain ⟨spelledFront, spelledBack⟩ := List.forall_mem_append.mp spelled
      obtain ⟨bothLegible, meets⟩ := Bool.and_eq_true_iff.mp legible
      obtain ⟨frontLegible, backLegible⟩ := Bool.and_eq_true_iff.mp bothLegible
      have backWritten : Lexed (back.layout groups 1 ++ rest) _ :=
        back_ih spelledBack backLegible Nat.one_pos later
          fun ends => stops (Bool.or_eq_true_iff.mpr (.inl ends))
      rw [Derivation.layout, Derivation.tokens, List.map_append, List.append_assoc,
        List.append_assoc]
      apply front_ih spelledFront frontLegible Nat.one_pos backWritten
      -- Behind the front stands what the back is written as, or the rest if that is nothing.
      intro frontEnds
      have starts : last.startsApart = true := by
        rw [frontEnds] at meets
        exact meets
      apply stops_layout back spelledBack backLegible (.inl starts)
      intro backNullable
      have bothEnd := Bool.and_eq_true_iff.mpr ⟨backNullable, frontEnds⟩
      exact stops (Bool.or_eq_true_iff.mpr (.inr bothEnd))
  | left inner ih =>
      exact ih spelled (Bool.and_eq_true_iff.mp legible).1 Nat.one_pos later
        fun ends => stops (Bool.or_eq_true_iff.mpr (.inl ends))
  | right inner ih =>
      exact ih spelled (Bool.and_eq_true_iff.mp legible).2 Nat.one_pos later
        fun ends => stops (Bool.or_eq_true_iff.mpr (.inr ends))
  | present inner ih => exact ih spelled legible Nat.one_pos later stops
  | more first others first_ih others_ih =>
      obtain ⟨spelledFirst, spelledOthers⟩ := List.forall_mem_append.mp spelled
      rw [Derivation.layout, Derivation.tokens, List.map_append, List.append_assoc,
        List.append_assoc]
      apply first_ih spelledFirst (Bool.and_eq_true_iff.mp legible).1 counted
      · exact others_ih spelledOthers legible (Nat.succ_pos index) later stops
      · exact stops_others others spelledOthers legible (Nat.succ_lt_succ counted) stops
  | several first others first_ih others_ih =>
      obtain ⟨spelledFirst, spelledOthers⟩ := List.forall_mem_append.mp spelled
      rw [Derivation.layout, Derivation.tokens, List.map_append, List.append_assoc,
        List.append_assoc]
      apply first_ih spelledFirst (Bool.and_eq_true_iff.mp legible).1 Nat.one_pos
      · exact others_ih spelledOthers legible (Nat.succ_pos 1) later stops
      · exact stops_others others spelledOthers legible (Nat.lt_succ_self 1) stops

end Grammar
end GrammarBook
