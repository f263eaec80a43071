import GrammarBook.Proofs.Reading.Acceptance

namespace GrammarBook
namespace Reading

open Grammar

/-!
# Beginnings of documents

Tokens are viable when some document begins with them. A reader that takes one token after another
works on a phrase that is not complete yet, so what has to be known of a form is that every phrase of
it can be begun and that a begun phrase can be completed.
-/

/-- The tokens are accepted: they end with their source and a document is read of them. -/
def IsAccepted (tokens : List Token) : Prop :=
  EndsInEof tokens ∧ ∃ found rest, document (.start tokens) = .found found rest

/-- Some accepted tokens begin with the given ones. -/
def IsViable (tokens : List Token) : Prop :=
  ∃ stream, IsAccepted stream ∧ tokens <+: stream

theorem IsViable.of_prefix {shorter longer : List Token} (viable : IsViable longer)
    (begins : shorter <+: longer) : IsViable shorter := by
  obtain ⟨stream, accepted, longerBegins⟩ := viable
  exact ⟨stream, accepted, begins.trans longerBegins⟩

/-! ## Kinds of tokens in a phrase -/

/-- The form asks for a token of the kind by itself, whatever its parts ask for. -/
def asksFor (kind : Kind) : Form → Bool
  | .token wanted => wanted == kind
  | .mark _ => kind == .delimiter
  | .bullet => kind == .newline || kind == .delimiter
  | .part _ | .empty => false
  | .next left right | .either left right => asksFor kind left || asksFor kind right
  | .optional form | .many form | .several form => asksFor kind form

/-- A kind that nothing asks for is in no phrase. -/
theorem kind_ne_of_asksFor {kind : Kind}
    (unasked : ∀ production, production ≠ .document → asksFor kind (form production) = false)
    {form : Form} (derivation : Derivation form) (clear : form.isClear = true)
    (formUnasked : asksFor kind form = false) : ∀ token ∈ derivation.tokens, token.kind ≠ kind := by
  induction derivation with
  | token leaf fits =>
      rintro token member rfl
      cases List.mem_singleton.mp member
      rw [asksFor, fits, beq_self_eq_true] at formUnasked
      cases formUnasked
  | mark leaf fits =>
      rintro token member rfl
      cases List.mem_singleton.mp member
      rw [asksFor, fits.1] at formUnasked
      cases formUnasked
  | bullet newline dash ends fits =>
      rw [asksFor, Bool.or_eq_false_iff] at formUnasked
      rintro token member rfl
      rcases List.mem_cons.mp member with rfl | isDash
      · rw [ends] at formUnasked
        cases formUnasked.1
      · cases List.mem_singleton.mp isDash
        rw [fits.1] at formUnasked
        cases formUnasked.2
  | @part production inner ih =>
      exact ih (isClear_form production) (unasked production (bne_iff_ne.mp clear))
  | empty | absent | done => nofun
  | next front back ihFront ihBack =>
      simp only [Form.isClear, Bool.and_eq_true] at clear
      rw [asksFor, Bool.or_eq_false_iff] at formUnasked
      intro token member
      rcases List.mem_append.mp member with atFront | atBack
      · exact ihFront clear.1.1 formUnasked.1 token atFront
      · exact ihBack clear.1.2 formUnasked.2 token atBack
  | left inner ih =>
      simp only [Form.isClear, Bool.and_eq_true] at clear
      exact ih clear.1.1.1.1 (Bool.or_eq_false_iff.mp formUnasked).1
  | right inner ih =>
      simp only [Form.isClear, Bool.and_eq_true] at clear
      exact ih clear.1.1.1.2 (Bool.or_eq_false_iff.mp formUnasked).2
  | present inner ih =>
      simp only [Form.isClear, Bool.and_eq_true] at clear
      exact ih clear.1 formUnasked
  | more first others ihFirst ihOthers | several first others ihFirst ihOthers =>
      have parts := clear
      simp only [Form.isClear, Bool.and_eq_true] at parts
      intro token member
      rcases List.mem_append.mp member with atFirst | atOthers
      · exact ihFirst parts.1.1 formUnasked token atFirst
      · exact ihOthers clear formUnasked token atOthers

/-- No phrase has an illegal token. -/
theorem kind_ne_error {form : Form} (derivation : Derivation form) (clear : form.isClear = true)
    (unasked : asksFor .error form = false) : ∀ token ∈ derivation.tokens, token.kind ≠ .error :=
  kind_ne_of_asksFor (by intro production _; cases production <;> rfl) derivation clear unasked

theorem EndsInEof.behind {form : Form} {tokens : List Token} (ends : EndsInEof tokens)
    (derivation : Derivation form) (clear : form.isClear = true)
    (unasked : asksFor .eof form = false) : EndsInEof (derivation.tokens ++ tokens) := by
  obtain ⟨body, last, rfl, isEof, onlyLast⟩ := ends
  refine ⟨derivation.tokens ++ body, last, (List.append_assoc ..).symm, isEof, ?_⟩
  intro token member
  rcases List.mem_append.mp member with before | inBody
  · apply kind_ne_of_asksFor _ derivation clear unasked token before
    intro production isPart
    cases production <;> first | rfl | exact absurd rfl isPart
  · exact onlyLast token inBody

/-- The end of the source stands last in a document, and nowhere else. -/
theorem endsInEof_tokens (derivation : Derivation (form .document)) :
    EndsInEof derivation.tokens := by
  match derivation with
  | .next notice (.next spaces (.next leading (.next spaces' (.next rules (.next trailing
      (.next spaces'' (.next expressions (.next (.token leaf fits) .empty)))))))) =>
    have ends : EndsInEof [leaf] := ⟨[], leaf, rfl, fits, nofun⟩
    exact (((((((ends.behind expressions rfl rfl).behind spaces'' rfl rfl).behind trailing rfl
      rfl).behind rules rfl rfl).behind spaces' rfl rfl).behind leading rfl rfl).behind spaces rfl
      rfl).behind notice rfl rfl

theorem isAccepted_iff {tokens : List Token} :
    IsAccepted tokens ↔ ∃ derivation : Derivation (form .document), derivation.tokens = tokens := by
  constructor
  · rintro ⟨ends, found, rest, reads⟩
    obtain ⟨derivation, taken, _⟩ :=
      (document_found_iff tokens found rest.pending).mp ⟨rest, reads, rfl⟩
    rw [rest_eq_nil derivation ends taken.symm, List.append_nil] at taken
    exact ⟨derivation, taken⟩
  · rintro ⟨derivation, rfl⟩
    obtain ⟨rest, reads, _⟩ := document_complete derivation
      ((Cursor.pending_start _).trans (List.append_nil _).symm)
    exact ⟨endsInEof_tokens derivation, _, rest, reads⟩

/-! ## Phrases begun -/

/-- Some phrase of the form begins with the tokens. -/
def IsBegun (form : Form) (tokens : List Token) : Prop :=
  ∃ derivation : Derivation form, tokens <+: derivation.tokens

theorem isViable_iff {tokens : List Token} : IsViable tokens ↔ IsBegun (form .document) tokens := by
  constructor
  · rintro ⟨stream, accepted, begins⟩
    obtain ⟨derivation, rfl⟩ := isAccepted_iff.mp accepted
    exact ⟨derivation, begins⟩
  · rintro ⟨derivation, begins⟩
    exact ⟨derivation.tokens, isAccepted_iff.mpr ⟨derivation, rfl⟩, begins⟩

/-- A form whose parts have phrases has one. -/
theorem nonempty_of_parts (form : Form)
    (inhabited : ∀ part ∈ parts form, Nonempty (Derivation (.part part))) :
    Nonempty (Derivation form) := by
  induction form with
  | token kind => exact ⟨leaf kind "" 1 1⟩
  | mark text => exact ⟨sign text 1 1⟩
  | bullet => exact ⟨.bullet ⟨.newline, "\n", ⟨1, 1⟩⟩ ⟨.delimiter, "-", ⟨2, 1⟩⟩ rfl ⟨rfl, rfl⟩⟩
  | part production => exact inhabited production (List.mem_singleton_self production)
  | empty => exact ⟨.empty⟩
  | next first rest ihFirst ihRest =>
      obtain ⟨front⟩ := ihFirst fun part member => inhabited part (List.mem_append_left _ member)
      obtain ⟨back⟩ := ihRest fun part member => inhabited part (List.mem_append_right _ member)
      exact ⟨.next front back⟩
  | either left right ihLeft _ =>
      obtain ⟨inner⟩ := ihLeft fun part member => inhabited part (List.mem_append_left _ member)
      exact ⟨.left inner⟩
  | optional form _ => exact ⟨.absent⟩
  | many form _ => exact ⟨.done⟩
  | several form ih =>
      obtain ⟨first⟩ := ih inhabited
      exact ⟨.several first .done⟩

/-- Every production has a phrase. Terms and patterns have one without brackets, on which all
others rest. -/
theorem nonempty_part (production : Production) : Nonempty (Derivation (.part production)) := by
  have term : Nonempty (Derivation (.part .term)) :=
    ⟨.part (.right (.right (leaf .literal "\"x\"" 1 1)))⟩
  have pattern : Nonempty (Derivation (.part .pattern)) := by
    have atom : Derivation (form .text) := .right (.left (leaf .intrinsic "ANY" 1 1))
    have repetition : Derivation (form .repetition) :=
      .next (.part (.right (.right (.part atom)))) (.next .absent .empty)
    exact ⟨.part (.next (.part (.next (.several (.part repetition) .done) .empty))
      (.next .done .empty))⟩
  induction ranked : rank production using Nat.strongRecOn generalizing production with
  | ind bound ih =>
      subst ranked
      obtain ⟨inner⟩ := nonempty_of_parts (form production) fun part member => by
        rcases rank_lt_of_mem_parts member with lower | ⟨isTerm, _⟩ | ⟨isPattern, _⟩
        · exact ih (rank part) lower part rfl
        · exact isTerm ▸ term
        · exact isPattern ▸ pattern
      exact ⟨.part inner⟩

theorem nonempty_derivation (form : Form) : Nonempty (Derivation form) :=
  nonempty_of_parts form fun part _ => nonempty_part part

namespace IsBegun

variable {form first rest left right : Form} {tokens : List Token}

theorem nil (form : Form) : IsBegun form [] := by
  obtain ⟨derivation⟩ := nonempty_derivation form
  exact ⟨derivation, List.nil_prefix⟩

theorem part {production : Production} (begun : IsBegun (Grammar.form production) tokens) :
    IsBegun (.part production) tokens := by
  obtain ⟨inner, begins⟩ := begun
  exact ⟨.part inner, begins⟩

theorem front (begun : IsBegun first tokens) : IsBegun (.next first rest) tokens := by
  obtain ⟨inner, begins⟩ := begun
  obtain ⟨later⟩ := nonempty_derivation rest
  exact ⟨.next inner later, begins.trans (List.prefix_append ..)⟩

theorem back (inner : Derivation first) (begun : IsBegun rest tokens) :
    IsBegun (.next first rest) (inner.tokens ++ tokens) := by
  obtain ⟨later, begins⟩ := begun
  exact ⟨.next inner later, (List.prefix_append_right_inj _).mpr begins⟩

theorem inLeft (begun : IsBegun left tokens) : IsBegun (.either left right) tokens := by
  obtain ⟨inner, begins⟩ := begun
  exact ⟨.left inner, begins⟩

theorem inRight (begun : IsBegun right tokens) : IsBegun (.either left right) tokens := by
  obtain ⟨inner, begins⟩ := begun
  exact ⟨.right inner, begins⟩

theorem present (begun : IsBegun form tokens) : IsBegun (.optional form) tokens := by
  obtain ⟨inner, begins⟩ := begun
  exact ⟨.present inner, begins⟩

theorem many (begun : IsBegun (.several form) tokens) : IsBegun (.many form) tokens := by
  obtain ⟨derivation, begins⟩ := begun
  cases derivation with
  | several inner others => exact ⟨.more inner others, begins⟩

theorem one (begun : IsBegun form tokens) : IsBegun (.several form) tokens := by
  obtain ⟨inner, begins⟩ := begun
  exact ⟨.several inner .done, begins.trans (List.prefix_append ..)⟩

theorem others (inner : Derivation form) (begun : IsBegun (.many form) tokens) :
    IsBegun (.several form) (inner.tokens ++ tokens) := by
  obtain ⟨later, begins⟩ := begun
  exact ⟨.several inner later, (List.prefix_append_right_inj _).mpr begins⟩

end IsBegun

end Reading
end GrammarBook
