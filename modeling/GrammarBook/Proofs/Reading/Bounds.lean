import GrammarBook.Proofs.Reading.Completeness

namespace GrammarBook
namespace Reading

open Grammar

/-!
# The bounds are never met

Rows are bounded by the pending tokens, and so is the depth of terms and patterns. Every part of a
row takes a token, and so does every level before it goes down. Neither bound is ever met then: a row
is a part with a row behind it, and a production is read along its form at any depth that the pending
tokens allow. `Carries` turns these two laws into an induction over reading that has no bounds left.
-/

/-! ## Rows -/

/-- A token is taken for whatever the reader finds. -/
def Progresses {α : Type} (reader : Reader α) : Prop :=
  ∀ {cursor : Cursor} {value : α} {rest : Cursor}, reader cursor = .found value rest →
    rest.pending.length < cursor.pending.length

theorem Honest.progresses {form : Form} {reader : Reader form.Meaning} {committed : Bool}
    (honest : Honest form committed reader) (full : form.isNullable = false) :
    Progresses reader := by
  intro cursor value rest outcome
  have answer := honest cursor
  rw [outcome] at answer
  obtain ⟨derivation, _, taken⟩ := answer
  have some := List.length_pos_iff.mpr (derivation.tokens_ne_nil full)
  rw [taken, List.length_append]
  omega

section Rows

variable {α : Type} {part : Reader α}

theorem rowUpTo_ne_absent (bound : Nat) (cursor rest : Cursor) :
    part.rowUpTo bound cursor ≠ .absent rest := by
  induction bound generalizing cursor rest with
  | zero =>
      intro same
      cases same
  | succ bound ih =>
      simp only [Reader.rowUpTo]
      cases part cursor with
      | absent behind | rejected cause behind =>
          intro same
          cases same
      | found value behind =>
          simp only
          cases others : part.rowUpTo bound behind with
          | absent later => exact absurd others (ih behind later)
          | found values later | rejected cause later =>
              intro same
              cases same

/-- All bounds on a row that exceed the pending tokens are the same. -/
theorem rowUpTo_eq (progresses : Progresses part) {bound bound' : Nat} {cursor : Cursor}
    (fits : cursor.pending.length < bound) (fits' : cursor.pending.length < bound') :
    part.rowUpTo bound cursor = part.rowUpTo bound' cursor := by
  induction bound generalizing bound' cursor with
  | zero => exact absurd fits (Nat.not_lt_zero _)
  | succ bound ih =>
      obtain ⟨bound', rfl⟩ := Nat.exists_eq_succ_of_ne_zero (Nat.ne_zero_of_lt fits')
      simp only [Reader.rowUpTo]
      cases outcome : part cursor with
      | absent behind | rejected cause behind => rfl
      | found value behind =>
          have shorter := progresses outcome
          have same : part.rowUpTo bound behind = part.rowUpTo bound' behind :=
            ih (by omega) (by omega)
          simp only [same]

/-- A row is a part with a row behind it, or nothing. -/
theorem row_eq (progresses : Progresses part) : part.row = part.row1.orElse (Reader.found []) := by
  funext cursor
  cases outcome : part cursor with
  | absent behind | rejected cause behind =>
      simp only [Reader.row, Reader.rowUpTo, Reader.row1, Reader.orElse, bind, Reader.andThen,
        outcome, Reader.found]
  | found value behind =>
      have same : part.rowUpTo cursor.pending.length behind = part.row behind :=
        rowUpTo_eq progresses (progresses outcome) (Nat.lt_succ_self _)
      simp only [Reader.row1, Reader.orElse, bind, Reader.andThen, outcome, ← same]
      simp only [Reader.row, Reader.rowUpTo, outcome]
      cases others : part.rowUpTo cursor.pending.length behind with
      | absent later => exact absurd others (rowUpTo_ne_absent _ behind later)
      | found values later | rejected cause later => rfl

end Rows

/-! ## What is read next -/

theorem leads_subset_parts (form : Form) : leads form ⊆ parts form := by
  induction form with
  | token | mark | bullet | empty | part => exact List.Subset.refl _
  | next first rest ihFirst ihRest =>
      intro part member
      rcases List.mem_append.mp member with atFirst | atRest
      · exact List.mem_append_left _ (ihFirst atFirst)
      · split at atRest
        · exact List.mem_append_right _ (ihRest atRest)
        · cases atRest
  | either left right ihLeft ihRight =>
      intro part member
      rcases List.mem_append.mp member with atLeft | atRight
      · exact List.mem_append_left _ (ihLeft atLeft)
      · exact List.mem_append_right _ (ihRight atRight)
  | optional form ih | many form ih | several form ih => exact ih

theorem ne_document_of_mem_parts {part production : Production}
    (member : part ∈ parts (form production)) : part ≠ .document := by
  revert part
  cases production <;> decide

/-- All is as wanted that reading along a form may come to: what it begins with where no more tokens
are pending than the bound, and its other parts where there are fewer. -/
structure Ready (wanted : Production → Cursor → Prop) (form : Form) (bound : Nat) : Prop where
  here : ∀ part ∈ leads form, ∀ cursor : Cursor, cursor.pending.length ≤ bound → wanted part cursor
  later : ∀ part ∈ parts form, ∀ cursor : Cursor, cursor.pending.length < bound → wanted part cursor

namespace Ready

variable {wanted : Production → Cursor → Prop} {first rest one other : Form} {bound : Nat}

theorem front (ready : Ready wanted (.next first rest) bound) : Ready wanted first bound where
  here part member := ready.here part (List.mem_append_left _ member)
  later part member := ready.later part (List.mem_append_left _ member)

theorem left (ready : Ready wanted (.either one other) bound) : Ready wanted one bound where
  here part member := ready.here part (List.mem_append_left _ member)
  later part member := ready.later part (List.mem_append_left _ member)

theorem right (ready : Ready wanted (.either one other) bound) : Ready wanted other bound where
  here part member := ready.here part (List.mem_append_right _ member)
  later part member := ready.later part (List.mem_append_right _ member)

/-- Behind the first part of a row the second is next, with fewer tokens unless the first may have
taken none. -/
theorem back (ready : Ready wanted (.next first rest) bound) {cursor behind : Cursor}
    (begun : Derivation first) (taken : cursor.pending = begun.tokens ++ behind.pending)
    (fits : cursor.pending.length ≤ bound) : Ready wanted rest behind.pending.length := by
  rw [taken, List.length_append] at fits
  constructor
  · intro part member later shorter
    cases nullable : first.isNullable with
    | true =>
        refine ready.here part ?_ later (by omega)
        rw [leads, if_pos nullable]
        exact List.mem_append_right _ member
    | false =>
        have some := List.length_pos_iff.mpr (begun.tokens_ne_nil nullable)
        exact ready.later part (List.mem_append_right _ (leads_subset_parts rest member)) later
          (by omega)
  · intro part member later shorter
    exact ready.later part (List.mem_append_right _ member) later (by omega)

end Ready

/-- What holds of a production where it holds of its parts with fewer tokens pending, and of those it
begins with, holds of every production that is a part. -/
theorem production_induction {wanted : Production → Cursor → Prop}
    (step : ∀ production cursor, production ≠ .document →
      Ready wanted (form production) cursor.pending.length → wanted production cursor)
    (production : Production) (isPart : production ≠ .document) (cursor : Cursor) :
    wanted production cursor := by
  induction size : cursor.pending.length using Nat.strongRecOn generalizing production cursor with
  | ind length ihLength =>
      induction ranked : rank production using Nat.strongRecOn generalizing production cursor with
      | ind bound ihRank =>
          subst size ranked
          refine step production cursor isPart ⟨?_, ?_⟩
          · intro part member behind fits
            have partIsPart := ne_document_of_mem_parts (leads_subset_parts _ member)
            rcases Nat.lt_or_eq_of_le fits with shorter | same
            · exact ihLength _ shorter part partIsPart behind rfl
            · exact ihRank (rank part) (leads_form member).1 part partIsPart behind same rfl
          · intro part member behind shorter
            exact ihLength _ shorter part (ne_document_of_mem_parts member) behind rfl

/-! ## The depth of terms and patterns -/

/-- The level is deep enough to read the production at the cursor. -/
def Level.Fits : Level → Production → Cursor → Prop
  | outer, _, _ => True
  | inner depth, production, cursor =>
    isOutward production = false ∧ cursor.pending.length ≤ depth ∧
      (isNested production = true → cursor.pending.length < depth)

theorem Level.Fits.isOpen {level : Level} {production : Production} {cursor : Cursor}
    (fits : level.Fits production cursor) (nested : isNested production = true) : IsOpen level := by
  rintro rfl
  exact absurd (fits.2.2 nested) (Nat.not_lt_zero _)

/-- What is next in a production is fit to be read at the level under it. -/
theorem Level.Fits.below {level : Level} {production part : Production} {cursor behind : Cursor}
    (fits : level.Fits production cursor) (member : part ∈ parts (form production))
    (shorter : behind.pending.length ≤ cursor.pending.length)
    (nestedLater : isNested part = true →
      isOutward production = true ∨ behind.pending.length < cursor.pending.length) :
    (below level production cursor).Fits part behind := by
  rw [Reading.below]
  cases outward : isOutward production with
  | true => exact True.intro
  | false =>
      have inward := isOutward_of_mem_parts member outward
      rw [outward] at nestedLater
      have less : isNested part = true → behind.pending.length < cursor.pending.length :=
        fun nested => (nestedLater nested).resolve_left Bool.false_ne_true
      cases nested : isNested production with
      | true =>
          cases level with
          | outer => exact ⟨inward, shorter, less⟩
          | inner depth =>
              have deeper := fits.2.2 nested
              refine ⟨inward, ?_, fun isNested => ?_⟩
              · omega
              · have := less isNested
                omega
      | false =>
          cases level with
          | outer => exact True.intro
          | inner depth =>
              exact ⟨inward, Nat.le_trans shorter fits.2.1,
                fun isNested => Nat.lt_of_lt_of_le (less isNested) fits.2.1⟩

section Congr

variable {readers readers' : (part : Production) → Reader (Meaning part)}

theorem demand_congr {α : Type} {one other : Reader α} {cursor : Cursor}
    (same : one cursor = other cursor) (production : Production) (committed : Bool) :
    demand production committed one cursor = demand production committed other cursor := by
  cases committed with
  | false => exact same
  | true => simp only [demand, if_true, Reader.required, Reader.orElse, same]

theorem rowUpTo_congr {form : Form} {one other : Reader form.Meaning}
    (honest : Honest form false other) {bound : Nat}
    (same : ∀ cursor : Cursor, cursor.pending.length ≤ bound → one cursor = other cursor)
    (most : Nat) {cursor : Cursor} (fits : cursor.pending.length ≤ bound) :
    one.rowUpTo most cursor = other.rowUpTo most cursor := by
  induction most generalizing cursor with
  | zero => rfl
  | succ most ih =>
      have answer := honest cursor
      simp only [Reader.rowUpTo, same cursor fits]
      cases outcome : other cursor with
      | absent behind | rejected cause behind => rfl
      | found value behind =>
          rw [outcome] at answer
          obtain ⟨derivation, _, taken⟩ := answer
          rw [taken, List.length_append] at fits
          simp only [ih (Nat.le_trans (Nat.le_add_left _ _) fits)]

/-- Readers that agree on what reading along a form may come to agree on the form. -/
theorem read_congr (production : Production) {form : Form}
    (honest : ∀ part ∈ parts form, Honest (.part part) false (readers' part)) {bound : Nat}
    (ready : Ready (fun part cursor => readers part cursor = readers' part cursor) form bound)
    (committed : Bool) {cursor : Cursor} (fits : cursor.pending.length ≤ bound) :
    read readers production committed form cursor =
      read readers' production committed form cursor := by
  induction form generalizing bound committed cursor with
  | token | mark | bullet | empty => rfl
  | part part =>
      exact demand_congr (ready.here part (List.mem_singleton_self part) cursor fits) production
        committed
  | next first rest ihFirst ihRest =>
      have honestFirst := fun part member => honest part (List.mem_append_left _ member)
      have answer := honest_read production first honestFirst committed cursor
      simp only [read, bind, Reader.andThen, ihFirst honestFirst ready.front committed fits]
      cases outcome : read readers' production committed first cursor with
      | absent behind | rejected cause behind => rfl
      | found value behind =>
          rw [outcome] at answer
          obtain ⟨begun, _, taken⟩ := answer
          -- For the rest the bound is what the front has left, which may be less.
          simp only [ihRest (fun part member => honest part (List.mem_append_right _ member))
            (ready.back begun taken fits) _ (Nat.le_refl _)]
  | either left right ihLeft ihRight =>
      have honestLeft := fun part member => honest part (List.mem_append_left _ member)
      have answer := honest_read production left honestLeft false cursor
      refine demand_congr ?_ production committed
      simp only [Reader.orElse, Functor.map, Reader.andThen, ihLeft honestLeft ready.left false fits]
      cases outcome : read readers' production false left cursor with
      | found value behind | rejected cause behind => rfl
      | absent behind =>
          rw [outcome] at answer
          rw [← answer.2] at fits
          simp only [ihRight (fun part member => honest part (List.mem_append_right _ member))
            ready.right false fits]
          rfl
  | optional form ih =>
      have same := ih honest ⟨ready.here, ready.later⟩ false fits
      simp only [read, Reader.optional, same]
      rfl
  | many form ih =>
      have same := fun cursor => @ih honest bound ⟨ready.here, ready.later⟩ false cursor
      exact rowUpTo_congr (honest_read production form honest false) same _ fits
  | several form ih =>
      have same := fun cursor => @ih honest bound ⟨ready.here, ready.later⟩ false cursor
      have honestForm := honest_read production form honest false
      have answer := honestForm cursor
      refine demand_congr ?_ production committed
      simp only [Reader.row1, bind, Reader.andThen, same cursor fits]
      cases outcome : read readers' production false form cursor with
      | absent behind | rejected cause behind => rfl
      | found value behind =>
          rw [outcome] at answer
          obtain ⟨begun, _, taken⟩ := answer
          rw [taken, List.length_append] at fits
          have sameRow := rowUpTo_congr honestForm same (behind.pending.length + 1)
            (Nat.le_trans (Nat.le_add_left _ _) fits)
          simp only [Reader.row, sameRow]
          rfl

end Congr

/-- At every level that fits, the production is read along its form without a bound. -/
def IsUnbounded (production : Production) (cursor : Cursor) : Prop :=
  ∀ level : Level, level.Fits production cursor → reader level production cursor =
    (build production <$> read (reader .outer) production false (form production)) cursor

theorem IsUnbounded.reader_eq_outer {production : Production} {cursor : Cursor}
    (unbounded : IsUnbounded production cursor) {level : Level}
    (fits : level.Fits production cursor) :
    reader level production cursor = reader .outer production cursor :=
  (unbounded level fits).trans (unbounded .outer True.intro).symm

theorem isUnbounded (production : Production) (isPart : production ≠ .document)
    (cursor : Cursor) : IsUnbounded production cursor := by
  apply production_induction _ production isPart cursor
  intro production cursor isPart ready level fits
  have alike : Ready (fun part behind =>
      reader (below level production cursor) part behind = reader .outer part behind)
      (form production) cursor.pending.length := by
    constructor
    · intro part member behind shorter
      apply (ready.here part member behind shorter).reader_eq_outer
      exact fits.below (leads_subset_parts _ member) shorter
        fun nested => Or.inl ((leads_form member).2 nested)
    · intro part member behind shorter
      apply (ready.later part member behind shorter).reader_eq_outer
      exact fits.below member (Nat.le_of_lt shorter) fun _ => Or.inr shorter
  have same := read_congr production (fun part _ => honestAt_outer part) alike false (Nat.le_refl _)
  rw [reader_eq level production isPart fits.isOpen]
  simp only [Functor.map, Reader.andThen, same]

/-- A production is its form, read along it without a bound. -/
theorem reader_outer_eq (production : Production) (isPart : production ≠ .document) :
    reader .outer production =
      build production <$> read (reader .outer) production false (form production) :=
  funext fun cursor => isUnbounded production isPart cursor .outer True.intro

/-! ## Induction over reading -/

/-- What holds of the readers of a form at a cursor passes from the pieces of a reading to the
whole. -/
structure Carries (holds : (form : Form) → Reader form.Meaning → Cursor → Prop) : Prop where
  token : ∀ kind cursor, holds (.token kind) (token kind) cursor
  mark : ∀ text cursor, holds (.mark text) (delimiter text) cursor
  bullet : ∀ cursor, holds .bullet bullet cursor
  empty : ∀ cursor, holds .empty (pure ()) cursor
  build : ∀ {production : Production} {reader : Reader (form production).Meaning} {cursor : Cursor},
    holds (form production) reader cursor → holds (.part production) (build production <$> reader) cursor
  required : ∀ {form : Form} {reader : Reader form.Meaning} {cursor : Cursor}
    (production : Production), Honest form false reader → holds form reader cursor →
    holds form (reader.required production) cursor
  next : ∀ {first rest : Form} {committed : Bool} {front : Reader first.Meaning}
    {back : first.Meaning → Reader rest.Meaning} {cursor : Cursor}, Honest first committed front →
    holds first front cursor →
    (∀ found behind, front cursor = .found found behind → holds rest (back found) behind) →
    holds (.next first rest) (do
      let found ← front
      let others ← back found
      pure (found, others)) cursor
  either : ∀ {left right : Form} {one : Reader left.Meaning} {other : Reader right.Meaning}
    {cursor : Cursor}, Honest left false one → holds left one cursor →
    (∀ behind, one cursor = .absent behind → holds right other behind) →
    holds (.either left right) ((Sum.inl <$> one).orElse (Sum.inr <$> other)) cursor
  optional : ∀ {form : Form} {reader : Reader form.Meaning} {cursor : Cursor},
    holds form reader cursor → holds (.optional form) reader.optional cursor
  many : ∀ {form : Form} {reader : Reader form.Meaning} {cursor : Cursor},
    holds (.several form) reader.row1 cursor →
    holds (.many form) (reader.row1.orElse (Reader.found [])) cursor
  several : ∀ {form : Form} {reader : Reader form.Meaning} {cursor : Cursor},
    Honest form false reader → holds form reader cursor →
    (∀ found behind, reader cursor = .found found behind → holds (.many form) reader.row behind) →
    holds (.several form) reader.row1 cursor

namespace Carries

variable {holds : (form : Form) → Reader form.Meaning → Cursor → Prop}

theorem demand (carries : Carries holds) {form : Form} {reader : Reader form.Meaning}
    {cursor : Cursor} (production : Production) (committed : Bool)
    (honest : Honest form false reader) (holdsReader : holds form reader cursor) :
    holds form (demand production committed reader) cursor := by
  cases committed with
  | false => exact holdsReader
  | true => exact carries.required production honest holdsReader

/-- A row holds where its part does, with any fewer tokens pending. -/
theorem row (carries : Carries holds) {form : Form} {reader : Reader form.Meaning}
    (full : form.isNullable = false) (honest : Honest form false reader) {bound : Nat}
    (holdsPart : ∀ cursor : Cursor, cursor.pending.length ≤ bound → holds form reader cursor)
    {cursor : Cursor} (fits : cursor.pending.length ≤ bound) :
    holds (.many form) reader.row cursor := by
  induction size : cursor.pending.length using Nat.strongRecOn generalizing cursor with
  | ind length ih =>
      subst size
      rw [row_eq (honest.progresses full)]
      apply carries.many
      apply carries.several honest (holdsPart cursor fits)
      intro found behind outcome
      have shorter := honest.progresses full outcome
      exact ih behind.pending.length shorter (by omega) rfl

/-- What passes to the whole holds along a form that is ready for it. -/
theorem along (carries : Carries holds) (production : Production) {form : Form}
    (clear : form.isClear = true) {bound : Nat}
    (ready : Ready (fun part => holds (.part part) (reader .outer part)) form bound)
    (committed : Bool) {cursor : Cursor} (fits : cursor.pending.length ≤ bound) :
    holds form (read (reader .outer) production committed form) cursor := by
  have honest : ∀ (form : Form) (committed : Bool),
      Honest form committed (read (reader .outer) production committed form) :=
    fun form => honest_read production form fun part _ => honestAt_outer part
  induction form generalizing bound committed cursor with
  | token kind => exact carries.demand _ _ (honest_token kind) (carries.token kind cursor)
  | mark text => exact carries.demand _ _ (honest_delimiter text) (carries.mark text cursor)
  | bullet => exact carries.demand _ _ honest_bullet (carries.bullet cursor)
  | part part =>
      exact carries.demand _ _ (honestAt_outer part)
        (ready.here part (List.mem_singleton_self part) cursor fits)
  | empty => exact carries.empty cursor
  | next first rest ihFirst ihRest =>
      simp only [Form.isClear, Bool.and_eq_true] at clear
      apply carries.next (honest first committed) (ihFirst clear.1.1 ready.front committed fits)
      intro found behind outcome
      have answer := honest first committed cursor
      rw [outcome] at answer
      obtain ⟨begun, _, taken⟩ := answer
      exact ihRest clear.1.2 (ready.back begun taken fits) _ (Nat.le_refl _)
  | either left right ihLeft ihRight =>
      simp only [Form.isClear, Bool.and_eq_true] at clear
      refine carries.demand _ _ (honest_either (honest left false) (honest right false)) ?_
      apply carries.either (honest left false) (ihLeft clear.1.1.1.1 ready.left false fits)
      intro behind outcome
      have answer := honest left false cursor
      rw [outcome] at answer
      apply ihRight clear.1.1.1.2 ready.right false
      rw [answer.2]
      exact fits
  | optional form ih =>
      simp only [Form.isClear, Bool.and_eq_true] at clear
      exact carries.optional (ih clear.1 ⟨ready.here, ready.later⟩ false fits)
  | many form ih =>
      simp only [Form.isClear, Bool.and_eq_true, Bool.not_eq_true'] at clear
      exact carries.row clear.1.2 (honest form false)
        (fun _ fits => ih clear.1.1 ⟨ready.here, ready.later⟩ false fits) fits
  | several form ih =>
      simp only [Form.isClear, Bool.and_eq_true, Bool.not_eq_true'] at clear
      have holdsPart := fun (cursor : Cursor) (fits : cursor.pending.length ≤ bound) =>
        ih clear.1.1 ⟨ready.here, ready.later⟩ false fits
      refine carries.demand _ _ (honest_row1 (honest form false)) ?_
      apply carries.several (honest form false) (holdsPart cursor fits)
      intro found behind outcome
      have shorter := (honest form false).progresses clear.1.2 outcome
      exact carries.row clear.1.2 (honest form false) holdsPart (by omega)

/-- What passes to the whole holds of every production. -/
theorem part (carries : Carries holds) (production : Production) (isPart : production ≠ .document)
    (cursor : Cursor) : holds (.part production) (reader .outer production) cursor := by
  apply production_induction (fun production cursor isPart ready => ?_) production isPart cursor
  rw [reader_outer_eq production isPart]
  exact carries.build
    (carries.along production (isClear_form production) ready false (Nat.le_refl _))

/-- What passes to the whole holds of a document. -/
theorem document (carries : Carries holds) (cursor : Cursor) :
    holds (form .document) (read (reader .outer) .document true (form .document)) cursor := by
  apply carries.along .document (isClear_form .document) _ true (Nat.le_refl _)
  constructor
  · intro part member behind _
    exact carries.part part (ne_document_of_mem_parts (leads_subset_parts _ member)) behind
  · intro part member behind _
    exact carries.part part (ne_document_of_mem_parts member) behind

end Carries

end Reading
end GrammarBook
