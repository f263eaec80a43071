import GrammarBook.Proofs.Reading.Rejection

namespace GrammarBook
namespace Reading

open Grammar

/-!
# Reading comes to an end

Readers bound their rows and the depth of terms and patterns. `Course` goes along a form without any
bound: a row goes on for as long as its parts are found, and a part is read along its own form. It is
told step by step, where a step takes a token or hands one back, and every cursor on the way has to be
allowed. A course is a finite tree, so there is one only where every row and every recursion ends; and
there is always one, which comes to what the reader does.
-/

/-! ## Steps -/

namespace Outcome

variable {α β : Type}

/-- The outcome with something made of what was found. -/
def map (make : α → β) : Outcome α → Outcome β
  | found value rest => found (make value) rest
  | absent rest => absent rest
  | rejected cause rest => rejected cause rest

@[simp] theorem behind_map (make : α → β) (outcome : Outcome α) :
    (outcome.map make).behind = outcome.behind := by
  cases outcome <;> rfl

/-- Something was found, or reading was rejected. -/
def IsDecided (outcome : Outcome α) : Prop := ∀ rest, outcome ≠ absent rest

@[simp] theorem isDecided_found (value : α) (rest : Cursor) : (found value rest).IsDecided := by
  intro _ same
  cases same

@[simp] theorem isDecided_rejected (cause : Rejection) (rest : Cursor) :
    (rejected cause rest : Outcome α).IsDecided := by
  intro _ same
  cases same

end Outcome

theorem map_apply {α β : Type} (make : α → β) (reader : Reader α) (cursor : Cursor) :
    (make <$> reader) cursor = (reader cursor).map make := by
  simp only [Functor.map, Reader.andThen]
  cases reader cursor <;> rfl

/-- The next token is taken, or reading stops at it. -/
structure Takes (allowed : Cursor → Prop) (cursor : Cursor) (outcome : Outcome Token) : Prop where
  next : nextToken cursor = outcome
  behind : allowed outcome.behind

/-- A token is taken, and handed back unless it is wanted. -/
inductive Tries (allowed : Cursor → Prop) (wanted : Token → Prop) (cursor : Cursor) :
    Outcome Token → Prop where
  | wanted {token : Token} {rest : Cursor} (takes : Takes allowed cursor (.found token rest))
      (fits : wanted token) : Tries allowed wanted cursor (.found token rest)
  | unwanted {token : Token} {rest : Cursor} (takes : Takes allowed cursor (.found token rest))
      (misfits : ¬ wanted token) (back : allowed (rest.handBack token)) :
      Tries allowed wanted cursor (.absent (rest.handBack token))
  | stopped {cause : Rejection} {rest : Cursor} (takes : Takes allowed cursor (.rejected cause rest)) :
      Tries allowed wanted cursor (.rejected cause rest)

/-- A newline is taken and then a dash, and the newline is handed back behind another token. -/
inductive TriesBullet (allowed : Cursor → Prop) (cursor : Cursor) : Outcome Unit → Prop where
  | dashed {newline dash : Token} {middle rest : Cursor}
      (first : Tries allowed (·.kind = .newline) cursor (.found newline middle))
      (second : Tries allowed (IsMark "-") middle (.found dash rest)) :
      TriesBullet allowed cursor (.found () rest)
  | undashed {newline : Token} {middle rest : Cursor}
      (first : Tries allowed (·.kind = .newline) cursor (.found newline middle))
      (second : Tries allowed (IsMark "-") middle (.absent rest))
      (back : allowed (rest.handBack newline)) :
      TriesBullet allowed cursor (.absent (rest.handBack newline))
  | cut {newline : Token} {middle rest : Cursor} {cause : Rejection}
      (first : Tries allowed (·.kind = .newline) cursor (.found newline middle))
      (second : Tries allowed (IsMark "-") middle (.rejected cause rest)) :
      TriesBullet allowed cursor (.rejected cause rest)
  | unlined {rest : Cursor} (first : Tries allowed (·.kind = .newline) cursor (.absent rest)) :
      TriesBullet allowed cursor (.absent rest)
  | stopped {rest : Cursor} {cause : Rejection}
      (first : Tries allowed (·.kind = .newline) cursor (.rejected cause rest)) :
      TriesBullet allowed cursor (.rejected cause rest)

/-- The next token is rejected in the name of the production. -/
inductive Rejects (allowed : Cursor → Prop) (production : Production) (cursor : Cursor) :
    Rejection → Cursor → Prop where
  | unexpected {token : Token} {rest : Cursor} (takes : Takes allowed cursor (.found token rest)) :
      Rejects allowed production cursor (.unexpected token production) rest
  | stopped {cause : Rejection} {rest : Cursor} (takes : Takes allowed cursor (.rejected cause rest)) :
      Rejects allowed production cursor cause rest

/-! ## Courses -/

/-- Where the production is committed, the form has to be there. Other forms may stand for no token, or
consist of such as have to be there. -/
def isDemanded : Form → Bool
  | .token _ | .mark _ | .bullet | .part _ | .either _ _ | .several _ => true
  | .empty | .next _ _ | .optional _ | .many _ => false

/-- The course of reading along a form for a production, from a cursor through allowed ones to what
comes of it. -/
inductive Course (allowed : Cursor → Prop) : Production → (committed : Bool) → (form : Form) →
    Cursor → Outcome form.Meaning → Prop where
  | token {production : Production} {kind : Kind} {cursor : Cursor} {outcome : Outcome Token}
      (tries : Tries allowed (·.kind = kind) cursor outcome) :
      Course allowed production false (.token kind) cursor (outcome.map Token.text)
  | mark {production : Production} {text : String} {cursor : Cursor} {outcome : Outcome Token}
      (tries : Tries allowed (IsMark text) cursor outcome) :
      Course allowed production false (.mark text) cursor (outcome.map Token.text)
  | bullet {production : Production} {cursor : Cursor} {outcome : Outcome Unit}
      (tries : TriesBullet allowed cursor outcome) :
      Course allowed production false .bullet cursor outcome
  | part {production part : Production} {cursor : Cursor} {outcome : Outcome (form part).Meaning}
      (inner : Course allowed part false (form part) cursor outcome) :
      Course allowed production false (.part part) cursor (outcome.map (build part))
  | kept {production : Production} {form : Form} {cursor : Cursor} {outcome : Outcome form.Meaning}
      (demanded : isDemanded form = true) (tried : Course allowed production false form cursor outcome)
      (decided : outcome.IsDecided) : Course allowed production true form cursor outcome
  | missing {production : Production} {form : Form} {cursor behind rest : Cursor} {cause : Rejection}
      (demanded : isDemanded form = true)
      (tried : Course allowed production false form cursor (.absent behind))
      (rejects : Rejects allowed production behind cause rest) :
      Course allowed production true form cursor (.rejected cause rest)
  | empty {production : Production} {committed : Bool} {cursor : Cursor} :
      Course allowed production committed .empty cursor (.found () cursor)
  | next {production : Production} {committed : Bool} {first rest : Form} {cursor behind : Cursor}
      {found : first.Meaning} {outcome : Outcome rest.Meaning}
      (front : Course allowed production committed first cursor (.found found behind))
      (back : Course allowed production (committed || hasTaken first found) rest behind outcome) :
      Course allowed production committed (.next first rest) cursor (outcome.map (found, ·))
  | nextAbsent {production : Production} {committed : Bool} {first rest : Form}
      {cursor behind : Cursor}
      (front : Course allowed production committed first cursor (.absent behind)) :
      Course allowed production committed (.next first rest) cursor (.absent behind)
  | nextRejected {production : Production} {committed : Bool} {first rest : Form}
      {cursor behind : Cursor} {cause : Rejection}
      (front : Course allowed production committed first cursor (.rejected cause behind)) :
      Course allowed production committed (.next first rest) cursor (.rejected cause behind)
  | left {production : Production} {left right : Form} {cursor : Cursor}
      {outcome : Outcome left.Meaning}
      (inner : Course allowed production false left cursor outcome) (decided : outcome.IsDecided) :
      Course allowed production false (.either left right) cursor (outcome.map .inl)
  | right {production : Production} {left right : Form} {cursor behind : Cursor}
      {outcome : Outcome right.Meaning}
      (notLeft : Course allowed production false left cursor (.absent behind))
      (inner : Course allowed production false right behind outcome) :
      Course allowed production false (.either left right) cursor (outcome.map .inr)
  | present {production : Production} {committed : Bool} {form : Form} {cursor : Cursor}
      {outcome : Outcome form.Meaning} (inner : Course allowed production false form cursor outcome)
      (decided : outcome.IsDecided) :
      Course allowed production committed (.optional form) cursor (outcome.map some)
  | absent {production : Production} {committed : Bool} {form : Form} {cursor behind : Cursor}
      (inner : Course allowed production false form cursor (.absent behind)) :
      Course allowed production committed (.optional form) cursor (.found none behind)
  | more {production : Production} {committed : Bool} {form : Form} {cursor : Cursor}
      {outcome : Outcome (List form.Meaning)}
      (inner : Course allowed production false (.several form) cursor outcome)
      (decided : outcome.IsDecided) : Course allowed production committed (.many form) cursor outcome
  | done {production : Production} {committed : Bool} {form : Form} {cursor behind : Cursor}
      (inner : Course allowed production false (.several form) cursor (.absent behind)) :
      Course allowed production committed (.many form) cursor (.found [] behind)
  | several {production : Production} {form : Form} {cursor behind : Cursor} {found : form.Meaning}
      {outcome : Outcome (List form.Meaning)}
      (first : Course allowed production false form cursor (.found found behind))
      (others : Course allowed production true (.many form) behind outcome) :
      Course allowed production false (.several form) cursor (outcome.map (found :: ·))
  | severalAbsent {production : Production} {form : Form} {cursor behind : Cursor}
      (first : Course allowed production false form cursor (.absent behind)) :
      Course allowed production false (.several form) cursor (.absent behind)
  | severalRejected {production : Production} {form : Form} {cursor behind : Cursor}
      {cause : Rejection}
      (first : Course allowed production false form cursor (.rejected cause behind)) :
      Course allowed production false (.several form) cursor (.rejected cause behind)

/-! ## A course comes to what the reader does -/

section Agrees

variable {allowed : Cursor → Prop} {production : Production} {cursor : Cursor}

theorem Tries.tokenIf_eq {wanted : Token → Prop} {outcome : Outcome Token}
    (tries : Tries allowed wanted cursor outcome) {test : Token → Bool}
    (tests : ∀ token, test token = true ↔ wanted token) :
    tokenIf test cursor = outcome.map Token.text := by
  unfold tokenIf
  cases tries with
  | wanted takes fits =>
      rw [takes.next]
      exact if_pos ((tests _).mpr fits)
  | unwanted takes misfits =>
      rw [takes.next]
      exact if_neg fun fits => misfits ((tests _).mp fits)
  | stopped takes =>
      rw [takes.next]
      rfl

theorem Tries.token_eq {kind : Kind} {outcome : Outcome Token}
    (tries : Tries allowed (·.kind = kind) cursor outcome) :
    token kind cursor = outcome.map Token.text :=
  tries.tokenIf_eq fun _ => beq_iff_eq

theorem Tries.delimiter_eq {text : String} {outcome : Outcome Token}
    (tries : Tries allowed (IsMark text) cursor outcome) :
    delimiter text cursor = outcome.map Token.text :=
  tries.tokenIf_eq fun _ => by rw [Bool.and_eq_true, beq_iff_eq, beq_iff_eq, IsMark]

theorem TriesBullet.bullet_eq {outcome : Outcome Unit} (tries : TriesBullet allowed cursor outcome) :
    bullet cursor = outcome := by
  unfold bullet
  cases tries with
  | dashed first second =>
      obtain ⟨takes, ends⟩ := first
      obtain ⟨takes', fits⟩ := second
      simp only [takes.next, takes'.next, if_pos ends]
      exact if_pos fits
  | undashed first second =>
      obtain ⟨takes, ends⟩ := first
      obtain _ | ⟨takes', misfits⟩ := second
      simp only [takes.next, takes'.next, if_pos ends]
      exact if_neg misfits
  | cut first second =>
      obtain ⟨takes, ends⟩ := first
      obtain _ | _ | ⟨takes'⟩ := second
      simp only [takes.next, takes'.next, if_pos ends]
  | unlined first =>
      obtain _ | ⟨takes, misfits⟩ := first
      simp only [takes.next]
      exact if_neg misfits
  | stopped first =>
      obtain _ | _ | ⟨takes⟩ := first
      simp only [takes.next]

theorem Rejects.reject_eq {α : Type} {cause : Rejection} {rest : Cursor}
    (rejects : Rejects allowed production cursor cause rest) :
    (Reader.reject production : Reader α) cursor = .rejected cause rest := by
  simp only [Reader.reject, Reader.andThen]
  cases rejects with
  | unexpected takes | stopped takes => rw [takes.next]

theorem read_of_demanded {form : Form} (demanded : isDemanded form = true) :
    read (reader .outer) production true form =
      (read (reader .outer) production false form).required production := by
  cases form <;> first | rfl | cases demanded

/-- The second way is not tried where the first comes to something. -/
theorem orElse_of_decided {α : Type} {first second : Reader α} {outcome : Outcome α}
    (same : first cursor = outcome) (decided : outcome.IsDecided) :
    first.orElse second cursor = outcome := by
  rw [Reader.orElse, same]
  cases outcome with
  | absent rest => exact absurd rfl (decided rest)
  | found value rest | rejected cause rest => rfl

theorem orElse_of_absent {α : Type} {first second : Reader α} {behind : Cursor}
    (same : first cursor = .absent behind) : first.orElse second cursor = second behind := by
  rw [Reader.orElse, same]

theorem Outcome.IsDecided.map {α β : Type} {outcome : Outcome α} (decided : outcome.IsDecided)
    (make : α → β) : (outcome.map make).IsDecided := by
  cases outcome with
  | absent rest => exact absurd rfl (decided rest)
  | found value rest => exact isDecided_found _ _
  | rejected cause rest => exact isDecided_rejected _ _

/-- A row is one of at least one part, or nothing. -/
theorem read_many_eq {committed : Bool} {form : Form} (clear : (Form.many form).isClear = true) :
    read (reader .outer) production committed (.many form) =
      (read (reader .outer) production false (.several form)).orElse (Reader.found []) := by
  simp only [Form.isClear, Bool.and_eq_true, Bool.not_eq_true'] at clear
  have honest := honest_read production form (fun part _ => honestAt_outer part) false
  exact row_eq (honest.progresses clear.1.2)

/-- A row of at least one part is a part with a row behind it. -/
theorem read_several_eq (form : Form) :
    read (reader .outer) production false (.several form) =
      (read (reader .outer) production false form).andThen fun found =>
        (found :: ·) <$> read (reader .outer) production true (.many form) := rfl

end Agrees

/-- A course comes to what reading along the form does. -/
theorem Course.read_eq {allowed : Cursor → Prop} {production : Production} {committed : Bool}
    {form : Form} {cursor : Cursor} {outcome : Outcome form.Meaning}
    (course : Course allowed production committed form cursor outcome) (clear : form.isClear = true) :
    read (reader .outer) production committed form cursor = outcome := by
  induction course with
  | token tries => exact tries.token_eq
  | mark tries => exact tries.delimiter_eq
  | bullet tries => exact tries.bullet_eq
  | @part production part cursor outcome inner ih =>
      have isPart : part ≠ .document := bne_iff_ne.mp clear
      change reader .outer part cursor = _
      rw [reader_outer_eq part isPart, map_apply, ih (isClear_form part)]
      rfl
  | kept demanded tried decided ih =>
      rw [read_of_demanded demanded]
      exact orElse_of_decided (ih clear) decided
  | missing demanded tried rejects ih =>
      rw [read_of_demanded demanded]
      exact (orElse_of_absent (ih clear)).trans rejects.reject_eq
  | empty => rfl
  | @next production committed first rest cursor behind found outcome front back ihFront ihBack =>
      simp only [Form.isClear, Bool.and_eq_true] at clear
      simp only [read, bind, Reader.andThen, ihFront clear.1.1]
      rw [ihBack clear.1.2]
      cases outcome <;> rfl
  | nextAbsent front ih | nextRejected front ih =>
      simp only [Form.isClear, Bool.and_eq_true] at clear
      simp only [read, bind, Reader.andThen, ih clear.1.1]
  | left inner decided ih =>
      simp only [Form.isClear, Bool.and_eq_true] at clear
      apply orElse_of_decided _ (decided.map _)
      rw [map_apply, ih clear.1.1.1.1]
  | right notLeft inner ihLeft ihRight =>
      simp only [Form.isClear, Bool.and_eq_true] at clear
      refine (orElse_of_absent (map_absent_iff.mpr (ihLeft clear.1.1.1.1))).trans ?_
      rw [map_apply, ihRight clear.1.1.1.2]
      rfl
  | @present production committed form cursor outcome inner decided ih =>
      simp only [Form.isClear, Bool.and_eq_true] at clear
      simp only [read, Reader.optional, ih clear.1]
      cases outcome with
      | absent rest => exact absurd rfl (decided rest)
      | found value rest | rejected cause rest => rfl
  | absent inner ih =>
      simp only [Form.isClear, Bool.and_eq_true] at clear
      simp only [read, Reader.optional, ih clear.1]
      rfl
  | more inner decided ih =>
      rw [read_many_eq clear]
      exact orElse_of_decided (ih clear) decided
  | done inner ih =>
      rw [read_many_eq clear]
      exact orElse_of_absent (ih clear)
  | several first others ihFirst ihOthers =>
      have others := ihOthers clear
      simp only [Form.isClear, Bool.and_eq_true] at clear
      rw [read_several_eq, Reader.andThen, ihFirst clear.1.1]
      exact (map_apply ..).trans (congrArg _ others)
  | severalAbsent first ih | severalRejected first ih =>
      simp only [Form.isClear, Bool.and_eq_true] at clear
      rw [read_several_eq, Reader.andThen, ih clear.1.1]
      rfl

/-! ## There is always a course -/

/-- No more tokens are held than the bound. -/
def HoldsAtMost (bound : Nat) (cursor : Cursor) : Prop := cursor.held.length ≤ bound

theorem HoldsAtMost.map {α β : Type} {bound : Nat} {outcome : Outcome α}
    (holds : HoldsAtMost bound outcome.behind) (make : α → β) :
    HoldsAtMost bound (outcome.map make).behind := by
  rwa [Outcome.behind_map]

section Held

variable {allowed : Cursor → Prop} {production : Production} {cursor rest : Cursor}

theorem held_of_stopped {cause : Rejection} (stopped : nextToken cursor = .rejected cause rest) :
    rest.held = [] := by
  rcases cursor with ⟨held, ahead⟩
  unfold nextToken at stopped
  cases held with
  | cons token held => cases stopped
  | nil =>
      cases ahead with
      | nil =>
          cases stopped
          rfl
      | cons token ahead =>
          simp only at stopped
          split at stopped
          · cases stopped
            rfl
          · cases stopped

theorem Tries.behind {wanted : Token → Prop} {outcome : Outcome Token}
    (tries : Tries allowed wanted cursor outcome) : allowed outcome.behind := by
  cases tries with
  | wanted takes | stopped takes => exact takes.behind
  | unwanted takes misfits back => exact back

theorem TriesBullet.behind {outcome : Outcome Unit} (tries : TriesBullet allowed cursor outcome) :
    allowed outcome.behind := by
  cases tries with
  | dashed first second | cut first second => exact second.behind
  | undashed first second back => exact back
  | unlined first | stopped first => exact first.behind

theorem Rejects.behind {cause : Rejection} (rejects : Rejects allowed production cursor cause rest) :
    allowed rest := by
  cases rejects with
  | unexpected takes | stopped takes => exact takes.behind

/-- A token that is handed back leaves as many held as before, or one where none was. -/
theorem Tries.held_absent {wanted : Token → Prop}
    (tries : Tries allowed wanted cursor (.absent rest)) :
    rest.held.length = cursor.held.length - 1 + 1 := by
  obtain _ | ⟨takes, _⟩ := tries
  exact congrArg (· + 1) (held_of_nextToken takes.next)

theorem Tries.held_found {wanted : Token → Prop} {token : Token}
    (tries : Tries allowed wanted cursor (.found token rest)) :
    rest.held.length = cursor.held.length - 1 := by
  obtain ⟨takes, _⟩ := tries
  exact held_of_nextToken takes.next

end Held

section Exists

variable {bound : Nat} {cursor : Cursor}

theorem takes_nextToken (holds : HoldsAtMost bound cursor) :
    Takes (HoldsAtMost bound) cursor (nextToken cursor) := by
  refine ⟨rfl, ?_⟩
  unfold HoldsAtMost at holds ⊢
  rcases nextToken_cases cursor with ⟨token, rest, taken, _⟩ | ⟨cause, rest, stopped⟩
  · have fewer := held_of_nextToken taken
    rw [taken, Outcome.behind]
    omega
  · rw [stopped, Outcome.behind, held_of_stopped stopped]
    exact Nat.zero_le bound

theorem exists_tries (room : 2 ≤ bound) (holds : HoldsAtMost bound cursor) (wanted : Token → Prop) :
    ∃ outcome, Tries (HoldsAtMost bound) wanted cursor outcome := by
  have takes := takes_nextToken holds
  rcases nextToken_cases cursor with ⟨token, rest, taken, _⟩ | ⟨cause, rest, stopped⟩
  · rw [taken] at takes
    by_cases fits : wanted token
    · exact ⟨_, .wanted takes fits⟩
    · have fewer := held_of_nextToken taken
      have back : HoldsAtMost bound (rest.handBack token) := by
        simp only [HoldsAtMost, Cursor.handBack, List.length_cons] at holds ⊢
        omega
      exact ⟨_, .unwanted takes fits back⟩
  · rw [stopped] at takes
    exact ⟨_, .stopped takes⟩

/-- Both tokens of a bullet may have to be handed back. -/
theorem exists_triesBullet (room : 2 ≤ bound) (holds : HoldsAtMost bound cursor) :
    ∃ outcome, TriesBullet (HoldsAtMost bound) cursor outcome := by
  obtain ⟨outcome, first⟩ := exists_tries room holds (·.kind = .newline)
  cases outcome with
  | absent rest => exact ⟨_, .unlined first⟩
  | rejected cause rest => exact ⟨_, .stopped first⟩
  | found newline middle =>
      have fewer := first.held_found
      obtain ⟨outcome, second⟩ := exists_tries room first.behind (IsMark "-")
      cases outcome with
      | found dash rest => exact ⟨_, .dashed first second⟩
      | rejected cause rest => exact ⟨_, .cut first second⟩
      | absent rest =>
          have held : rest.held.length = middle.held.length - 1 + 1 := second.held_absent
          have back : HoldsAtMost bound (rest.handBack newline) := by
            simp only [HoldsAtMost, Cursor.handBack, List.length_cons] at holds ⊢
            omega
          exact ⟨_, .undashed first second back⟩

theorem exists_rejects (holds : HoldsAtMost bound cursor) (production : Production) :
    ∃ cause rest, Rejects (HoldsAtMost bound) production cursor cause rest := by
  have takes := takes_nextToken holds
  rcases nextToken_cases cursor with ⟨token, rest, taken, _⟩ | ⟨cause, rest, stopped⟩
  · exact ⟨_, _, .unexpected (taken ▸ takes)⟩
  · exact ⟨_, _, .stopped (stopped ▸ takes)⟩

/-- A course comes to what the reader does, and no cursor on it holds more tokens than the bound. -/
structure Runs (bound : Nat) (production : Production) (committed : Bool) (form : Form)
    (reader : Reader form.Meaning) (cursor : Cursor) : Prop where
  course : Course (HoldsAtMost bound) production committed form cursor (reader cursor)
  behind : HoldsAtMost bound (reader cursor).behind

namespace Runs

variable {production : Production} {committed : Bool} {form first rest left right : Form}

theorem of_course {reader : Reader form.Meaning} {outcome : Outcome form.Meaning}
    (same : reader cursor = outcome)
    (course : Course (HoldsAtMost bound) production committed form cursor outcome)
    (behind : HoldsAtMost bound outcome.behind) :
    Runs bound production committed form reader cursor :=
  ⟨same ▸ course, same ▸ behind⟩

theorem token (room : 2 ≤ bound) (holds : HoldsAtMost bound cursor) (kind : Kind) :
    Runs bound production false (.token kind) (Reading.token kind) cursor := by
  obtain ⟨outcome, tries⟩ := exists_tries room holds (·.kind = kind)
  exact of_course tries.token_eq (.token tries) (tries.behind.map _)

theorem mark (room : 2 ≤ bound) (holds : HoldsAtMost bound cursor) (text : String) :
    Runs bound production false (.mark text) (delimiter text) cursor := by
  obtain ⟨outcome, tries⟩ := exists_tries room holds (IsMark text)
  exact of_course tries.delimiter_eq (.mark tries) (tries.behind.map _)

theorem bullet (room : 2 ≤ bound) (holds : HoldsAtMost bound cursor) :
    Runs bound production false .bullet Reading.bullet cursor := by
  obtain ⟨outcome, tries⟩ := exists_triesBullet room holds
  exact of_course tries.bullet_eq (.bullet tries) tries.behind

theorem build {reader : Reader (Grammar.form production).Meaning} {outer : Production}
    (runs : Runs bound production false (Grammar.form production) reader cursor) :
    Runs bound outer false (.part production) (Grammar.build production <$> reader) cursor :=
  of_course (map_apply ..) (.part runs.course) (runs.behind.map _)

/-- What is demanded is kept, or else the next token is rejected. -/
theorem demand {reader : Reader form.Meaning} (runs : Runs bound production false form reader cursor)
    (demanded : isDemanded form = true) (committed : Bool) :
    Runs bound production committed form (demand production committed reader) cursor := by
  cases committed with
  | false => exact runs
  | true =>
      obtain ⟨course, behind⟩ := runs
      cases outcome : reader cursor with
      | absent rest =>
          rw [outcome] at course behind
          obtain ⟨cause, later, rejects⟩ := exists_rejects behind production
          have same : Reading.demand production true reader cursor = .rejected cause later :=
            (orElse_of_absent outcome).trans rejects.reject_eq
          exact of_course same (.missing demanded course rejects) rejects.behind
      | found value rest | rejected cause rest =>
          rw [outcome] at course behind
          have same : Reading.demand production true reader cursor = _ :=
            orElse_of_decided outcome (by simp)
          exact of_course same (.kept demanded course (by simp)) behind

theorem next {front : Reader first.Meaning} {back : first.Meaning → Reader rest.Meaning}
    (atFront : Runs bound production committed first front cursor)
    (atBack : ∀ found behind, front cursor = .found found behind → HoldsAtMost bound behind →
      Runs bound production (committed || hasTaken first found) rest (back found) behind) :
    Runs bound production committed (.next first rest) (do
      let found ← front
      let others ← back found
      pure (found, others)) cursor := by
  obtain ⟨course, behind⟩ := atFront
  cases outcome : front cursor with
  | absent after =>
      rw [outcome] at course behind
      refine of_course ?_ (.nextAbsent course) behind
      simp only [bind, Reader.andThen, outcome]
  | rejected cause after =>
      rw [outcome] at course behind
      refine of_course ?_ (.nextRejected course) behind
      simp only [bind, Reader.andThen, outcome]
  | found found after =>
      rw [outcome] at course behind
      have others := atBack found after outcome behind
      refine of_course ?_ (.next course others.course) (others.behind.map _)
      simp only [bind, Reader.andThen, outcome]
      exact map_apply ..

theorem either {one : Reader left.Meaning} {other : Reader right.Meaning}
    (atLeft : Runs bound production false left one cursor)
    (atRight : ∀ behind, one cursor = .absent behind → HoldsAtMost bound behind →
      Runs bound production false right other behind) :
    Runs bound production false (.either left right)
      ((Sum.inl <$> one).orElse (Sum.inr <$> other)) cursor := by
  obtain ⟨course, behind⟩ := atLeft
  cases outcome : one cursor with
  | absent after =>
      rw [outcome] at course behind
      have others := atRight after outcome behind
      refine of_course ?_ (.right course others.course) (others.behind.map _)
      exact (orElse_of_absent (map_absent_iff.mpr outcome)).trans (map_apply ..)
  | found value after | rejected cause after =>
      rw [outcome] at course behind
      refine of_course (orElse_of_decided ?_ ?_) (.left course (by simp)) (behind.map _)
      · rw [map_apply, outcome]
        rfl
      · exact Outcome.IsDecided.map (by simp) _

theorem optional {reader : Reader form.Meaning} (committed : Bool)
    (inner : Runs bound production false form reader cursor) :
    Runs bound production committed (.optional form) reader.optional cursor := by
  obtain ⟨course, behind⟩ := inner
  cases outcome : reader cursor with
  | absent after =>
      rw [outcome] at course behind
      refine of_course ?_ (.absent course) behind
      rw [Reader.optional, outcome]
      rfl
  | found value after | rejected cause after =>
      rw [outcome] at course behind
      refine of_course ?_ (.present course (by simp)) (behind.map _)
      rw [Reader.optional, outcome]
      rfl

theorem several {reader : Reader form.Meaning}
    (atFirst : Runs bound production false form reader cursor)
    (atOthers : ∀ found behind, reader cursor = .found found behind → HoldsAtMost bound behind →
      Runs bound production true (.many form) reader.row behind) :
    Runs bound production false (.several form) reader.row1 cursor := by
  obtain ⟨course, behind⟩ := atFirst
  cases outcome : reader cursor with
  | absent after =>
      rw [outcome] at course behind
      refine of_course ?_ (.severalAbsent course) behind
      simp only [Reader.row1, bind, Reader.andThen, outcome]
      rfl
  | rejected cause after =>
      rw [outcome] at course behind
      refine of_course ?_ (.severalRejected course) behind
      simp only [Reader.row1, bind, Reader.andThen, outcome]
      rfl
  | found found after =>
      rw [outcome] at course behind
      have others := atOthers found after outcome behind
      refine of_course ?_ (.several course others.course) (others.behind.map _)
      simp only [Reader.row1, bind, Reader.andThen, outcome]
      exact map_apply ..

theorem many {reader : Reader form.Meaning} (committed : Bool)
    (inner : Runs bound production false (.several form) reader.row1 cursor) :
    Runs bound production committed (.many form) (reader.row1.orElse (Reader.found [])) cursor := by
  obtain ⟨course, behind⟩ := inner
  cases outcome : reader.row1 cursor with
  | absent after =>
      rw [outcome] at course behind
      exact of_course (orElse_of_absent outcome) (.done course) behind
  | found values after | rejected cause after =>
      rw [outcome] at course behind
      exact of_course (orElse_of_decided outcome (by simp)) (.more course (by simp)) behind

/-- Every part of a row takes a token, so a row ends within the pending ones. -/
theorem row {reader : Reader form.Meaning} (progresses : Progresses reader) {most : Nat}
    (atPart : ∀ cursor : Cursor, cursor.pending.length ≤ most → HoldsAtMost bound cursor →
      Runs bound production false form reader cursor)
    (committed : Bool) (fits : cursor.pending.length ≤ most) (holds : HoldsAtMost bound cursor) :
    Runs bound production committed (.many form) reader.row cursor := by
  induction size : cursor.pending.length using Nat.strongRecOn generalizing cursor committed with
  | ind length ih =>
      subst size
      rw [row_eq progresses]
      apply many
      apply several (atPart cursor fits holds)
      intro found behind outcome holds
      have shorter := progresses outcome
      exact ih behind.pending.length shorter true (by omega) holds rfl

/-- Reading along a form runs where its parts do. -/
theorem along (room : 2 ≤ bound) (production : Production) (clear : form.isClear = true)
    {most : Nat}
    (ready : Ready (fun part cursor => HoldsAtMost bound cursor → ∀ production,
      Runs bound production false (.part part) (reader .outer part) cursor) form most)
    (committed : Bool) (fits : cursor.pending.length ≤ most) (holds : HoldsAtMost bound cursor) :
    Runs bound production committed form (read (reader .outer) production committed form)
      cursor := by
  have honest : ∀ (form : Form) (committed : Bool),
      Honest form committed (read (reader .outer) production committed form) :=
    fun form => honest_read production form fun part _ => honestAt_outer part
  -- The induction is on the form. A part is left to `ready`, since its own form is no smaller one.
  induction form generalizing most committed cursor with
  | token kind => exact (token room holds kind).demand rfl committed
  | mark text => exact (mark room holds text).demand rfl committed
  | bullet => exact (bullet room holds).demand rfl committed
  | part part =>
      have here := ready.here part (List.mem_singleton_self part) cursor fits holds production
      exact here.demand rfl committed
  | empty => exact ⟨.empty, holds⟩
  | next first rest ihFirst ihRest =>
      simp only [Form.isClear, Bool.and_eq_true] at clear
      apply next (ihFirst clear.1.1 ready.front committed fits holds)
      intro found behind outcome holds
      have answer := honest first committed cursor
      rw [outcome] at answer
      obtain ⟨begun, _, taken⟩ := answer
      exact ihRest clear.1.2 (ready.back begun taken fits) _ (Nat.le_refl _) holds
  | either left right ihLeft ihRight =>
      simp only [Form.isClear, Bool.and_eq_true] at clear
      have inLeft := ihLeft clear.1.1.1.1 ready.left false fits holds
      refine (inLeft.either ?_).demand rfl committed
      intro behind outcome holds
      have answer := honest left false cursor
      rw [outcome] at answer
      apply ihRight clear.1.1.1.2 ready.right false _ holds
      rw [answer.2]
      exact fits
  | optional form ih =>
      simp only [Form.isClear, Bool.and_eq_true] at clear
      exact (ih clear.1 ⟨ready.here, ready.later⟩ false fits holds).optional committed
  | many form ih =>
      simp only [Form.isClear, Bool.and_eq_true, Bool.not_eq_true'] at clear
      exact row ((honest form false).progresses clear.1.2)
        (fun _ fits => ih clear.1.1 ⟨ready.here, ready.later⟩ false fits) committed fits holds
  | several form ih =>
      simp only [Form.isClear, Bool.and_eq_true, Bool.not_eq_true'] at clear
      have progresses : Progresses (read (reader .outer) production false form) :=
        (honest form false).progresses clear.1.2
      have atPart := fun (cursor : Cursor) (fits : cursor.pending.length ≤ most) =>
        @ih cursor clear.1.1 most ⟨ready.here, ready.later⟩ false fits
      refine (several (atPart cursor fits holds) ?_).demand rfl committed
      intro found behind outcome holds
      have shorter := progresses outcome
      exact row progresses atPart true (by omega) holds

/-- Every production runs. -/
theorem part (room : 2 ≤ bound) (production : Production) (isPart : production ≠ .document)
    (cursor : Cursor) (holds : HoldsAtMost bound cursor) (outer : Production) :
    Runs bound outer false (.part production) (reader .outer production) cursor := by
  revert holds outer
  apply production_induction _ production isPart cursor
  intro production cursor isPart ready holds outer
  rw [reader_outer_eq production isPart]
  exact (along room production (isClear_form production) ready false (Nat.le_refl _) holds).build

/-- Reading along the form of a production runs, the document included. -/
theorem whole (room : 2 ≤ bound) (production : Production) (committed : Bool)
    (holds : HoldsAtMost bound cursor) :
    Runs bound production committed (Grammar.form production)
      (read (reader .outer) production committed (Grammar.form production)) cursor := by
  apply along room production (isClear_form production) _ committed (Nat.le_refl _) holds
  constructor
  · intro part member behind _ holds
    exact Runs.part room part (ne_document_of_mem_parts (leads_subset_parts _ member)) behind holds
  · intro part member behind _ holds
    exact Runs.part room part (ne_document_of_mem_parts member) behind holds

end Runs

end Exists

/-! ## Productions -/

/-- The reader of a production, the document included. -/
def readerOf : (production : Production) → Reader (Meaning production)
  | .document => document
  | production => reader .outer production

/-- What a production makes of its parts. A document has its expressions sorted. -/
def finish : (production : Production) → (form production).Meaning → Meaning production
  | .document, found => inOrder (build .document found)
  | production, found => build production found

/-- A document is committed before it takes a token. -/
theorem readerOf_eq (production : Production) :
    readerOf production = finish production <$>
      read (reader .outer) production (production == .document) (form production) := by
  rcases Decidable.em (production = .document) with rfl | isPart
  · exact document_eq
  · have same := reader_outer_eq production isPart
    cases production <;> first | exact absurd rfl isPart | exact same

/-- What is absent takes no token, and what is found takes the first tokens and no others. -/
structure TakesWhole {α : Type} (reader : Reader α) : Prop where
  absent : ∀ {cursor rest}, reader cursor = .absent rest → rest.pending = cursor.pending
  found : ∀ {cursor value rest}, reader cursor = .found value rest →
    ∃ taken, taken ≠ [] ∧ cursor.pending = taken ++ rest.pending

section TakesWhole

variable {form : Form} {committed : Bool}

theorem Honest.takesWhole {reader : Reader form.Meaning} (honest : Honest form committed reader)
    (full : form.isNullable = false) : TakesWhole reader where
  absent {cursor rest} outcome := by
    have answer := honest cursor
    rw [outcome] at answer
    exact answer.2
  found {cursor value rest} outcome := by
    have answer := honest cursor
    rw [outcome] at answer
    obtain ⟨derivation, _, taken⟩ := answer
    exact ⟨derivation.tokens, derivation.tokens_ne_nil full, taken⟩

theorem TakesWhole.map {α β : Type} {reader : Reader α} (whole : TakesWhole reader) (make : α → β) :
    TakesWhole (make <$> reader) where
  absent outcome := whole.absent (map_absent_iff.mp outcome)
  found {cursor value rest} outcome := by
    rw [map_apply] at outcome
    cases inner : reader cursor with
    | absent after | rejected cause after =>
        rw [inner] at outcome
        cases outcome
    | found value after =>
        rw [inner] at outcome
        cases outcome
        exact whole.found inner

end TakesWhole

theorem takesWhole_readerOf (production : Production) : TakesWhole (readerOf production) := by
  rw [readerOf_eq]
  have honest := honest_read production (form production) (fun part _ => honestAt_outer part)
  exact ((honest (production == .document)).takesWhole (isNullable_form production)).map _

/-- A token, a delimiter and every production take their tokens or none. And from wherever a
production is read, reading along its form comes to an end and to one outcome, of which the reader makes
its own. Two tokens at most are held on the way and behind it, unless more were held to begin with. -/
theorem productions_take_whole :
    (∀ kind, TakesWhole (token kind)) ∧ (∀ text, TakesWhole (delimiter text)) ∧
      ∀ production, TakesWhole (readerOf production) ∧
        ∀ cursor, ∃ outcome,
          Course (HoldsAtMost (max 2 cursor.held.length)) production (production == .document)
              (form production) cursor outcome ∧
            HoldsAtMost (max 2 cursor.held.length) outcome.behind ∧
            (∀ allowed other, Course allowed production (production == .document) (form production)
              cursor other → other = outcome) ∧
            readerOf production cursor = outcome.map (finish production) := by
  refine ⟨fun kind => (honest_token kind).takesWhole rfl,
    fun text => (honest_delimiter text).takesWhole rfl,
    fun production => ⟨takesWhole_readerOf production, fun cursor => ?_⟩⟩
  have runs := Runs.whole (Nat.le_max_left 2 cursor.held.length) production
    (production == .document) (Nat.le_max_right 2 cursor.held.length)
  refine ⟨_, runs.course, runs.behind, ?_, ?_⟩
  · intro allowed other course
    exact (course.read_eq (isClear_form production)).symm
  · rw [readerOf_eq, map_apply]

/-- The tokens behind the colon of a rule that dangles are both held when no definition is found. -/
theorem danglingRule_handed_back :
    readerOf .definition (.start (danglingRule.drop 4)) = .absent ⟨danglingRule.drop 4, []⟩ ∧
      Course (HoldsAtMost 2) .definition false (form .definition) (.start (danglingRule.drop 4))
        (.absent ⟨danglingRule.drop 4, []⟩) := by
  have absent : readerOf .definition (.start (danglingRule.drop 4)) =
      .absent ⟨danglingRule.drop 4, []⟩ := rfl
  obtain ⟨_, _, productions⟩ := productions_take_whole
  obtain ⟨_, runs⟩ := productions .definition
  obtain ⟨outcome, course, _, _, same⟩ := runs (.start (danglingRule.drop 4))
  rw [absent] at same
  cases outcome with
  | found value rest | rejected cause rest => cases same
  | absent rest =>
      cases same
      exact ⟨absent, course⟩

end Reading
end GrammarBook
