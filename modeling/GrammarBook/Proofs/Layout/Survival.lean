import GrammarBook.Proofs.Layout.Spacing

namespace GrammarBook
namespace Grammar

open Token Walk

/-!
# Phrases that survive being written

What some source writes survives: the walk through it is written as a text that is scanned as the
tokens of a derivation of the very same phrase. Only the newlines, which no walk meets, are others.
What must follow the text, and what the text then begins with, is said by two properties of texts,
so that phrases that fit each other survive together.
-/

/-! ## What a source writes -/

/-- Some source writes the phrase: a derivation of well spelled tokens stands for it. -/
def IsWritable (form : Form) (value : form.Meaning) : Prop :=
  ∃ derivation : Derivation form,
    derivation.meaning = value ∧ ∀ token ∈ derivation.tokens, IsSpelled token

theorem IsWritable.part {production : Production} {value : Meaning production}
    (writable : IsWritable (.part production) value) :
    ∃ parts, build production parts = value ∧ IsWritable (form production) parts := by
  obtain ⟨derivation, rfl, spelled⟩ := writable
  cases derivation with
  | part inner => exact ⟨inner.meaning, rfl, inner, rfl, spelled⟩

theorem IsWritable.next {first rest : Form} {front : first.Meaning} {back : rest.Meaning}
    (writable : IsWritable (.next first rest) (front, back)) :
    IsWritable first front ∧ IsWritable rest back := by
  obtain ⟨derivation, same, spelled⟩ := writable
  cases derivation with
  | next one other =>
      cases same
      obtain ⟨spelledFront, spelledBack⟩ := List.forall_mem_append.mp spelled
      exact ⟨⟨one, rfl, spelledFront⟩, ⟨other, rfl, spelledBack⟩⟩

theorem IsWritable.left {left right : Form} {value : left.Meaning}
    (writable : IsWritable (.either left right) (.inl value)) : IsWritable left value := by
  obtain ⟨derivation, same, spelled⟩ := writable
  cases derivation with
  | left inner =>
      cases same
      exact ⟨inner, rfl, spelled⟩
  | right inner => cases same

theorem IsWritable.right {left right : Form} {value : right.Meaning}
    (writable : IsWritable (.either left right) (.inr value)) : IsWritable right value := by
  obtain ⟨derivation, same, spelled⟩ := writable
  cases derivation with
  | left inner => cases same
  | right inner =>
      cases same
      exact ⟨inner, rfl, spelled⟩

theorem IsWritable.present {form : Form} {value : form.Meaning}
    (writable : IsWritable (.optional form) (some value)) : IsWritable form value := by
  obtain ⟨derivation, same, spelled⟩ := writable
  cases derivation with
  | absent => cases same
  | present inner =>
      cases same
      exact ⟨inner, rfl, spelled⟩

theorem IsWritable.many {form : Form} {members : List form.Meaning}
    (writable : IsWritable (.many form) members) : ∀ member ∈ members, IsWritable form member := by
  induction members with
  | nil => exact fun _ member => absurd member List.not_mem_nil
  | cons first others ih =>
      obtain ⟨derivation, same, spelled⟩ := writable
      cases derivation with
      | done => cases same
      | more one rest =>
          cases same
          obtain ⟨spelledFirst, spelledOthers⟩ := List.forall_mem_append.mp spelled
          exact List.forall_mem_cons.mpr ⟨⟨one, rfl, spelledFirst⟩, ih ⟨rest, rfl, spelledOthers⟩⟩

/-- The members of a list that has some are written one by one. -/
theorem IsWritable.several {form : Form} {members : List form.Meaning}
    (writable : IsWritable (.several form) members) :
    members ≠ [] ∧ ∀ member ∈ members, IsWritable form member := by
  obtain ⟨derivation, same, spelled⟩ := writable
  cases derivation with
  | several first others =>
      cases same
      obtain ⟨spelledFirst, spelledOthers⟩ := List.forall_mem_append.mp spelled
      exact ⟨List.cons_ne_nil _ _, List.forall_mem_cons.mpr
        ⟨⟨first, rfl, spelledFirst⟩, IsWritable.many ⟨others, rfl, spelledOthers⟩⟩⟩

/-! ## Survival -/

/-- Outside of groups, a formatter as deep as this writes the text for the events. -/
def Writes (indentSize depth : Nat) (events : List Event) (text : List Char) : Prop :=
  ∀ formatter : Formatter, formatter.indentSize = indentSize → formatter.depth = depth →
    formatter.groups = 0 → events.foldl Formatter.step formatter = formatter.append text

/-- The text is scanned as the tokens of the derivation, in front of any text that fits. -/
def IsReadAs (fits : List Char → Prop) (text : List Char) {form : Form}
    (derivation : Derivation form) : Prop :=
  ∀ (rest : List Char) (words : List Word), fits rest → Lexed rest words →
    Lexed (text ++ rest) (derivation.tokens.map toWord ++ words)

/-- The events are written as a text that is scanned as a derivation of the value, in front of any
text that fits; and then it begins with what is wanted. -/
def Survives (indentSize depth : Nat) (form : Form) (value : form.Meaning) (events : List Event)
    (fits begins : List Char → Prop) : Prop :=
  ∃ (text : List Char) (derivation : Derivation form), derivation.meaning = value ∧
    Writes indentSize depth events text ∧ IsReadAs fits text derivation ∧
      ∀ rest, fits rest → begins (text ++ rest)

def Any (_text : List Char) : Prop := True

/-- The text begins with the end of a line. -/
def StartsLine (text : List Char) : Prop := text.head? = some '\n'

theorem StartsLine.stops {text : List Char} (starts : StartsLine text) : Stops text := by
  rw [Stops, starts]
  rfl

section Survives

variable {indentSize depth : Nat}

theorem writes_nil : Writes indentSize depth [] [] := fun formatter _ _ _ =>
  formatter.append_nil.symm

theorem Writes.append {first later : List Event} {front back : List Char}
    (writesFirst : Writes indentSize depth first front)
    (writesLater : Writes indentSize depth later back) :
    Writes indentSize depth (first ++ later) (front ++ back) := by
  intro formatter sameSize sameDepth outside
  rw [List.foldl_append, writesFirst formatter sameSize sameDepth outside,
    writesLater (formatter.append front) sameSize sameDepth outside, Formatter.append_append]

variable {first rest : Form} {fits middle begins : List Char → Prop}

theorem survives_empty : Survives indentSize depth .empty () [] fits fits :=
  ⟨[], .empty, rfl, writes_nil, fun _ _ _ later => later, fun _ fits => fits⟩

/-- Phrases that fit each other survive together. -/
theorem Survives.next {front : first.Meaning} {back : rest.Meaning} {events later : List Event}
    (survivesFront : Survives indentSize depth first front events middle begins)
    (survivesBack : Survives indentSize depth rest back later fits middle) :
    Survives indentSize depth (.next first rest) (front, back) (events ++ later) fits begins := by
  obtain ⟨text, derivation, rfl, writes, reads, starts⟩ := survivesFront
  obtain ⟨text', derivation', rfl, writes', reads', starts'⟩ := survivesBack
  refine ⟨text ++ text', .next derivation derivation', rfl, writes.append writes', ?_, ?_⟩
  · intro rest words fitting lexed
    rw [Derivation.tokens, List.map_append, List.append_assoc, List.append_assoc]
    exact reads _ _ (starts' rest fitting) (reads' rest words fitting lexed)
  · intro rest fitting
    rw [List.append_assoc]
    exact starts _ (starts' rest fitting)

theorem Survives.part {production : Production} {parts : (form production).Meaning}
    {events : List Event}
    (survives : Survives indentSize depth (form production) parts events fits begins) :
    Survives indentSize depth (.part production) (build production parts) events fits begins := by
  obtain ⟨text, derivation, rfl, writes, reads, starts⟩ := survives
  exact ⟨text, .part derivation, rfl, writes, reads, starts⟩

theorem Survives.left {left right : Form} {value : left.Meaning} {events : List Event}
    (survives : Survives indentSize depth left value events fits begins) :
    Survives indentSize depth (.either left right) (.inl value) events fits begins := by
  obtain ⟨text, derivation, rfl, writes, reads, starts⟩ := survives
  exact ⟨text, .left derivation, rfl, writes, reads, starts⟩

theorem Survives.right {left right : Form} {value : right.Meaning} {events : List Event}
    (survives : Survives indentSize depth right value events fits begins) :
    Survives indentSize depth (.either left right) (.inr value) events fits begins := by
  obtain ⟨text, derivation, rfl, writes, reads, starts⟩ := survives
  exact ⟨text, .right derivation, rfl, writes, reads, starts⟩

/-- Members that may follow each other survive together. -/
theorem survives_eachFrom {form : Form} {members : List form.Meaning}
    {events : Rank → form.Meaning → List Event}
    (survive : ∀ member ∈ members, ∀ rank,
      Survives indentSize depth form member (events rank member) fits fits) (size index : Nat) :
    Survives indentSize depth (.many form) members (eachFrom size events index members) fits
      fits := by
  induction members generalizing index with
  | nil => exact ⟨[], .done, rfl, writes_nil, fun _ _ _ later => later, fun _ fitting => fitting⟩
  | cons member members ih =>
      obtain ⟨survivesFirst, surviveOthers⟩ := List.forall_mem_cons.mp survive
      obtain ⟨text, derivation, same, writes, reads, starts⟩ :=
        (survivesFirst ⟨index, size⟩).next (ih surviveOthers (index + 1))
      cases derivation with
      | next one others =>
          cases same
          exact ⟨text, .more one others, rfl, writes, reads, starts⟩

theorem survives_each {form : Form} {members : List form.Meaning}
    {events : Rank → form.Meaning → List Event} (some : members ≠ [])
    (survive : ∀ member ∈ members, ∀ rank,
      Survives indentSize depth form member (events rank member) fits fits) :
    Survives indentSize depth (.several form) members (each events members) fits fits := by
  obtain ⟨text, derivation, same, writes, reads, starts⟩ :=
    survives_eachFrom survive members.length 1
  cases derivation with
  | done =>
      cases same
      exact absurd rfl some
  | more first others =>
      cases same
      exact ⟨text, .several first others, rfl, writes, reads, starts⟩

/-- What suffices to follow may be less than what does follow. -/
theorem Survives.weaken {form : Form} {value : form.Meaning} {events : List Event}
    {fits' begins' : List Char → Prop}
    (survives : Survives indentSize depth form value events fits begins)
    (enough : ∀ text, fits' text → fits text) (weaker : ∀ text, begins text → begins' text) :
    Survives indentSize depth form value events fits' begins' := by
  obtain ⟨text, derivation, same, writes, reads, starts⟩ := survives
  exact ⟨text, derivation, same, writes, fun rest words fitting => reads rest words (enough rest fitting),
    fun rest fitting => weaker _ (starts rest (enough rest fitting))⟩

/-- Events that write nothing make no difference. -/
theorem writes_silent {event : Event} (silent : ∀ formatter, Formatter.step formatter event = formatter) :
    Writes indentSize depth [event] [] := fun formatter _ _ _ =>
  (silent formatter).trans formatter.append_nil.symm

theorem Survives.entered {form : Form} {value : form.Meaning} {events : List Event} {event : Event}
    (survives : Survives indentSize depth form value events fits begins)
    (silent : ∀ formatter, Formatter.step formatter event = formatter) :
    Survives indentSize depth form value (event :: events) fits begins := by
  obtain ⟨text, derivation, same, writes, rest⟩ := survives
  exact ⟨text, derivation, same, (writes_silent silent).append writes, rest⟩

theorem Survives.departed {form : Form} {value : form.Meaning} {events : List Event} {event : Event}
    (survives : Survives indentSize depth form value events fits begins)
    (silent : ∀ formatter, Formatter.step formatter event = formatter) :
    Survives indentSize depth form value (events ++ [event]) fits begins := by
  obtain ⟨text, derivation, same, writes, rest⟩ := survives
  have written := writes.append (writes_silent silent)
  rw [List.append_nil] at written
  exact ⟨text, derivation, same, written, rest⟩

/-- A blank may be written first. -/
theorem Survives.behindBlank {form : Form} {value : form.Meaning} {events : List Event}
    {event : Event} (survives : Survives indentSize depth form value events fits begins)
    (writesBlank : Writes indentSize depth [event] [' ']) :
    Survives indentSize depth form value (event :: events) fits Stops := by
  obtain ⟨text, derivation, same, writes, reads, _⟩ := survives
  refine ⟨' ' :: text, derivation, same, writesBlank.append writes, ?_, fun _ _ => stops_blank _⟩
  intro rest words fitting lexed
  exact .blank rfl (reads rest words fitting lexed)

/-! ## Phrases within a line -/

theorem isFlat_of_isLegible {form : Form} (legible : form.isLegible = true) : isFlat form = true := by
  induction form with
  | token kind => 
      revert legible
      cases kind <;> decide
  | mark | empty => rfl
  | bullet => cases legible
  | part production => exact legible
  | next first rest first_ih rest_ih =>
      obtain ⟨both, _⟩ := Bool.and_eq_true_iff.mp legible
      obtain ⟨firstLegible, restLegible⟩ := Bool.and_eq_true_iff.mp both
      exact Bool.and_eq_true_iff.mpr ⟨first_ih firstLegible, rest_ih restLegible⟩
  | either left right left_ih right_ih =>
      obtain ⟨leftLegible, rightLegible⟩ := Bool.and_eq_true_iff.mp legible
      exact Bool.and_eq_true_iff.mpr ⟨left_ih leftLegible, right_ih rightLegible⟩
  | optional form ih => exact ih legible
  | many form ih | several form ih => exact ih (Bool.and_eq_true_iff.mp legible).1

/-- A phrase within a line survives, if nothing behind it prolongs its last name or number. -/
theorem survives_inline {form : Form} (legible : form.isLegible = true) {value : form.Meaning}
    (writable : IsWritable form value) (size : Nat) :
    Survives indentSize depth form value (formEvents ⟨1, size⟩ form value)
      (fun rest => form.endsInWord = true → Stops rest) Any := by
  obtain ⟨derivation, rfl, spelled⟩ := writable
  refine ⟨derivation.layout 0 1, derivation, rfl, ?_, ?_, fun _ _ => True.intro⟩
  · intro formatter _ _ outside
    rw [foldl_formEvents derivation (isFlat_of_isLegible legible), outside]
  · intro rest words stops lexed
    exact lexed_layout derivation spelled legible Nat.one_pos lexed stops

/-- A note ends where its line ends. -/
theorem endsBefore_note {rest : List Char} (starts : StartsLine rest) (text : List Char) :
    Kind.note.EndsBefore text rest := by
  change rest.head?.all (!Kind.isVisible ·) = true
  rw [starts]
  rfl

/-- A note survives at the end of its line. -/
theorem survives_note {note : Option String}
    (writable : IsWritable (.optional (.token .note)) note) :
    Survives indentSize depth (.optional (.token .note)) note (leaf? .note note) StartsLine Stops := by
  cases note with
  | none =>
      exact ⟨[], .absent, rfl, writes_nil, fun _ _ _ later => later, fun _ starts => starts.stops⟩
  | some text =>
      obtain ⟨derivation, same, spelled⟩ := writable.present
      cases derivation with
      | token leaf isNote =>
          cases same
          have spelledNote := spelled leaf (List.mem_singleton.mpr rfl)
          refine ⟨' ' :: ' ' :: leaf.text.toList, .present (.token leaf isNote), rfl, ?_, ?_, ?_⟩
          · intro formatter _ _ _
            change formatter.append (Formatter.leafText .note leaf.text).toList = _
            rw [Formatter.leafText, String.toList_append]
            rfl
          · intro rest words starts lexed
            have explicit : leaf.kind ≠ .space := by
              rw [isNote]
              decide
            have ends : leaf.kind.EndsBefore leaf.text.toList rest := by
              rw [isNote]
              exact endsBefore_note starts _
            exact .blank rfl (.blank rfl (.word explicit (Kind.lexeme?_exact spelledNote ends) lexed))
          · intro rest _
            exact stops_blank _

/-! ## Newlines -/

def newline : Derivation (.token .newline) := .token ⟨.newline, "\n", .start⟩ rfl

/-- So many ends of lines. -/
def newlines : Nat → Derivation (.many (.token .newline))
  | 0 => .done
  | count + 1 => .more newline (newlines count)

theorem lexed_newline {rest : List Char} {words : List Word} (later : Lexed rest words) :
    Lexed ('\n' :: rest) ((.newline, ['\n']) :: words) := by
  have spelled : Kind.newline.IsSpelled ['\n'] := ⟨rfl, nofun⟩
  exact .word (by decide) (Kind.lexeme?_exact spelled True.intro) later

theorem lexed_newlines (count : Nat) {rest : List Char} {words : List Word}
    (later : Lexed rest words) :
    Lexed (List.replicate count '\n' ++ rest) ((newlines count).tokens.map toWord ++ words) := by
  induction count with
  | zero => exact later
  | succ count ih => exact lexed_newline ih

/-- Where lines are ended, newlines are scanned, whatever follows. -/
theorem survives_newlines (count : Nat) {events : List Event}
    (writes : Writes indentSize depth events (List.replicate (count + 1) '\n')) :
    Survives indentSize depth (.several (.token .newline))
      (Derivation.several newline (newlines count)).meaning events Any StartsLine :=
  ⟨_, .several newline (newlines count), rfl, writes, fun _ _ _ later => lexed_newlines (count + 1) later,
    fun _ _ => rfl⟩

/-! ## Rules -/

theorem lexed_blanks (count : Nat) {rest : List Char} {words : List Word}
    (later : Lexed rest words) : Lexed (List.replicate count ' ' ++ rest) words := by
  induction count with
  | zero => exact later
  | succ count ih => exact .blank rfl ih

/-- The indented dash of a line. -/
theorem survives_bullet (line : Line) (rank : Option Rank) :
    Survives indentSize depth .bullet () [.enter (.line line) rank, mark "-"] Any StartsLine := by
  refine ⟨'\n' :: (List.replicate (depth * indentSize) ' ' ++ ['-', ' ']),
    .bullet ⟨.newline, "\n", .start⟩ ⟨.delimiter, "-", .start⟩ rfl ⟨rfl, rfl⟩, rfl, ?_, ?_,
    fun _ _ => rfl⟩
  · intro formatter sameSize sameDepth _
    change (formatter.append ("\n" ++ formatter.indentation).toList).append ['-', ' '] = _
    rw [Formatter.append_append, Formatter.indentation, sameSize, sameDepth]
    simp only [String.toList_append, String.toList_ofList, List.append_assoc]
    rfl
  · intro rest words _ lexed
    have spelled : Kind.delimiter.IsSpelled ['-'] := ⟨rfl, nofun⟩
    rw [List.cons_append, List.append_assoc]
    apply lexed_newline
    apply lexed_blanks
    exact .word (by decide) (Kind.lexeme?_exact spelled True.intro) (.blank rfl lexed)

/-- A line survives where another line follows, or the end of its own. -/
theorem survives_line {line : Line} (writable : IsWritable (.part .line) line) (rank : Rank) :
    Survives indentSize depth (.part .line) line (line.events rank) StartsLine StartsLine := by
  obtain ⟨⟨_, identifier, note, _⟩, rfl, written⟩ := writable.part
  obtain ⟨_, behindBullet⟩ := written.next
  obtain ⟨writtenIdentifier, behindIdentifier⟩ := behindBullet.next
  obtain ⟨writtenNote, _⟩ := behindIdentifier.next
  have name : Survives indentSize depth (.part .identifier) identifier identifier.events Stops Any :=
    (survives_inline rfl writtenIdentifier 1).weaken (fun _ stops _ => stops) fun _ => id
  have leave : ∀ formatter,
      Formatter.step formatter (.leave (.line ⟨identifier, note⟩) (some rank)) = formatter :=
    fun _ => rfl
  have whole := (survives_bullet ⟨identifier, note⟩ (some rank)).next (name.next
    ((survives_note writtenNote).next (survives_empty.departed leave)))
  have survives : Survives indentSize depth (.part .line)
      (build .line ((), identifier, note, ())) _ StartsLine StartsLine := Survives.part whole
  simpa [Line.events, within, build] using survives

theorem writes_multiline {lines : List Line} {events : List Event} {text : List Char}
    (writes : Writes indentSize (depth + 1) events text) :
    Writes indentSize depth (within (.multiline lines) none events) text := by
  intro formatter sameSize sameDepth outside
  have deeper := writes { formatter with depth := formatter.depth + 1 } sameSize
    (congrArg (· + 1) sameDepth) outside
  rw [within, List.foldl_cons, List.foldl_append, Formatter.step, Formatter.opened, deeper]
  rfl

/-- Lines survive one deeper than the definition that they stand in. -/
theorem survives_multiline {lines : List Line} (writable : IsWritable (.part .multiline) lines) :
    Survives indentSize depth (.part .multiline) lines
      (within (.multiline lines) none (each Line.events lines)) StartsLine StartsLine := by
  obtain ⟨⟨members, _⟩, same, written⟩ := writable.part
  obtain rfl : lines = members := same.symm
  obtain ⟨some, writtenLines⟩ := written.next.1.several
  have survives : Survives indentSize (depth + 1) (.several (.part .line)) lines
      (each Line.events lines) StartsLine StartsLine :=
    survives_each some fun line member => survives_line (writtenLines line member)
  obtain ⟨text, derivation, same, writes, rest⟩ := survives.next survives_empty
  rw [List.append_nil] at writes
  exact ⟨text, .part derivation, congrArg (build .multiline) same, writes_multiline writes, rest⟩

/-- Terms survive in front of a note, or of the end of their line. -/
theorem survives_inlined {terms : List Term} {note : Option String}
    (writable : IsWritable (.part .inlined) (.inlined terms note)) :
    Survives indentSize depth (.part .inlined) (.inlined terms note)
      (within (.inlined terms note) none (Term.eventsFrom terms.length 1 terms ++ leaf? .note note))
      StartsLine Any := by
  obtain ⟨⟨terms, note, _⟩, same, written⟩ := writable.part
  cases same
  obtain ⟨writtenTerms, behindTerms⟩ := written.next
  have row : Survives indentSize depth (.several (.part .term)) terms
      (eachFrom (List.length terms) Term.events 1 terms) Stops Any :=
    (survives_inline rfl writtenTerms 1).weaken (fun _ stops _ => stops) fun _ => id
  have leave : ∀ formatter,
      Formatter.step formatter (.leave (.inlined terms note) none) = formatter := fun _ => rfl
  have enter : Writes indentSize depth [.enter (.inlined terms note) none] [' '] :=
    fun _ _ _ _ => rfl
  have whole := (row.behindBlank enter).next
    ((survives_note behindTerms.next.1).next (survives_empty.departed leave))
  have survives : Survives indentSize depth (.part .inlined)
      (build .inlined (terms, note, ())) _ StartsLine Stops := Survives.part whole
  rw [termEvents_eachFrom, within, List.append_assoc]
  exact survives.weaken (fun _ => id) fun _ _ => True.intro

theorem survives_definition {definition : Definition}
    (writable : IsWritable (.part .definition) definition) :
    Survives indentSize depth (.part .definition) definition definition.events StartsLine Any := by
  have enter : ∀ formatter,
      Formatter.step formatter (.enter (.definition definition) none) = formatter := fun _ => rfl
  have leave : ∀ formatter,
      Formatter.step formatter (.leave (.definition definition) none) = formatter := fun _ => rfl
  obtain ⟨parts, same, written⟩ := writable.part
  cases parts with
  | inl lines =>
      cases same
      have survives : Survives indentSize depth (.part .definition)
          (build .definition (.inl lines)) _ StartsLine StartsLine :=
        Survives.part (Survives.left (survives_multiline written.left))
      exact ((survives.entered enter).departed leave).weaken (fun _ => id) fun _ _ => True.intro
  | inr inlined =>
      cases same
      obtain ⟨⟨terms, note, _⟩, rfl, _⟩ := written.right.part
      have survives : Survives indentSize depth (.part .definition)
          (build .definition (.inr (.inlined terms note))) _ StartsLine Any :=
        Survives.part (Survives.right (survives_inlined written.right))
      exact (survives.entered enter).departed leave

/-! ## Rules and expressions -/

theorem survives_colon : Survives indentSize depth (.mark ":") ":" [mark ":"] Any Stops := by
  refine ⟨[':'], .mark ⟨.delimiter, ":", .start⟩ ⟨rfl, rfl⟩, rfl, fun _ _ _ _ => rfl, ?_,
    fun _ _ => rfl⟩
  intro rest words _ lexed
  have spelled : Kind.delimiter.IsSpelled [':'] := ⟨rfl, nofun⟩
  exact .word (by decide) (Kind.lexeme?_exact spelled True.intro) lexed

/-- A rule survives whatever follows it, since empty lines are written behind it. -/
theorem survives_rule {rule : Rule} (writable : IsWritable (.part .rule) rule) (rank : Rank) :
    Survives indentSize depth (.part .rule) rule (rule.events rank) Any Any := by
  obtain ⟨⟨name, _, definition, _, _⟩, rfl, written⟩ := writable.part
  obtain ⟨writtenName, behindName⟩ := written.next
  have writtenDefinition := behindName.next.2.next.1
  have survivesName : Survives indentSize depth (.token .uppercase) name [.leaf .uppercase name]
      Stops Any := (survives_inline rfl writtenName 1).weaken (fun _ stops _ => stops) fun _ => id
  have enter : ∀ formatter,
      Formatter.step formatter (.enter (.rule ⟨name, definition⟩) (some rank)) = formatter :=
    fun _ => rfl
  have leave : Writes indentSize depth [.leave (.rule ⟨name, definition⟩) (some rank)]
      ['\n', '\n'] := fun _ _ _ _ => rfl
  have whole := (survivesName.entered enter).next (survives_colon.next
    ((survives_definition writtenDefinition).next ((survives_newlines 1 leave).next survives_empty)))
  have survives : Survives indentSize depth (.part .rule)
      (build .rule (name, ":", definition, _, ())) _ Any Any := Survives.part whole
  simpa [Rule.events, within, build] using survives

/-- An expression survives whatever follows it, since its line is ended behind it. -/
theorem survives_expression {expression : Expression}
    (writable : IsWritable (.part .expression) expression) (rank : Rank) :
    Survives indentSize depth (.part .expression) expression (expression.events rank) Any Any := by
  obtain ⟨⟨name, _, pattern, note, _, _⟩, rfl, written⟩ := writable.part
  obtain ⟨writtenName, behindName⟩ := written.next
  obtain ⟨writtenPattern, behindPattern⟩ := behindName.next.2.next
  have writtenNote := behindPattern.next.1
  have survivesName : Survives indentSize depth (.token .lowercase) name [.leaf .lowercase name]
      Stops Any := (survives_inline rfl writtenName 1).weaken (fun _ stops _ => stops) fun _ => id
  have survivesPattern : Survives indentSize depth (.part .pattern) pattern pattern.events Stops Any :=
    (survives_inline rfl writtenPattern 1).weaken (fun _ stops _ => stops) fun _ => id
  have enter : ∀ formatter,
      Formatter.step formatter (.enter (.expression ⟨name, pattern, note⟩) (some rank)) = formatter :=
    fun _ => rfl
  have leave : ∃ count, Writes indentSize depth [.leave (.expression ⟨name, pattern, note⟩) (some rank)]
      (List.replicate (count + 1) '\n') := by
    by_cases isInner : rank.index < rank.size
    · exact ⟨1, fun _ _ _ _ => if_pos (decide_eq_true isInner)⟩
    · exact ⟨0, fun _ _ _ _ => if_neg (by simpa using isInner)⟩
  obtain ⟨count, ends⟩ := leave
  have whole := (survivesName.entered enter).next (survives_colon.next (survivesPattern.next
    ((survives_note writtenNote).next ((survives_newlines count ends).next survives_empty))))
  have survives : Survives indentSize depth (.part .expression)
      (build .expression (name, ":", pattern, note, _, ())) _ Any Any := Survives.part whole
  simpa [Expression.events, within, build] using survives

end Survives

end Grammar
end GrammarBook
