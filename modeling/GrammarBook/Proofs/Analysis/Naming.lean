import GrammarBook.Proofs.Analysis.Attributes
import GrammarBook.Proofs.Analysis.Faithful
import GrammarBook.Proofs.Token.Lexeme

namespace GrammarBook

/-!
# Names of attributes

Attributes are numbered among those of one stem, so that these never share a name. Across stems a
name that is made up, by a number or by the ending of a plural, may be the name that another
identifier has of its own. Five ways to clash are all there are: the names of the attributes of a
rule are distinct exactly when no two of its occurrences clash in one of them.
-/

/-! ## Plurals and their stems -/

namespace Inflection

variable {name left right : List Char}

theorem pluralChars_concat (name : List Char) :
    pluralChars (name ++ ['s']) = name ++ ['s', 'e', 's'] := by
  rw [pluralChars, if_pos List.getLast?_concat, List.append_assoc]
  rfl

theorem pluralChars_of_not_ends (other : name.getLast? ≠ some 's') :
    pluralChars name = name ++ ['s'] :=
  if_neg other

theorem singularChars_of_not_ends (other : name.getLast? ≠ some 's') : singularChars name = name := by
  have notLonger : ¬ ['s', 'e', 's'].isSuffixOf name = true := by
    rw [List.isSuffixOf_iff_suffix]
    rintro ⟨front, rfl⟩
    exact other (List.getLast?_append.trans rfl)
  rw [singularChars, if_neg notLonger, if_neg fun ends => other ends.1]

/-- The ending of a plural is one letter, unless it is preceded by what the plural of an s adds. -/
theorem singularChars_concat (nonempty : name ≠ []) (other : ∀ front, name ≠ front ++ ['s', 'e']) :
    singularChars (name ++ ['s']) = name := by
  have notLonger : ¬ ['s', 'e', 's'].isSuffixOf (name ++ ['s']) = true := by
    rw [List.isSuffixOf_iff_suffix]
    rintro ⟨front, same⟩
    have split : front ++ ['s', 'e'] ++ ['s'] = name ++ ['s'] := by
      rw [List.append_assoc]
      exact same
    exact other front (List.append_cancel_right split).symm
  have longer : (name ++ ['s']).length ≠ 1 := by
    have some := List.length_pos_iff.mpr nonempty
    rw [List.length_append, List.length_singleton]
    omega
  rw [singularChars, if_neg notLonger, if_pos ⟨List.getLast?_concat, longer⟩, List.dropLast_concat]

/-- The plural of a name has the stem of the name, unless the plural ends in what is taken for the
plural of an s. -/
theorem ends_of_singularChars_ne (nonempty : name ≠ [])
    (apart : singularChars name ≠ singularChars (pluralChars name)) :
    ∃ front, (name = front ++ ['s'] ∨ name = front ++ ['s', 'e']) ∧
      pluralChars name = front ++ ['s', 'e', 's'] := by
  by_cases ends : name.getLast? = some 's'
  · obtain ⟨front, rfl⟩ := List.getLast?_eq_some_iff.mp ends
    exact ⟨front, .inl rfl, pluralChars_concat front⟩
  · rw [pluralChars_of_not_ends ends] at apart ⊢
    by_cases other : ∃ front, name = front ++ ['s', 'e']
    · obtain ⟨front, rfl⟩ := other
      exact ⟨front, .inr rfl, List.append_assoc ..⟩
    · refine absurd ?_ apart
      rw [singularChars_of_not_ends ends,
        singularChars_concat nonempty fun front same => other ⟨front, same⟩]

/-- Two names have one plural where one ends in an s and the other in an e after it. -/
theorem pluralChars_eq_cases (same : pluralChars left = pluralChars right) :
    left = right ∨ (∃ front, left = front ++ ['s'] ∧ right = front ++ ['s', 'e']) ∨
      ∃ front, right = front ++ ['s'] ∧ left = front ++ ['s', 'e'] := by
  have oneWay {left right : List Char} (ends : left.getLast? = some 's')
      (other : right.getLast? ≠ some 's') (same : pluralChars left = pluralChars right) :
      ∃ front, left = front ++ ['s'] ∧ right = front ++ ['s', 'e'] := by
    obtain ⟨front, rfl⟩ := List.getLast?_eq_some_iff.mp ends
    rw [pluralChars_concat, pluralChars_of_not_ends other] at same
    have split : front ++ ['s', 'e'] ++ ['s'] = right ++ ['s'] := by
      rw [List.append_assoc]
      exact same
    exact ⟨front, rfl, (List.append_cancel_right split).symm⟩
  by_cases leftEnds : left.getLast? = some 's'
  · by_cases rightEnds : right.getLast? = some 's'
    · rw [pluralChars, pluralChars, if_pos leftEnds, if_pos rightEnds] at same
      exact .inl (List.append_cancel_right same)
    · exact .inr (.inl (oneWay leftEnds rightEnds same))
  · by_cases rightEnds : right.getLast? = some 's'
    · exact .inr (.inr (oneWay rightEnds leftEnds same.symm))
    · rw [pluralChars, pluralChars, if_neg leftEnds, if_neg rightEnds] at same
      exact .inl (List.append_cancel_right same)

/-- A plural ends in an s. -/
theorem getLast?_pluralChars (name : List Char) : (pluralChars name).getLast? = some 's' := by
  rw [pluralChars]
  split
  · exact List.getLast?_append.trans rfl
  · exact List.getLast?_concat

end Inflection

/-! ## Counted occurrences -/

/-- An occurrence with the number of those of its stem that come before it. -/
structure Counted where
  occurrence : Occurrence
  earlier : Nat

namespace Occurrence

/-- The occurrences that follow those with the given stems, each with its count. -/
def countedAfter (stems : List String) : List Occurrence → List Counted
  | [] => []
  | occurrence :: others =>
    ⟨occurrence, stems.count occurrence.stem⟩ :: countedAfter (occurrence.stem :: stems) others

/-- The occurrences in a rule, each with its count. -/
def counted (occurrences : List Occurrence) : List Counted := countedAfter [] occurrences

end Occurrence

namespace Counted

def name (counted : Counted) : String := (counted.occurrence.toAttribute counted.earlier).name

/-- The lowered name of what is referred to. -/
def lowered (counted : Counted) : String := counted.occurrence.lowered

/-- The stem with the number of the occurrence. -/
def numbered (counted : Counted) : String :=
  counted.occurrence.stem ++ toString (counted.earlier + 1)

/-- The occurrence is the first of its stem, which goes without a number. -/
def IsFirst (counted : Counted) : Prop := counted.earlier = 0

def isPlural (counted : Counted) : Bool := counted.occurrence.isPlural

/-- Two occurrences whose attributes share a name. -/
inductive Clashes (x y : Counted) : Prop where
  /-- A number makes up the name of another identifier, as for item, items and item2. -/
  | numberedName (later : ¬ x.IsFirst) (first : y.IsFirst) (alike : x.isPlural = y.isPlural)
      (same : y.lowered = x.numbered)
  /-- A number in the plural makes up the name of another identifier that is not plural. -/
  | numberedPlural (later : ¬ x.IsFirst) (first : y.IsFirst) (plural : x.isPlural = true)
      (single : y.isPlural = false) (same : y.lowered = x.numbered ++ "s")
  /-- A stem that ends in a digit is numbered as another stem is. -/
  | numbersMeet (later : ¬ x.IsFirst) (alsoLater : ¬ y.IsFirst) (alike : x.isPlural = y.isPlural)
      (same : x.numbered = y.numbered)
  /-- The plural of an identifier is another identifier that is taken for the plural of an s, as for
  house in the plural and houses. -/
  | pluralName (first : x.IsFirst) (alsoFirst : y.IsFirst) (plural : x.isPlural = true)
      (single : y.isPlural = false) (front : String)
      (ends : x.lowered = front ++ "s" ∨ x.lowered = front ++ "se")
      (same : y.lowered = front ++ "ses")
  /-- Two identifiers have one plural, as hous and house. -/
  | pluralsMeet (first : x.IsFirst) (alsoFirst : y.IsFirst) (plural : x.isPlural = true)
      (alsoPlural : y.isPlural = true) (front : String) (ends : x.lowered = front ++ "s")
      (same : y.lowered = front ++ "se")

variable {x y : Counted} {occurrences : List Occurrence} {stems : List String}

/-- What is put into the plural where the attribute is plural. -/
def base (counted : Counted) : String :=
  if counted.earlier = 0 then counted.lowered else counted.numbered

theorem name_eq (counted : Counted) :
    counted.name =
      if counted.isPlural then Inflection.plural counted.base else counted.base := rfl

theorem base_of_first (first : x.IsFirst) : x.base = x.lowered := if_pos first

theorem base_of_later (later : ¬ x.IsFirst) : x.base = x.numbered := if_neg later

theorem name_of_plural (plural : x.isPlural = true) : x.name = Inflection.plural x.base := by
  rw [name_eq, if_pos plural]

theorem name_of_single (single : x.isPlural = false) : x.name = x.base := by
  rw [name_eq, single]
  rfl

/-- A number ends in a digit. -/
theorem isDigit_of_getLast? {c : Char} (last : x.numbered.toList.getLast? = some c) :
    c.isDigit = true := by
  rw [numbered, String.toList_append, Nat.toString_eq_repr, Nat.toList_repr,
    List.getLast?_append_of_ne_nil _ Nat.toDigits_ne_nil] at last
  exact Nat.isDigit_of_mem_toDigits (by decide) (by decide) (List.mem_of_getLast? last)

theorem plural_numbered (x : Counted) : Inflection.plural x.numbered = x.numbered ++ "s" := by
  have other : x.numbered.toList.getLast? ≠ some 's' := fun last =>
    absurd (isDigit_of_getLast? last) (by decide)
  rw [Inflection.plural, Inflection.pluralChars_of_not_ends other, ← String.toList_inj]
  simp

/-- A name that ends in a letter is not a numbered one. -/
theorem isFirst_of_base_eq {front : List Char} {c : Char} (letter : c.isDigit = false)
    (same : x.base.toList = front ++ [c]) : x.IsFirst := by
  by_contra later
  rw [base_of_later later] at same
  have last : x.numbered.toList.getLast? = some c := by rw [same, List.getLast?_concat]
  rw [isDigit_of_getLast? last] at letter
  cases letter

/-! ## Clashes -/

/-- Two occurrences of one stem have different numbers. -/
def Apart (x y : Counted) : Prop :=
  x.IsFirst → y.IsFirst → x.occurrence.stem ≠ y.occurrence.stem

theorem Apart.symm (apart : x.Apart y) : y.Apart x :=
  fun first alsoFirst same => apart alsoFirst first same.symm

theorem clashes_of_base_eq (apart : x.Apart y) (alike : x.isPlural = y.isPlural)
    (same : x.base = y.base) : x.Clashes y ∨ y.Clashes x := by
  by_cases first : x.IsFirst
  · by_cases alsoFirst : y.IsFirst
    · rw [base_of_first first, base_of_first alsoFirst] at same
      exact absurd (congrArg Inflection.singular same) (apart first alsoFirst)
    · rw [base_of_first first, base_of_later alsoFirst] at same
      exact .inr (.numberedName alsoFirst first alike.symm same)
  · by_cases alsoFirst : y.IsFirst
    · rw [base_of_later first, base_of_first alsoFirst] at same
      exact .inl (.numberedName first alsoFirst alike same.symm)
    · rw [base_of_later first, base_of_later alsoFirst] at same
      exact .inl (.numbersMeet first alsoFirst alike same)

theorem clashes_of_plural_eq_base (apart : x.Apart y) (nonempty : x.lowered ≠ "")
    (plural : x.isPlural = true) (single : y.isPlural = false)
    (same : Inflection.plural x.base = y.base) : x.Clashes y := by
  have chars : Inflection.pluralChars x.base.toList = y.base.toList := by
    rw [← same, Inflection.plural, String.toList_ofList]
  obtain ⟨front, ends⟩ : ∃ front, y.base.toList = front ++ ['s'] := by
    rw [← chars]
    exact List.getLast?_eq_some_iff.mp (Inflection.getLast?_pluralChars x.base.toList)
  have alsoFirst : y.IsFirst := isFirst_of_base_eq (by decide) ends
  by_cases first : x.IsFirst
  · rw [base_of_first first, base_of_first alsoFirst] at chars
    have stems : Inflection.singularChars x.lowered.toList ≠
        Inflection.singularChars (Inflection.pluralChars x.lowered.toList) := by
      rw [chars]
      exact fun alike => apart first alsoFirst (congrArg String.ofList alike)
    have characters : x.lowered.toList ≠ [] := fun none => nonempty (String.toList_eq_nil_iff.mp none)
    obtain ⟨front, ends, whole⟩ := Inflection.ends_of_singularChars_ne characters stems
    refine .pluralName first alsoFirst plural single (String.ofList front) ?_ ?_
    · refine ends.imp (fun ends => ?_) fun ends => ?_
      · rw [← String.toList_inj, ends]
        simp
      · rw [← String.toList_inj, ends]
        simp
    · rw [← String.toList_inj, ← chars, whole]
      simp
  · refine .numberedPlural first alsoFirst plural single ?_
    rw [← plural_numbered, ← base_of_later first, same, base_of_first alsoFirst]

theorem clashes_of_plural_eq (apart : x.Apart y) (plural : x.isPlural = true)
    (alsoPlural : y.isPlural = true)
    (same : Inflection.plural x.base = Inflection.plural y.base) :
    x.Clashes y ∨ y.Clashes x := by
  have meet {x y : Counted} (plural : x.isPlural = true) (alsoPlural : y.isPlural = true)
      {front : List Char} (ends : x.base.toList = front ++ ['s'])
      (alsoEnds : y.base.toList = front ++ ['s', 'e']) : x.Clashes y := by
    have first : x.IsFirst := isFirst_of_base_eq (by decide) ends
    have spelled : y.base.toList = front ++ ['s'] ++ ['e'] := by
      rw [alsoEnds, List.append_assoc]
      rfl
    have alsoFirst : y.IsFirst := isFirst_of_base_eq (by decide) spelled
    rw [base_of_first first] at ends
    rw [base_of_first alsoFirst] at alsoEnds
    refine .pluralsMeet first alsoFirst plural alsoPlural (String.ofList front) ?_ ?_
    · rw [← String.toList_inj, ends]
      simp
    · rw [← String.toList_inj, alsoEnds]
      simp
  rcases Inflection.pluralChars_eq_cases (String.ofList_injective same) with
    same | ⟨front, ends, alsoEnds⟩ | ⟨front, ends, alsoEnds⟩
  · exact clashes_of_base_eq apart (plural.trans alsoPlural.symm) (String.toList_inj.mp same)
  · exact .inl (meet plural alsoPlural ends alsoEnds)
  · exact .inr (meet alsoPlural plural ends alsoEnds)

theorem Clashes.name_eq (clashes : x.Clashes y) : x.name = y.name := by
  have pluralOfS (front : String) : Inflection.plural (front ++ "s") = front ++ "ses" := by
    rw [← String.toList_inj, Inflection.plural, String.toList_ofList, String.toList_append,
      String.toList_append]
    exact Inflection.pluralChars_concat front.toList
  have pluralOfSe (front : String) : Inflection.plural (front ++ "se") = front ++ "ses" := by
    have other : (front ++ "se").toList.getLast? ≠ some 's' := by
      rw [String.toList_append, List.getLast?_append]
      change some 'e' ≠ some 's'
      decide
    rw [Inflection.plural, Inflection.pluralChars_of_not_ends other, ← String.toList_inj]
    simp
  cases clashes with
  | numberedName later first alike same =>
      rw [Counted.name_eq, Counted.name_eq, base_of_later later, base_of_first first, alike, same]
  | numberedPlural later first plural single same =>
      rw [name_of_plural plural, name_of_single single, base_of_later later, base_of_first first,
        plural_numbered, same]
  | numbersMeet later alsoLater alike same =>
      rw [Counted.name_eq, Counted.name_eq, base_of_later later, base_of_later alsoLater, alike, same]
  | pluralName first alsoFirst plural single front ends same =>
      rw [name_of_plural plural, name_of_single single, base_of_first first,
        base_of_first alsoFirst, same]
      rcases ends with ends | ends
      · rw [ends, pluralOfS]
      · rw [ends, pluralOfSe]
  | pluralsMeet first alsoFirst plural alsoPlural front ends same =>
      rw [name_of_plural plural, name_of_plural alsoPlural, base_of_first first,
        base_of_first alsoFirst, ends, same, pluralOfS, pluralOfSe]

/-- The attributes of two occurrences share a name exactly when these clash. -/
theorem name_eq_iff (apart : x.Apart y) (nonempty : x.lowered ≠ "") (alsoNonempty : y.lowered ≠ "") :
    x.name = y.name ↔ x.Clashes y ∨ y.Clashes x := by
  constructor
  · intro same
    cases plural : x.isPlural with
    | true =>
        rw [name_of_plural plural] at same
        cases alsoPlural : y.isPlural with
        | true =>
            rw [name_of_plural alsoPlural] at same
            exact clashes_of_plural_eq apart plural alsoPlural same
        | false =>
            rw [name_of_single alsoPlural] at same
            exact .inl (clashes_of_plural_eq_base apart nonempty plural alsoPlural same)
    | false =>
        rw [name_of_single plural] at same
        cases alsoPlural : y.isPlural with
        | true =>
            rw [name_of_plural alsoPlural] at same
            exact .inr
              (clashes_of_plural_eq_base apart.symm alsoNonempty alsoPlural plural same.symm)
        | false =>
            rw [name_of_single alsoPlural] at same
            exact clashes_of_base_eq apart (plural.trans alsoPlural.symm) same
  · rintro (clashes | clashes)
    · exact clashes.name_eq
    · exact clashes.name_eq.symm

/-! ## Rules -/

theorem attributesAfter_eq :
    (Occurrence.attributesAfter stems occurrences).map (·.name) =
      (Occurrence.countedAfter stems occurrences).map Counted.name := by
  induction occurrences generalizing stems with
  | nil => rfl
  | cons occurrence others ih => exact congrArg _ ih

theorem mem_countedAfter (member : x ∈ Occurrence.countedAfter stems occurrences) :
    x.occurrence ∈ occurrences ∧ stems.count x.occurrence.stem ≤ x.earlier := by
  induction occurrences generalizing stems with
  | nil => cases member
  | cons occurrence others ih =>
      rcases List.mem_cons.mp member with rfl | later
      · exact ⟨List.mem_cons_self, Nat.le_refl _⟩
      · obtain ⟨among, counted⟩ := ih later
        exact ⟨List.mem_cons_of_mem _ among, Nat.le_trans List.count_le_count_cons counted⟩

/-- The occurrences of one stem are counted on. -/
theorem pairwise_apart : (Occurrence.countedAfter stems occurrences).Pairwise Apart := by
  induction occurrences generalizing stems with
  | nil => exact .nil
  | cons occurrence others ih =>
      refine List.pairwise_cons.mpr ⟨fun y member _ alsoFirst same => ?_, ih⟩
      have counted := (mem_countedAfter member).2
      rw [← same, List.count_cons_self, alsoFirst] at counted
      exact Nat.not_succ_le_zero _ counted

theorem names_nodup_iff (nonempty : ∀ occurrence ∈ occurrences, occurrence.lowered ≠ "") :
    ((Occurrence.attributes occurrences).map (·.name)).Nodup ↔
      (Occurrence.counted occurrences).Pairwise fun x y => ¬ (x.Clashes y ∨ y.Clashes x) := by
  have apart : (Occurrence.counted occurrences).Pairwise Apart := pairwise_apart
  have named {x : Counted} (member : x ∈ Occurrence.counted occurrences) : x.lowered ≠ "" :=
    nonempty _ (mem_countedAfter member).1
  rw [Occurrence.attributes, attributesAfter_eq, List.Nodup, List.pairwise_map]
  constructor
  · intro distinct
    refine (apart.and distinct).imp_of_mem fun isX isY ⟨apart, distinct⟩ => ?_
    rwa [← name_eq_iff apart (named isX) (named isY)]
  · intro separate
    refine (apart.and separate).imp_of_mem fun isX isY ⟨apart, separate⟩ => ?_
    rwa [Ne, name_eq_iff apart (named isX) (named isY)]

end Counted

theorem Text.lowerFirst_ne_nil {text : List Char} (nonempty : text ≠ []) :
    Text.lowerFirst text ≠ [] := by
  obtain ⟨c, rest, rfl⟩ := List.exists_cons_of_ne_nil nonempty
  refine List.append_ne_nil_of_left_ne_nil ?_ rest
  rw [Text.lowerCase]
  split
  · exact List.cons_ne_nil _ _
  · split
    · exact List.cons_ne_nil _ _
    · exact List.cons_ne_nil _ _

theorem lowered_ne_of_sound {occurrence : Occurrence}
    (sound : ∀ part ∈ occurrence.identifier.parts, part.IsSound) : occurrence.lowered ≠ "" := by
  have spelled : ∃ kind : Kind, kind.accepts occurrence.identifier.name = true := by
    cases named : occurrence.identifier with
    | lower name =>
        rw [named] at sound
        exact ⟨.lowercase, sound _ (List.mem_cons_of_mem _ List.mem_cons_self)⟩
    | upper name =>
        rw [named] at sound
        exact ⟨.uppercase, sound _ (List.mem_cons_of_mem _ List.mem_cons_self)⟩
  obtain ⟨kind, accepted⟩ := spelled
  exact fun none => Text.lowerFirst_ne_nil (Kind.ne_nil_of_acceptsChars accepted)
    (String.ofList_injective none)

/-- Where a source can be analyzed, the attributes of a rule have distinct names exactly when no two
occurrences in the rule clash. -/
theorem attribute_names_nodup_iff {source : String} {analysis : Analysis}
    (analyzed : analyzeSource source = .ok analysis) :
    ∃ document, ({} : Parser).parse source = .ok document ∧
      analysis.ruleNames = document.rules.map (·.name) ∧
      ∀ rule ∈ document.rules, ∃ attributes, analysis.attributesOf? rule.name = some attributes ∧
        ((attributes.map (·.name)).Nodup ↔
          (Occurrence.counted rule.definition.merged).Pairwise
            fun x y => ¬ (x.Clashes y ∨ y.Clashes x)) := by
  obtain ⟨document, read, accepted, regexes, concludes⟩ := concludes_of_analyzeSource analyzed
  have valid := Document.isValid_of_validate accepted
  refine ⟨document, read, concludes.ruleNames, fun rule member => ⟨rule.attributes, ?_, ?_⟩⟩
  · rw [Analysis.attributesOf?, concludes.references,
      Document.get?_references valid.distinctRules member]
  · refine Counted.names_nodup_iff fun occurrence merged => lowered_ne_of_sound fun part isPart => ?_
    exact valid.sound part (Document.parts_of_mem_merged member merged isPart)

/-- A source with a rule whose attributes have distinct names, and one in which an identifier has the
name that another one comes to by its number. -/
def collidingSource : String :=
  "!>\nn\n<!\n!>\nl\n<!\nR: item items\nS: item items item2\n!>\n<!\n" ++
    "item: \"x\"\nitem2: \"y\"\nitems: \"z\"\n"

def plainUse (name : String) : Term := .reference ⟨.lower name, none⟩

def collidingDocument : Document :=
  { notice := "!>\nn\n<!"
    leading := "!>\nl\n<!"
    rules :=
      [⟨"R", .inlined [plainUse "item", plainUse "items"] none⟩,
        ⟨"S", .inlined [plainUse "item", plainUse "items", plainUse "item2"] none⟩]
    trailing := "!>\n<!"
    expressions :=
      [Reading.atomExpression "item" (.literal "\"x\""),
        Reading.atomExpression "item2" (.literal "\"y\""),
        Reading.atomExpression "items" (.literal "\"z\"")] }

theorem parse_collidingSource : ({} : Parser).parse collidingSource = .ok collidingDocument := by
  have scanned : Token.scan collidingSource =
      [⟨.comment, "!>\nn\n<!", ⟨1, 1⟩⟩, ⟨.newline, "\n", ⟨3, 3⟩⟩,
        ⟨.comment, "!>\nl\n<!", ⟨4, 1⟩⟩, ⟨.newline, "\n", ⟨6, 3⟩⟩,
        ⟨.uppercase, "R", ⟨7, 1⟩⟩, ⟨.delimiter, ":", ⟨7, 2⟩⟩, ⟨.lowercase, "item", ⟨7, 4⟩⟩,
        ⟨.lowercase, "items", ⟨7, 9⟩⟩, ⟨.newline, "\n", ⟨7, 14⟩⟩,
        ⟨.uppercase, "S", ⟨8, 1⟩⟩, ⟨.delimiter, ":", ⟨8, 2⟩⟩, ⟨.lowercase, "item", ⟨8, 4⟩⟩,
        ⟨.lowercase, "items", ⟨8, 9⟩⟩, ⟨.lowercase, "item2", ⟨8, 15⟩⟩, ⟨.newline, "\n", ⟨8, 20⟩⟩,
        ⟨.comment, "!>\n<!", ⟨9, 1⟩⟩, ⟨.newline, "\n", ⟨10, 3⟩⟩,
        ⟨.lowercase, "item", ⟨11, 1⟩⟩, ⟨.delimiter, ":", ⟨11, 5⟩⟩, ⟨.literal, "\"x\"", ⟨11, 7⟩⟩,
        ⟨.newline, "\n", ⟨11, 10⟩⟩,
        ⟨.lowercase, "item2", ⟨12, 1⟩⟩, ⟨.delimiter, ":", ⟨12, 6⟩⟩, ⟨.literal, "\"y\"", ⟨12, 8⟩⟩,
        ⟨.newline, "\n", ⟨12, 11⟩⟩,
        ⟨.lowercase, "items", ⟨13, 1⟩⟩, ⟨.delimiter, ":", ⟨13, 6⟩⟩, ⟨.literal, "\"z\"", ⟨13, 8⟩⟩,
        ⟨.newline, "\n", ⟨13, 11⟩⟩, ⟨.eof, "", ⟨14, 1⟩⟩] := by
    decide +kernel
  have ascending : Reading.IsAscending collidingDocument.expressions := by
    simp only [Reading.IsAscending, collidingDocument, List.pairwise_cons, Reading.atomExpression]
    decide
  exact Parser.parse_of_read {} ⟨[], []⟩ scanned ascending rfl

set_option maxRecDepth 2000 in
theorem collidingSource_analyzed :
    ∃ analysis, analyzeSource collidingSource = .ok analysis ∧
      (analysis.attributesOf? "R").map (·.map (·.name)) = some ["item", "item2"] ∧
      (analysis.attributesOf? "S").map (·.map (·.name)) = some ["item", "item2", "item2"] := by
  rw [analyzeSource_of_parse parse_collidingSource rfl]
  exact ⟨_, rfl, rfl, rfl⟩

/-- Of the two rules only the first is without a clash. -/
theorem collidingSource_clashes :
    ∃ analysis, analyzeSource collidingSource = .ok analysis ∧
      ∀ rule ∈ collidingDocument.rules,
        ((Occurrence.counted rule.definition.merged).Pairwise
          fun x y => ¬ (x.Clashes y ∨ y.Clashes x)) ↔ rule.name = "R" := by
  obtain ⟨analysis, analyzed, firstNames, secondNames⟩ := collidingSource_analyzed
  refine ⟨analysis, analyzed, fun rule member => ?_⟩
  obtain ⟨document, read, _, distinct⟩ := attribute_names_nodup_iff analyzed
  obtain rfl : collidingDocument = document :=
    Except.ok.inj (parse_collidingSource.symm.trans read)
  obtain ⟨attributes, found, distinct⟩ := distinct rule member
  rw [← distinct]
  rcases List.mem_pair.mp member with rfl | rfl
  · have names : attributes.map (·.name) = ["item", "item2"] :=
      Option.some.inj ((congrArg _ found).symm.trans firstNames)
    rw [names]
    decide
  · have names : attributes.map (·.name) = ["item", "item2", "item2"] :=
      Option.some.inj ((congrArg _ found).symm.trans secondNames)
    rw [names]
    decide

/-- Two attributes of the second rule have one name. -/
theorem collidingSource_repeats_name :
    ∃ analysis attributes, analyzeSource collidingSource = .ok analysis ∧
      analysis.attributesOf? "S" = some attributes ∧ ¬ (attributes.map (·.name)).Nodup := by
  obtain ⟨analysis, analyzed, _, names⟩ := collidingSource_analyzed
  obtain ⟨attributes, found, same⟩ := Option.map_eq_some_iff.mp names
  refine ⟨analysis, attributes, analyzed, found, ?_⟩
  rw [same]
  decide

end GrammarBook
