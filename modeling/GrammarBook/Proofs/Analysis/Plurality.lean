import GrammarBook.Proofs.Analysis.Attributes

namespace GrammarBook

/-!
# Plurality of references

A reference is used in a place of its rule, within any number of brackets. The innermost of them
that has a cardinality decides how often the reference occurs there, and its own cardinality where
none of them has one. The plurals of an analysis and the attributes of its rules are those of the
uses.
-/

/-- A reference in its place, with the cardinalities of the brackets around it, innermost first. -/
structure Use where
  reference : Reference
  around : List (Option Cardinality)

namespace Use

def identifier (use : Use) : Identifier := use.reference.identifier

/-- The cardinality that counts in the place, if there is one. -/
def effective? (use : Use) : Option Cardinality :=
  (use.around.findSome? id).or use.reference.cardinality

/-- Whether the reference stands for several in its place. -/
def isPlural (use : Use) : Bool := use.effective?.any Cardinality.isPlural

/-- The use as it is noted in an analysis. -/
def occurrence (use : Use) : Occurrence := ⟨use.identifier, use.isPlural⟩

end Use

mutual

/-- The uses in a term that stands within brackets. -/
def Term.uses (around : List (Option Cardinality)) : Term → List Use
  | .reference use => [⟨use, around⟩]
  | .bracket terms cardinality => Term.listUses (cardinality :: around) terms
  | .literal _ => []

def Term.listUses (around : List (Option Cardinality)) : List Term → List Use
  | [] => []
  | term :: others => term.uses around ++ Term.listUses around others

end

/-- The uses in a definition. The names in lines have no cardinalities and are not among them. -/
def Definition.uses : Definition → List Use
  | multiline _ => []
  | inlined terms _ => Term.listUses [] terms

/-! ## Uses as occurrences -/

/-- What the brackets around a place have decided for the references in it. -/
def decidedBy (around : List (Option Cardinality)) : Option Bool :=
  (around.findSome? id).map Cardinality.isPlural

theorem decidedBy_cons (cardinality : Option Cardinality) (around : List (Option Cardinality)) :
    decidedBy (cardinality :: around) =
      (cardinality.map Cardinality.isPlural).or (decidedBy around) := by
  cases cardinality <;> rfl

theorem Use.isPlural_eq (use : Use) :
    use.isPlural = use.reference.pluralityIn (decidedBy use.around) := by
  rw [isPlural, effective?, Reference.pluralityIn, decidedBy]
  cases use.around.findSome? id <;> rfl

mutual

theorem Term.occurrences_eq (around : List (Option Cardinality)) :
    ∀ term : Term, term.occurrences (decidedBy around) = (term.uses around).map Use.occurrence
  | .reference use => by
    rw [Term.occurrences, Term.uses, List.map_singleton, Use.occurrence, Use.isPlural_eq]
    rfl
  | .bracket terms cardinality => by
    rw [Term.occurrences, Term.uses, ← decidedBy_cons, Term.listOccurrences_eq _ terms]
  | .literal text => by
    rw [Term.occurrences, Term.uses, List.map_nil]

theorem Term.listOccurrences_eq (around : List (Option Cardinality)) : ∀ terms : List Term,
    Term.listOccurrences (decidedBy around) terms = (Term.listUses around terms).map Use.occurrence
  | [] => by rw [Term.listOccurrences, Term.listUses, List.map_nil]
  | term :: others => by
    rw [Term.listOccurrences, Term.listUses, List.map_append, Term.occurrences_eq around term,
      Term.listOccurrences_eq around others]

end

theorem Definition.exists_plural_iff {definition : Definition} {name : String} :
    (∃ occurrence ∈ definition.occurrences,
        occurrence.isPlural = true ∧ occurrence.identifier.name = name) ↔
      ∃ use ∈ definition.uses, use.isPlural = true ∧ use.identifier.name = name := by
  rcases definition with lines | ⟨terms, note⟩
  · simp [occurrences, uses, Line.occurrence]
  · have noted : Term.listOccurrences none terms = (Term.listUses [] terms).map Use.occurrence :=
      Term.listOccurrences_eq [] terms
    rw [occurrences, uses, noted]
    simp [Use.occurrence]

/-- An identifier is plural where it is used again, or where its only use is plural. -/
theorem Use.isPluralAmong_iff {uses : List Use} {identifier : Identifier} :
    Occurrence.isPluralAmong (uses.map Use.occurrence) identifier = true ↔
      2 ≤ (uses.map Use.identifier).count identifier ∨
        ∃ use, uses.filter (·.identifier = identifier) = [use] ∧ use.isPlural = true := by
  have counted : (uses.map Use.identifier).count identifier =
      (uses.filter (·.identifier = identifier)).length := by
    rw [List.count_eq_countP, List.countP_map, List.countP_eq_length_filter]
    rfl
  rw [Occurrence.isPluralAmong, Bool.or_eq_true, decide_eq_true_iff, List.map_map, List.any_map,
    List.any_eq_true]
  refine or_congr_right' fun few => ?_
  constructor
  · rintro ⟨use, among, plural⟩
    rcases Bool.and_eq_true_iff.mp plural with ⟨same, plural⟩
    have kept : use ∈ uses.filter (·.identifier = identifier) := List.mem_filter.mpr ⟨among, same⟩
    have one : (uses.filter (·.identifier = identifier)).length = 1 := by
      have some := List.length_pos_of_mem kept
      change ¬ 2 ≤ (uses.map Use.identifier).count identifier at few
      omega
    obtain ⟨only, single⟩ := List.length_eq_one_iff.mp one
    rw [single, List.mem_singleton] at kept
    exact ⟨only, single, kept ▸ plural⟩
  · rintro ⟨use, single, plural⟩
    rcases List.mem_filter.mp (single ▸ List.mem_singleton_self use) with ⟨among, same⟩
    exact ⟨use, among, Bool.and_eq_true_iff.mpr ⟨same, plural⟩⟩

/-! ## Attributes of uses -/

/-- What a definition asks of the attributes of its rule. Each line has its own, a single one. Terms
have one for each identifier in them, in the order of the first uses. It is plural where the
identifier is used again, or where its only use is plural. -/
def Definition.IsDescribedBy (attributes : List Attribute) : Definition → Prop
  | multiline lines =>
    (attributes.map fun entry => (entry.referent, entry.isPlural)) =
      lines.map fun line => (line.identifier, false)
  | inlined terms _ =>
    attributes.map Attribute.referent =
        ((Term.listUses [] terms).map Use.identifier).eraseDups ∧
      ∀ entry ∈ attributes, entry.isPlural = true ↔
        2 ≤ ((Term.listUses [] terms).map Use.identifier).count entry.referent ∨
          ∃ use, (Term.listUses [] terms).filter (·.identifier = entry.referent) = [use] ∧
            use.isPlural = true

theorem Rule.isDescribedBy_attributes (rule : Rule) :
    rule.definition.IsDescribedBy rule.attributes := by
  have attributes : rule.attributes.map Attribute.occurrence = rule.definition.merged :=
    Occurrence.map_attributes rule.definition.merged
  rcases defined : rule.definition with lines | ⟨terms, note⟩
  · have pairs := congrArg (List.map fun occurrence : Occurrence =>
      (occurrence.identifier, occurrence.isPlural)) attributes
    rw [defined, List.map_map, Definition.merged, Definition.occurrences, List.map_map] at pairs
    exact pairs
  · have noted : Term.listOccurrences none terms = (Term.listUses [] terms).map Use.occurrence :=
      Term.listOccurrences_eq [] terms
    have merged : rule.definition.merged =
        Occurrence.consolidate ((Term.listUses [] terms).map Use.occurrence) := by
      rw [defined, Definition.merged, Definition.occurrences, noted]
    rw [merged] at attributes
    refine ⟨?_, fun entry member => ?_⟩
    · have referents := congrArg (List.map fun occurrence : Occurrence => occurrence.identifier)
        attributes
      rw [Occurrence.identifiers_consolidate, List.map_map, List.map_map] at referents
      exact referents
    · have kept : entry.occurrence ∈
          Occurrence.consolidate ((Term.listUses [] terms).map Use.occurrence) :=
        attributes ▸ List.mem_map_of_mem member
      have plural : entry.isPlural = Occurrence.isPluralAmong
          ((Term.listUses [] terms).map Use.occurrence) entry.referent :=
        Occurrence.isPlural_of_mem_consolidate kept
      rw [plural]
      exact Use.isPluralAmong_iff

/-- An analysis has the plurals and the attributes that the uses of references ask for. -/
theorem Analyzer.analysis_follows_uses (analyzer : Analyzer) {document : Document}
    {analysis : Analysis} (distinct : (document.rules.map (·.name)).Nodup)
    (analyzed : (analyzer.analyze document).1 = .ok analysis) :
    (∀ name, name ∈ analysis.plurals.toList ↔ ∃ rule ∈ document.rules,
        ∃ use ∈ rule.definition.uses, use.isPlural = true ∧ use.identifier.name = name) ∧
      ∀ rule ∈ document.rules, ∃ attributes, analysis.attributesOf? rule.name = some attributes ∧
        rule.definition.IsDescribedBy attributes := by
  obtain ⟨regexes, concludes⟩ := concludes_of_analyze analyzed
  constructor
  · intro name
    rw [concludes.plurals, Document.mem_plurals_iff]
    simp only [Definition.exists_plural_iff]
  · intro rule member
    refine ⟨rule.attributes, ?_, rule.isDescribedBy_attributes⟩
    rw [Analysis.attributesOf?, concludes.references]
    exact Document.get?_references distinct member

/-- A document with uses in brackets of all kinds. -/
def nestedDocument : Document where
  notice := "!>\nn\n<!"
  leading := "!>\nl\n<!"
  rules :=
    [⟨"R", .inlined
        [.bracket
          [.bracket
            [.reference ⟨.lower "word", none⟩,
              .reference ⟨.lower "item", some (.quantified "+")⟩] (some (.quantified "?")),
            .bracket [.reference ⟨.upper "S", none⟩] none] (some (.quantified "*")),
          .reference ⟨.lower "word", none⟩] none⟩,
      ⟨"S", .multiline [⟨.upper "R", none⟩, ⟨.lower "item", none⟩, ⟨.upper "R", none⟩]⟩]
  trailing := "!>\n<!"
  expressions := []

set_option maxRecDepth 2000 in
theorem nestedDocument_follows_uses :
    ∃ analysis, (({} : Analyzer).analyze nestedDocument).1 = .ok analysis ∧
      "S" ∈ analysis.plurals.toList ∧ "item" ∉ analysis.plurals.toList ∧
      ∃ attributes, analysis.attributesOf? "R" = some attributes ∧
        attributes.map Attribute.referent = [.lower "word", .lower "item", .upper "S"] := by
  obtain ⟨analysis, analyzed⟩ : ∃ analysis,
      (({} : Analyzer).analyze nestedDocument).1 = .ok analysis := ⟨_, rfl⟩
  obtain ⟨plurals, described⟩ :=
    Analyzer.analysis_follows_uses {} (by simp [nestedDocument]) analyzed
  obtain ⟨attributes, found, referents, _⟩ := described _ List.mem_cons_self
  refine ⟨analysis, analyzed, (plurals "S").mpr (by decide), fun plural => ?_, attributes, found,
    referents.trans (by decide)⟩
  exact absurd ((plurals "item").mp plural) (by decide)

end GrammarBook
