import GrammarBook.Proofs.Regex.Pieces

namespace GrammarBook
namespace Regex

/-!
# What a quantifier repeats

A quantifier repeats the last piece before it. That is the same as repeating all the pieces when
there is one piece, or when once is the only count it allows. For several characters in a row, and
for the end of a line with its optional carriage return, it is the same in no other case: the lengths
of the words tell the first apart, their carriage returns the second.
-/

variable (alphabet : Alphabet)

/-! ## Words -/

theorem language_single (c : Char) : (Expr.single c).language alphabet = {[c]} := by
  ext word
  constructor
  · rintro ⟨d, rfl, held⟩
    have same : c = d := by simpa [CharClass.accepts, Member.accepts] using held
    rw [same]
    rfl
  · rintro rfl
    exact ⟨c, rfl, by simp [CharClass.accepts, Member.accepts]⟩

theorem language_row_append (front back : List Expr) :
    (Expr.row (front ++ back)).language alphabet =
      (Expr.row front).language alphabet * (Expr.row back).language alphabet := by
  rw [language_row, language_row, language_row, List.map_append, List.prod_append]

theorem language_row_one (piece : Expr) :
    (Expr.row [piece]).language alphabet = piece.language alphabet := by
  rw [language_row, List.map_singleton, List.prod_singleton]

/-- A text that stands for itself matches itself alone. -/
theorem language_spelledOut (text : List Char) :
    (Expr.row (spelledOut text)).language alphabet = {text} := by
  induction text with
  | nil => rfl
  | cons c text ih =>
      change (Expr.single c).language alphabet * (Expr.row (spelledOut text)).language alphabet = _
      rw [ih, language_single]
      ext word
      rw [Language.mem_mul]
      constructor
      · rintro ⟨_, rfl, _, rfl, rfl⟩
        rfl
      · rintro rfl
        exact ⟨[c], rfl, text, rfl, rfl⟩

/-- The words of one word repeated. -/
theorem mem_repetition_singleton {counts : Counts} {word text : List Char} :
    word ∈ repetition counts {text} ↔
      ∃ count, counts.Admits count ∧ word = (List.replicate count text).flatten := by
  constructor
  · rintro ⟨count, admitted, member⟩
    obtain ⟨words, rfl, rfl, same⟩ := Language.mem_pow.mp member
    have replicated : words = List.replicate words.length text :=
      List.eq_replicate_iff.mpr ⟨rfl, fun one member => same one member⟩
    exact ⟨words.length, admitted, congrArg List.flatten replicated⟩
  · rintro ⟨count, admitted, rfl⟩
    refine ⟨count, admitted, Language.mem_pow.mpr ⟨List.replicate count text, rfl, by simp, ?_⟩⟩
    intro one member
    exact List.eq_of_mem_replicate member

theorem mem_repetition_single {counts : Counts} {word : List Char} {c : Char} :
    word ∈ (Expr.repeated counts (.single c)).language alphabet ↔
      ∃ count, counts.Admits count ∧ word = List.replicate count c := by
  change word ∈ repetition counts ((Expr.single c).language alphabet) ↔ _
  rw [language_single, mem_repetition_singleton]
  simp

/-! ## Counts -/

def Counts.once : Counts := ⟨1, some 1⟩

theorem admits_once {count : Nat} : Counts.once.Admits count ↔ count = 1 := by
  simp [Counts.Admits, Counts.once]
  omega

theorem repetition_once (language : Language Char) : repetition .once language = language := by
  ext word
  constructor
  · rintro ⟨count, admitted, member⟩
    rw [admits_once] at admitted
    rwa [admitted, pow_one] at member
  · intro member
    exact ⟨1, admits_once.mpr rfl, by rwa [pow_one]⟩

/-- Counts that allow anything but once allow none, or two or more. -/
theorem exists_admitted {counts : Counts} (ascending : ∀ maximum ∈ counts.maximum, counts.minimum ≤ maximum)
    (notOnce : counts ≠ .once) :
    counts.Admits 0 ∨ counts.Admits (max counts.minimum 2) := by
  obtain ⟨minimum, maximum⟩ := counts
  rcases Nat.eq_zero_or_pos minimum with rfl | positive
  · exact .inl ⟨Nat.le_refl 0, fun maximum _ => Nat.zero_le maximum⟩
  · right
    refine ⟨Nat.le_max_left minimum 2, fun most isMost => ?_⟩
    have least : minimum ≤ most := ascending most isMost
    have notBoth : ¬ (minimum = 1 ∧ most = 1) := by
      rintro ⟨rfl, rfl⟩
      exact notOnce (congrArg (Counts.mk 1) isMost)
    change max minimum 2 ≤ most
    omega

/-! ## Quantifiers -/

/-- A quantifier behind a single piece repeats it. -/
theorem language_quantifyLast_one (counts : Counts) (piece : Expr) :
    (Expr.row (quantifyLast counts [piece])).language alphabet =
      repetition counts (piece.language alphabet) := by
  rw [← List.nil_append [piece], quantifyLast_concat, List.nil_append, language_row_one]
  rfl

/-- A quantifier that allows once alone changes nothing. -/
theorem language_quantifyLast_once {pieces : List Expr} (nonempty : pieces ≠ []) :
    (Expr.row (quantifyLast .once pieces)).language alphabet =
      (Expr.row pieces).language alphabet := by
  obtain ⟨front, last, rfl⟩ := (List.eq_nil_or_concat' pieces).resolve_left nonempty
  rw [quantifyLast_concat, language_row_append, language_row_append, language_row_one,
    language_row_one]
  exact congrArg (_ * ·) (repetition_once (last.language alphabet))

/-- The words that a quantifier behind several characters in a row matches. -/
theorem mem_quantifyLast_spelledOut {counts : Counts} {front word : List Char} {last : Char} :
    word ∈ (Expr.row (quantifyLast counts (spelledOut (front ++ [last])))).language alphabet ↔
      ∃ count, counts.Admits count ∧ word = front ++ List.replicate count last := by
  rw [spelledOut, List.map_append, List.map_singleton, quantifyLast_concat, language_row_append,
    language_row_one, Language.mem_mul]
  constructor
  · rintro ⟨one, isFront, other, repeated, rfl⟩
    obtain ⟨count, admitted, rfl⟩ := (mem_repetition_single alphabet).mp repeated
    have same : one = front := by
      have member : one ∈ (Expr.row (spelledOut front)).language alphabet := isFront
      rw [language_spelledOut] at member
      exact member
    exact ⟨count, admitted, by rw [same]⟩
  · rintro ⟨count, admitted, rfl⟩
    refine ⟨front, ?_, _, (mem_repetition_single alphabet).mpr ⟨count, admitted, rfl⟩, rfl⟩
    change front ∈ (Expr.row (spelledOut front)).language alphabet
    rw [language_spelledOut]
    rfl

/-- A quantifier behind several characters in a row repeats them all only if it allows once alone. -/
theorem language_quantifyLast_spelledOut_iff {counts : Counts} {text : List Char}
    (several : 1 < text.length) (ascending : ∀ maximum ∈ counts.maximum, counts.minimum ≤ maximum) :
    (Expr.row (quantifyLast counts (spelledOut text))).language alphabet = repetition counts {text} ↔
      counts = .once := by
  have nonempty : text ≠ [] := fun none => by simp [none] at several
  constructor
  · intro same
    by_contra notOnce
    obtain ⟨front, last, rfl⟩ := (List.eq_nil_or_concat' text).resolve_left nonempty
    have positive : 0 < front.length := by simpa using several
    have lengths : ∀ count, counts.Admits count →
        ∃ other, counts.Admits other ∧ front.length + count = other * (front.length + 1) := by
      intro count admitted
      have member := (mem_quantifyLast_spelledOut alphabet).mpr
        ⟨count, admitted, (rfl : _ = front ++ List.replicate count last)⟩
      rw [same] at member
      obtain ⟨other, alsoAdmitted, words⟩ := mem_repetition_singleton.mp member
      exact ⟨other, alsoAdmitted, by simpa using congrArg List.length words⟩
    rcases exists_admitted ascending notOnce with none | many
    · obtain ⟨other, _, total⟩ := lengths 0 none
      rcases Nat.eq_zero_or_pos other with rfl | some
      · omega
      · have := Nat.mul_le_mul_right (front.length + 1) some
        omega
    · obtain ⟨other, admitted, total⟩ := lengths _ many
      have least : counts.minimum ≤ other := admitted.1
      rcases Nat.lt_or_ge other 2 with few | enough
      · obtain rfl | rfl : other = 0 ∨ other = 1 := by omega
        · omega
        · omega
      · have := Nat.mul_le_mul_right front.length enough
        rw [Nat.mul_add] at total
        omega
  · rintro rfl
    rw [language_quantifyLast_once alphabet (by simpa [spelledOut] using nonempty),
      language_spelledOut, repetition_once]

/-! ## Ends of lines -/

/-- An optional carriage return and a newline. -/
def lineEnd : List Expr := [.repeated ⟨0, some 1⟩ (.single '\r'), .single '\n']

/-- The texts that end a line. -/
def lineEnds : Language Char := {text | text = ['\n'] ∨ text = ['\r', '\n']}

/-- The words that a quantifier behind the end of a line matches. -/
theorem mem_quantifyLast_lineEnd {counts : Counts} {word : List Char} :
    word ∈ (Expr.row (quantifyLast counts lineEnd)).language alphabet ↔
      ∃ returns ≤ 1, ∃ count, counts.Admits count ∧
        word = List.replicate returns '\r' ++ List.replicate count '\n' := by
  change word ∈ (Expr.row ([.repeated ⟨0, some 1⟩ (.single '\r')] ++
    [.repeated counts (.single '\n')])).language alphabet ↔ _
  rw [language_row_append, language_row_one, language_row_one, Language.mem_mul]
  constructor
  · rintro ⟨one, isOptional, other, repeated, rfl⟩
    obtain ⟨returns, admitted, rfl⟩ := (mem_repetition_single alphabet).mp isOptional
    obtain ⟨count, alsoAdmitted, rfl⟩ := (mem_repetition_single alphabet).mp repeated
    exact ⟨returns, admitted.2 1 rfl, count, alsoAdmitted, rfl⟩
  · rintro ⟨returns, few, count, admitted, rfl⟩
    have allowed : Counts.Admits ⟨0, some 1⟩ returns := ⟨Nat.zero_le returns, by rintro _ ⟨⟩; exact few⟩
    exact ⟨_, (mem_repetition_single alphabet).mpr ⟨returns, allowed, rfl⟩,
      _, (mem_repetition_single alphabet).mpr ⟨count, admitted, rfl⟩, rfl⟩

theorem language_lineEnd : (Expr.row lineEnd).language alphabet = lineEnds := by
  rw [← language_quantifyLast_once alphabet (by simp [lineEnd] : lineEnd ≠ [])]
  ext word
  rw [mem_quantifyLast_lineEnd]
  constructor
  · rintro ⟨returns, few, count, admitted, rfl⟩
    rw [admits_once.mp admitted]
    obtain rfl | rfl : returns = 0 ∨ returns = 1 := by omega
    · exact .inl rfl
    · exact .inr rfl
  · rintro (rfl | rfl)
    · exact ⟨0, Nat.zero_le 1, 1, admits_once.mpr rfl, rfl⟩
    · exact ⟨1, Nat.le_refl 1, 1, admits_once.mpr rfl, rfl⟩

/-- A carriage return alone does not end lines. -/
theorem return_not_mem_repetition (counts : Counts) : ['\r'] ∉ repetition counts lineEnds := by
  rintro ⟨count, _, member⟩
  obtain ⟨ends, words, _, areEnds⟩ := Language.mem_pow.mp member
  cases ends with
  | nil => cases words
  | cons first others =>
      rcases areEnds first List.mem_cons_self with rfl | rfl
      · cases words
      · cases words

/-- Two ends of lines have a carriage return behind the first newline if they are written so. -/
theorem returns_not_mem_quantifyLast (counts : Counts) (rest : List Char) :
    '\r' :: '\n' :: '\r' :: rest ∉
      (Expr.row (quantifyLast counts lineEnd)).language alphabet := by
  rw [mem_quantifyLast_lineEnd]
  rintro ⟨returns, few, count, _, words⟩
  have later : '\r' ∈ ('\r' :: '\n' :: '\r' :: rest).drop 1 := by simp
  rw [words, List.drop_append, List.drop_replicate, List.drop_replicate, Nat.sub_eq_zero_of_le few,
    List.replicate_zero, List.nil_append] at later
  exact absurd (List.eq_of_mem_replicate later) (by decide)

/-- A quantifier behind the end of a line repeats it only if it allows once alone. -/
theorem language_quantifyLast_lineEnd_iff {counts : Counts}
    (ascending : ∀ maximum ∈ counts.maximum, counts.minimum ≤ maximum) :
    (Expr.row (quantifyLast counts lineEnd)).language alphabet = repetition counts lineEnds ↔
      counts = .once := by
  constructor
  · intro same
    by_contra notOnce
    rcases exists_admitted ascending notOnce with none | many
    · apply return_not_mem_repetition counts
      rw [← same, mem_quantifyLast_lineEnd]
      exact ⟨1, Nat.le_refl 1, 0, none, rfl⟩
    · obtain ⟨more, enough⟩ := Nat.exists_eq_add_of_le' (Nat.le_max_right counts.minimum 2)
      rw [enough] at many
      have member : (List.replicate (more + 2) ['\r', '\n']).flatten ∈
          repetition counts lineEnds := by
        refine ⟨more + 2, many, Language.mem_pow.mpr ⟨_, rfl, List.length_replicate, ?_⟩⟩
        intro one isEnd
        exact .inr (List.eq_of_mem_replicate isEnd)
      rw [← same] at member
      exact returns_not_mem_quantifyLast alphabet counts _ member
  · rintro rfl
    rw [language_quantifyLast_once alphabet (by simp [lineEnd]), language_lineEnd, repetition_once]

end Regex
end GrammarBook
