import GrammarBook.Proofs.Regex.Reading

namespace GrammarBook
namespace Regex

open Kind

/-!
# Pieces that are read

What each notation is read as, in front of any text. A text that ends in a quantifier is only read
as that where no question mark follows, which would make the quantifier a lazy one. So there are two
relations between texts and pieces, and the second is needed behind quantifiers alone.
-/

/-- What is being read, with pieces that have been read in the innermost group. -/
def Nesting.push (nesting : Nesting) (pieces : List Expr) : Nesting :=
  { nesting with inner := nesting.inner.push pieces }

/-- The text is read as the pieces. -/
def Reads (text : List Char) (pieces : List Expr) : Prop :=
  ∀ (nesting : Nesting) (rest : List Char) (expr : Expr),
    ReadsOn (nesting.push pieces) rest expr → ReadsOn nesting (text ++ rest) expr

/-- No question mark comes first. -/
def Unmarked (text : List Char) : Prop := text.head? ≠ some '?'

/-- The text is read as the pieces unless a question mark follows. -/
def ReadsUnmarked (text : List Char) (pieces : List Expr) : Prop :=
  ∀ (nesting : Nesting) (rest : List Char) (expr : Expr), Unmarked rest →
    ReadsOn (nesting.push pieces) rest expr → ReadsOn nesting (text ++ rest) expr

/-! ## Pieces in a row -/

theorem Nesting.push_push (nesting : Nesting) (front back : List Expr) :
    (nesting.push front).push back = nesting.push (front ++ back) := by
  simp [push, Frame.push, List.append_assoc]

theorem Unmarked.append {front back : List Char} (first : Unmarked front) (later : Unmarked back) :
    Unmarked (front ++ back) := by
  cases front with
  | nil => exact later
  | cons c front => exact first

theorem reads_nil : Reads [] [] := fun _ _ _ later => later

theorem Reads.append {front back : List Char} {pieces others : List Expr} (first : Reads front pieces)
    (later : Reads back others) : Reads (front ++ back) (pieces ++ others) := by
  intro nesting rest expr reads
  rw [List.append_assoc]
  apply first
  apply later
  rwa [Nesting.push_push]

theorem Reads.unmarked {text : List Char} {pieces : List Expr} (reads : Reads text pieces) :
    ReadsUnmarked text pieces :=
  fun nesting rest expr _ later => reads nesting rest expr later

theorem ReadsUnmarked.append {front back : List Char} {pieces others : List Expr}
    (first : ReadsUnmarked front pieces) (begins : Unmarked back)
    (later : ReadsUnmarked back others) : ReadsUnmarked (front ++ back) (pieces ++ others) := by
  intro nesting rest expr unmarked reads
  rw [List.append_assoc]
  apply first _ _ _ (begins.append unmarked)
  apply later _ _ _ unmarked
  rwa [Nesting.push_push]

/-- A sign that is a piece by itself. -/
theorem reads_one {text : List Char} {set : CharClass} (nonempty : text ≠ [])
    (read : ∀ rest, sign? (text ++ rest) = some (.one set, rest)) : Reads text [.one set] :=
  fun _ rest _ later => .sign nonempty (read rest) rfl later

/-! ## Characters -/

theorem escapeChar_ne_nil (c : Char) : escapeChar c ≠ [] := by
  unfold escapeChar
  split
  · exact List.cons_ne_nil _ _
  · exact List.cons_ne_nil _ _

/-- A character that stands for itself is read as that, in a class or on its own. -/
theorem member?_escapeChar (c : Char) (rest : List Char) :
    member? (escapeChar c ++ rest) = some (.single c, rest) := by
  unfold escapeChar
  by_cases meaningful : c ∈ metacharacters
  · rw [if_pos meaningful]
    simp only [metacharacters, List.mem_cons, List.not_mem_nil, or_false] at meaningful
    rcases meaningful with
      rfl | rfl | rfl | rfl | rfl | rfl | rfl | rfl | rfl | rfl | rfl | rfl | rfl | rfl | rfl | rfl |
      rfl | rfl <;> rfl
  · have notBackslash : c ≠ '\\' := fun same => meaningful (same ▸ by decide)
    rw [if_neg meaningful, List.singleton_append, member?, if_neg meaningful]
    · exact fun _ _ _ same => absurd same notBackslash
    · exact fun _ _ same => absurd same notBackslash

/-- Where no other sign begins, what stands for a character is read. -/
theorem sign?_escapeChar (c : Char) (rest : List Char) :
    sign? (escapeChar c ++ rest) = some (.one ⟨false, [.single c]⟩, rest) := by
  have read : (member? (escapeChar c ++ rest)).map
      (fun read => (Sign.one ⟨false, [read.1]⟩, read.2)) = some (.one ⟨false, [.single c]⟩, rest) := by
    rw [member?_escapeChar]
    rfl
  rw [← read]
  unfold escapeChar
  by_cases meaningful : c ∈ metacharacters
  · rw [if_pos meaningful]
    rfl
  · have notMeaningful : ∀ other ∈ metacharacters, c ≠ other := fun other member same =>
      meaningful (same ▸ member)
    rw [if_neg meaningful, List.singleton_append]
    simp only [metacharacters, List.forall_mem_cons] at notMeaningful
    rw [sign?] <;> simp_all

theorem reads_escapeChar (c : Char) : Reads (escapeChar c) [.single c] :=
  reads_one (escapeChar_ne_nil c) (sign?_escapeChar c)

/-- The pieces of a text that stands for itself: one for each of its characters. -/
def spelledOut (text : List Char) : List Expr := text.map .single

/-- A text that stands for itself is read character by character. -/
theorem reads_escape (text : List Char) : Reads (text.flatMap escapeChar) (spelledOut text) := by
  induction text with
  | nil => exact reads_nil
  | cons c text ih => exact (reads_escapeChar c).append ih

/-! ## Classes -/

/-- The text begins with a character that has no meaning behind a quantifier or within a class. -/
def Plain (text : List Char) : Prop :=
  ∃ c rest, text = c :: rest ∧ c ∉ ['?', '^', '-', ']']

theorem Plain.append {front : List Char} (plain : Plain front) (back : List Char) :
    Plain (front ++ back) := by
  obtain ⟨c, rest, rfl, apart⟩ := plain
  exact ⟨c, rest ++ back, rfl, apart⟩

theorem Plain.unmarked {text : List Char} (plain : Plain text) : Unmarked text := by
  obtain ⟨c, rest, rfl, apart⟩ := plain
  intro marked
  cases marked
  exact apart (by decide)

theorem plain_escapeChar (c : Char) : Plain (escapeChar c) := by
  unfold escapeChar
  by_cases meaningful : c ∈ metacharacters
  · rw [if_pos meaningful]
    exact ⟨'\\', [c], rfl, by decide⟩
  · rw [if_neg meaningful]
    refine ⟨c, [], rfl, fun member => meaningful ?_⟩
    have subset : ['?', '^', '-', ']'] ⊆ metacharacters := by decide
    exact subset member

/-- Reading members on up to the end of the class gives the members and leaves the rest. -/
inductive MembersOn : List Char → List Member → List Char → Prop
  | closed (rest : List Char) : MembersOn (']' :: rest) [] rest
  | member {front rest left : List Char} {member : Member} {others : List Member}
      (plain : Plain front) (read : rangeMember? (front ++ rest) = some (member, rest))
      (later : MembersOn rest others left) : MembersOn (front ++ rest) (member :: others) left

theorem members?_of_membersOn {text left : List Char} {members : List Member}
    (reads : MembersOn text members left) (bound : Nat) (enough : text.length ≤ bound) :
    members? bound text = some (members, left) := by
  induction reads generalizing bound with
  | closed rest => cases bound <;> rfl
  | @member front rest left member others plain read later ih =>
      obtain ⟨c, tail, rfl, apart⟩ := plain
      have notEnd : c ≠ ']' := by
        rintro rfl
        exact apart (by decide)
      cases bound with
      | zero => simp at enough
      | succ bound =>
          have shorter : rest.length ≤ bound := by
            simp only [List.cons_append, List.length_cons, List.length_append] at enough
            omega
          rw [List.cons_append] at read ⊢
          rw [members?, read]
          · simp [ih bound shorter]
          · exact fun _ same => absurd (List.cons.inj same).1 notEnd

/-- The text is read as members of a class. -/
def Lists (text : List Char) (members : List Member) : Prop :=
  ∀ (rest left : List Char) (others : List Member), rest.head? ≠ some '-' →
    MembersOn rest others left → MembersOn (text ++ rest) (members ++ others) left

theorem Lists.append {front back : List Char} {members others : List Member}
    (first : Lists front members) (later : Lists back others) (plain : back = [] ∨ Plain back) :
    Lists (front ++ back) (members ++ others) := by
  intro rest left behind noDash reads
  rw [List.append_assoc, List.append_assoc]
  apply first
  · rcases plain with rfl | ⟨c, tail, rfl, apart⟩
    · exact noDash
    · intro dash
      cases dash
      exact apart (by decide)
  · exact later rest left behind noDash reads

/-- A member that is not a range. -/
theorem lists_member {text : List Char} {member : Member} (plain : Plain text)
    (read : ∀ rest, member? (text ++ rest) = some (member, rest)) : Lists text [member] := by
  intro rest left others noDash later
  refine .member plain ?_ later
  rw [rangeMember?, read]
  split
  · rename_i same
    cases same
    exact absurd rfl noDash
  · rfl

theorem lists_single (c : Char) : Lists (escapeChar c) [.single c] :=
  lists_member (plain_escapeChar c) (member?_escapeChar c)

/-- Two characters with a dash between them are a range unless they decrease. -/
theorem lists_range {low high : Char} (ascending : low ≤ high) :
    Lists (escapeChar low ++ '-' :: escapeChar high) [.range low high] := by
  intro rest left others _ later
  refine .member ((plain_escapeChar low).append _) ?_ later
  rw [List.append_assoc, rangeMember?, member?_escapeChar, List.cons_append]
  simp only [member?_escapeChar, if_pos ascending]

/-- How a class begins. -/
def classStart (isExcluded : Bool) : List Char := if isExcluded then ['[', '^'] else ['[']

/-- A class is read with its members. -/
theorem reads_class {text : List Char} {members : List Member} (isExcluded : Bool)
    (nonempty : members ≠ []) (plain : Plain text) (lists : Lists text members) :
    Reads (classStart isExcluded ++ text ++ [']']) [.one ⟨isExcluded, members⟩] := by
  have read : ∀ rest, class? isExcluded (text ++ ']' :: rest) =
      some (.one ⟨isExcluded, members⟩, rest) := by
    intro rest
    have found := lists (']' :: rest) rest [] (by simp) (.closed rest)
    rw [List.append_nil] at found
    obtain ⟨member, others, rfl⟩ := List.exists_cons_of_ne_nil nonempty
    rw [class?, members?_of_membersOn found _ (Nat.le_refl _)]
  obtain ⟨c, tail, rfl, apart⟩ := plain
  refine reads_one (by simp) fun rest => ?_
  rw [List.append_assoc, List.append_assoc]
  cases isExcluded with
  | true => exact read rest
  | false =>
      have notCaret : c ≠ '^' := by
        rintro rfl
        exact apart (by decide)
      refine Eq.trans ?_ (read rest)
      change sign? ('[' :: c :: (tail ++ ']' :: rest)) = _
      rw [sign?]
      · rfl
      · exact fun _ same => absurd (List.cons.inj same).1 notCaret

/-! ## Quantifiers -/

/-- Binds counts to the last piece. -/
def quantifyLast (counts : Counts) (pieces : List Expr) : List Expr :=
  pieces.dropLast ++ pieces.getLast?.toList.map (.repeated counts)

@[simp] theorem quantifyLast_concat (counts : Counts) (pieces : List Expr) (last : Expr) :
    quantifyLast counts (pieces ++ [last]) = pieces ++ [.repeated counts last] := by
  simp [quantifyLast]

/-- The text is a quantifier, which a question mark makes a lazy one. -/
def IsQuantifier (text : List Char) (counts : Counts) : Prop :=
  text ≠ [] ∧ ∀ rest, sign? (text ++ rest) = some (quantified counts rest)

theorem quantified_of_unmarked (counts : Counts) {rest : List Char} (unmarked : Unmarked rest) :
    quantified counts rest = (.quantifier counts, rest) := by
  unfold quantified
  split
  · exact absurd rfl unmarked
  · rfl

/-- A quantifier binds to the last piece, be it a lazy one or not. -/
theorem Reads.quantify {text quantifier : List Char} {pieces : List Expr} {counts : Counts}
    (reads : Reads text pieces) (nonempty : pieces ≠ []) (isQuantifier : IsQuantifier quantifier counts)
    (isLazy : Bool) :
    ReadsUnmarked (text ++ (quantifier ++ if isLazy then ['?'] else []))
      (quantifyLast counts pieces) := by
  intro nesting rest expr unmarked later
  obtain ⟨someText, sign⟩ := isQuantifier
  have read : sign? ((quantifier ++ if isLazy then ['?'] else []) ++ rest) =
      some (.quantifier counts, rest) := by
    rw [List.append_assoc, sign]
    cases isLazy with
    | true => rfl
    | false => exact congrArg some (quantified_of_unmarked counts unmarked)
  rw [List.append_assoc]
  apply reads
  obtain ⟨front, last, rfl⟩ := (List.eq_nil_or_concat' pieces).resolve_left nonempty
  refine .sign (by simp [someText]) read ?_ later
  simp [Nesting.push, Frame.push, Nesting.step]

theorem isQuantifier_optional : IsQuantifier ['?'] ⟨0, some 1⟩ := ⟨by simp, fun _ => rfl⟩

theorem isQuantifier_any : IsQuantifier ['*'] ⟨0, none⟩ := ⟨by simp, fun _ => rfl⟩

theorem isQuantifier_some : IsQuantifier ['+'] ⟨1, none⟩ := ⟨by simp, fun _ => rfl⟩

section Counts

variable {minimum maximum : List Char}

/-- Digits are read up to where they end. -/
theorem cutWhile_digits (digits : minimum.all Text.isDecimal = true) {c : Char} (rest : List Char)
    (other : Text.isDecimal c = false) :
    Kind.cutWhile Text.isDecimal (minimum ++ c :: rest) = (minimum, c :: rest) :=
  Kind.cutWhile_append digits (by simp [other])

theorem isQuantifier_exactly (some : minimum ≠ []) (digits : minimum.all Text.isDecimal = true) :
    IsQuantifier ('\x7b' :: (minimum ++ ['\x7d']))
      ⟨Text.decimalValue minimum, .some (Text.decimalValue minimum)⟩ := by
  refine ⟨List.cons_ne_nil _ _, fun rest => ?_⟩
  obtain ⟨c, others, rfl⟩ := List.exists_cons_of_ne_nil some
  rw [List.cons_append, List.append_assoc]
  change (counts? ((c :: others) ++ '\x7d' :: rest)).map _ = _
  rw [counts?, cutWhile_digits digits rest (by decide)]
  rfl

theorem isQuantifier_from (some : minimum ≠ []) (digits : minimum.all Text.isDecimal = true) :
    IsQuantifier ('\x7b' :: (minimum ++ [',', '\x7d'])) ⟨Text.decimalValue minimum, none⟩ := by
  refine ⟨List.cons_ne_nil _ _, fun rest => ?_⟩
  obtain ⟨c, others, rfl⟩ := List.exists_cons_of_ne_nil some
  rw [List.cons_append, List.append_assoc]
  change (counts? ((c :: others) ++ ',' :: '\x7d' :: rest)).map _ = _
  rw [counts?, cutWhile_digits digits _ (by decide)]
  rfl

theorem isQuantifier_between (someMinimum : minimum ≠ [])
    (digits : minimum.all Text.isDecimal = true) (someMaximum : maximum ≠ [])
    (otherDigits : maximum.all Text.isDecimal = true)
    (ascending : Text.decimalValue minimum ≤ Text.decimalValue maximum) :
    IsQuantifier ('\x7b' :: (minimum ++ ',' :: (maximum ++ ['\x7d'])))
      ⟨Text.decimalValue minimum, some (Text.decimalValue maximum)⟩ := by
  refine ⟨List.cons_ne_nil _ _, fun rest => ?_⟩
  obtain ⟨c, others, rfl⟩ := List.exists_cons_of_ne_nil someMinimum
  obtain ⟨d, behind, rfl⟩ := List.exists_cons_of_ne_nil someMaximum
  simp only [List.cons_append, List.append_assoc, List.nil_append]
  change (counts? ((c :: others) ++ ',' :: ((d :: behind) ++ '\x7d' :: rest))).map _ = _
  rw [counts?, cutWhile_digits digits _ (by decide)]
  simp only [cutWhile_digits otherDigits rest (c := '\x7d') (by decide), if_pos ascending]
  rfl

end Counts

/-! ## Groups -/

/-- Read behind what came before in its group, the text completes the group to the tree. -/
def Completes (before : Option Expr) (text : List Char) (tree : Expr) : Prop :=
  ∀ (outer : List Frame) (rest : List Char) (expr : Expr), Unmarked rest →
    (∀ frame : Frame, frame.expr = tree → ReadsOn ⟨frame, outer⟩ rest expr) →
      ReadsOn ⟨⟨before, []⟩, outer⟩ (text ++ rest) expr

/-- Pieces with the choices before them. -/
def lastChoice (before : Option Expr) (pieces : List Expr) : Expr :=
  before.elim (.row pieces) fun earlier => .choice earlier (.row pieces)

theorem ReadsUnmarked.completes {text : List Char} {pieces : List Expr}
    (reads : ReadsUnmarked text pieces) (before : Option Expr) :
    Completes before text (lastChoice before pieces) := by
  intro outer rest expr unmarked later
  apply reads _ _ _ unmarked
  apply later
  cases before <;> simp [Frame.push, Frame.expr, lastChoice]

/-- A bar leaves behind all that has been read of its group. -/
theorem Completes.bar {before : Option Expr} {front back : List Char} {tree whole : Expr}
    (first : Completes before front tree) (second : Completes (some tree) back whole) :
    Completes before (front ++ '|' :: back) whole := by
  intro outer rest expr unmarked later
  rw [List.append_assoc]
  apply first _ _ _ (by simp [Unmarked])
  rintro frame rfl
  change ReadsOn _ (['|'] ++ (back ++ rest)) expr
  exact .sign (by simp) rfl rfl (second outer rest expr unmarked later)

/-- The text of a group that is not remembered. -/
def grouped (text : List Char) : List Char := groupStart.toList ++ text ++ [')']

/-- A group is read as what its text completes it to. -/
theorem reads_grouped {text : List Char} {tree : Expr} (completes : Completes none text tree) :
    Reads (grouped text) [tree] := by
  intro nesting rest expr later
  rw [grouped, List.append_assoc, List.append_assoc]
  refine .sign (List.cons_ne_nil '(' ['?', ':']) rfl rfl ?_
  apply completes _ _ _ (by simp [Unmarked])
  rintro frame rfl
  exact .sign (List.cons_ne_nil ')' []) rfl rfl later

/-- A regular expression that is a single piece. -/
theorem read?_of_reads {regex : String} {tree : Expr} (reads : Reads regex.toList [tree]) :
    read? regex = some (.row [tree]) := by
  apply read?_of_readsOn
  rw [← List.append_nil regex.toList]
  exact reads _ _ _ (.finish rfl)

end Regex
end GrammarBook
