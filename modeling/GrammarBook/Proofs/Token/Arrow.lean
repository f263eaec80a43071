import GrammarBook.Excerpt
import GrammarBook.Proofs.Token.Placement
import GrammarBook.Proofs.Token.Relexing

namespace GrammarBook

/-!
# Where the arrow of an excerpt points

Three counts have to agree if the arrow is to stand under the first character of its token: that of
places in a scan, that of lines in the source, and that of columns in the excerpt. The first two
always do. A line number takes four columns at least and as many as it needs, and the arrow allows
for four; so it falls short behind line 9999.
-/

namespace Text

/-! ## Lines of a text -/

/-- Lines that have ended stay as they are, whatever follows, and what follows goes on with the line
that has begun. -/
theorem linesFrom_append (before : List Char) {line : List Char} (unended : '\n' ∉ line) :
    ∃ ended : List (List Char), ended.length = before.count '\n' ∧ ∀ rest,
      linesFrom line (before ++ rest) =
        ended ++ linesFrom ((before.reverse ++ line).takeWhile (· != '\n')) rest := by
  induction before generalizing line with
  | nil =>
      have all : ∀ c ∈ line, (c != '\n') = true := fun c member =>
        bne_iff_ne.mpr fun newline => unended (newline ▸ member)
      have whole : line.takeWhile (· != '\n') = line := by
        simpa using @List.takeWhile_append_of_pos _ _ line [] all
      exact ⟨[], rfl, fun rest => by simp [whole]⟩
  | cons c before ih =>
      by_cases newline : c = '\n'
      · subst newline
        rcases ih List.not_mem_nil with ⟨ended, count, continues⟩
        refine ⟨dropReturn line.reverse :: ended, by simp [count], fun rest => ?_⟩
        have cutOff : ((('\n' :: before).reverse ++ line).takeWhile (· != '\n')) =
            (before.reverse ++ []).takeWhile (· != '\n') := by
          simp only [List.reverse_cons, List.append_assoc, List.takeWhile_append]
          split <;> simp
        rw [List.cons_append, linesFrom, if_pos rfl, continues, cutOff, List.cons_append]
      · have goesOn : '\n' ∉ c :: line := by simp [Ne.symm newline, unended]
        rcases ih goesOn with ⟨ended, count, continues⟩
        refine ⟨ended, by simp [count, newline], fun rest => ?_⟩
        rw [List.cons_append, linesFrom, if_neg newline, continues]
        simp

/-- The end of a line takes a carriage return from it and no other character. -/
theorem dropReturn_concat (front : List Char) {c : Char} {back : List Char}
    (stays : back = [] → c ≠ '\r') : ∃ kept, dropReturn (front ++ c :: back) = front ++ c :: kept := by
  rw [dropReturn]
  split
  · next returned =>
    rcases List.eq_nil_or_concat back with rfl | ⟨most, last, rfl⟩
    · rw [List.getLast?_append] at returned
      exact absurd (by simpa using returned) (stays rfl)
    · have apart : front ++ c :: most.concat last = (front ++ c :: most) ++ [last] := by simp
      exact ⟨most, by rw [apart, List.dropLast_concat]⟩
  · exact ⟨back, rfl⟩

/-- A character that does not belong to a line end stays where it stands on its line. -/
theorem head?_linesFrom (front behind : List Char) {c : Char} {more : List Char}
    (stays : behind = [] → c = '\r' → more.head? ≠ some '\n') :
    ∃ back, (linesFrom (behind ++ c :: front) more).head? = some (front.reverse ++ c :: back) := by
  induction more generalizing behind with
  | nil => exact ⟨behind.reverse, by simp [linesFrom]⟩
  | cons d more ih =>
      rw [linesFrom]
      split
      · next newline =>
        have isKept : behind.reverse = [] → c ≠ '\r' := fun nothing isReturn =>
          stays (List.reverse_eq_nil_iff.mp nothing) isReturn (congrArg some newline)
        rcases dropReturn_concat front.reverse isKept with ⟨kept, dropped⟩
        exact ⟨kept, by simpa using dropped⟩
      · exact ih (d :: behind) nofun

/-- The line of a character is found by counting the newlines before it, and has in front of the
character what stands behind the last of them. -/
theorem lines_append (before : List Char) {c : Char} {more : List Char} (notNewline : c ≠ '\n')
    (stays : c = '\r' → more.head? ≠ some '\n') :
    ∃ back, (lines (before ++ c :: more))[before.count '\n']? =
      some ((before.reverse.takeWhile (· != '\n')).reverse ++ c :: back) := by
  rcases linesFrom_append before List.not_mem_nil with ⟨ended, count, continues⟩
  rcases head?_linesFrom (before.reverse.takeWhile (· != '\n')) [] (fun _ => stays) with ⟨back, here⟩
  refine ⟨back, ?_⟩
  rw [lines, continues, List.append_nil, linesFrom, if_neg notNewline,
    List.getElem?_append_right (Nat.le_of_eq count), count, Nat.sub_self, ← List.head?_eq_getElem?]
  exact here

theorem newline_not_mem_dropReturn {line : List Char} (unended : '\n' ∉ line) :
    '\n' ∉ dropReturn line := by
  rw [dropReturn]
  split
  · exact fun member => unended (List.dropLast_subset line member)
  · exact unended

theorem newline_not_mem_linesFrom {line text : List Char} (unended : '\n' ∉ line) :
    ∀ found ∈ linesFrom line text, '\n' ∉ found := by
  induction text generalizing line with
  | nil =>
      rw [linesFrom]
      split
      · exact fun _ member => absurd member List.not_mem_nil
      · exact List.forall_mem_singleton.mpr (by simpa using unended)
  | cons c rest ih =>
      rw [linesFrom]
      split
      · exact List.forall_mem_cons.mpr
          ⟨newline_not_mem_dropReturn (by simpa using unended), ih List.not_mem_nil⟩
      · next notNewline => exact ih (by simp [Ne.symm notNewline, unended])

theorem newline_not_mem_zeroPadded (width number : Nat) :
    '\n' ∉ (zeroPadded width number).toList := by
  rw [zeroPadded, String.toList_ofList, List.mem_append, not_or]
  constructor
  · intro zeros
    exact absurd (List.eq_of_mem_replicate zeros) (by decide)
  · intro digits
    exact absurd (Nat.isDigit_of_mem_toDigits (by decide) (by decide) digits) (by decide)

end Text

namespace Token

/-! ## Rows of an excerpt -/

/-- The rows of a text on the screen. -/
def rows (text : String) : List (List Char) := text.toList.splitOn '\n'

/-- The row that the arrow stands in. -/
def arrowRow (text : String) : List Char := (rows text).getLast?.getD []

/-- The row above that of the arrow. -/
def shownRow (text : String) : List Char := (rows text).dropLast.getLast?.getD []

/-- How many characters stand before the tip of the arrow. -/
def arrowColumn (text : String) : Nat := (arrowRow text).idxOf '^'

/-- What stands before a line with the given number. -/
def numberPrefix (line : Nat) : List Char := (Text.zeroPadded 4 line ++ ": ").toList

def lineOf (source : String) (line : Nat) : List Char :=
  ((Text.lines source.toList)[line - 1]?).getD []

/-- The arrow's allowance for the number is enough up to four digits. -/
theorem length_numberPrefix_eq_gutter_iff (line : Nat) :
    (numberPrefix line).length = gutter ↔ line < 10000 := by
  have digits : (Nat.toDigits 10 line).length ≤ 4 ↔ line < 10000 :=
    Nat.length_toDigits_le_iff (by decide) (by decide)
  have length : (numberPrefix line).length =
      4 - (Nat.toDigits 10 line).length + (Nat.toDigits 10 line).length + 2 := by
    simp [numberPrefix, Text.zeroPadded, Nat.add_assoc]
  rw [length, ← digits, gutter]
  omega

theorem toList_numberedLine (line : Nat) (shown : List Char) :
    (numberedLine line shown).toList = numberPrefix line ++ shown ++ ['\n'] := by
  simp [numberedLine, numberPrefix]

theorem newline_not_mem_numbered {line : Nat} {shown : List Char} (unended : '\n' ∉ shown) :
    '\n' ∉ numberPrefix line ++ shown := by
  simp [numberPrefix, Text.newline_not_mem_zeroPadded, unended]

theorem newline_not_mem_lineOf (source : String) (line : Nat) : '\n' ∉ lineOf source line := by
  rw [lineOf]
  cases found : (Text.lines source.toList)[line - 1]? with
  | none => exact List.not_mem_nil
  | some shown =>
      exact Text.newline_not_mem_linesFrom List.not_mem_nil shown (List.mem_of_getElem? found)

theorem toList_arrow (position : Nat) :
    (arrow position).toList =
      [' ', '>', '>', '>'] ++ List.replicate (gutter + (position - 1) - 4) '-' ++ ['^'] := by
  have mark : " >>>".length = 4 := by decide
  simp [arrow, arrowMark, mark]

theorem newline_not_mem_arrow (position : Nat) : '\n' ∉ (arrow position).toList := by
  rw [toList_arrow]
  simp

/-- What stands above the line of the token is a row of its own, or nothing. -/
theorem toList_previousLine (source : String) (line : Nat) :
    ∃ above : List (List Char), (∀ row ∈ above, '\n' ∉ row) ∧
      (previousLine (Text.lines source.toList) line).toList = above.flatMap (· ++ ['\n']) := by
  rw [previousLine]
  split
  · exact ⟨[], List.forall_mem_nil _, rfl⟩
  · split
    · next previous found =>
      have unended := Text.newline_not_mem_linesFrom List.not_mem_nil previous
        (List.mem_of_getElem? found)
      exact ⟨[numberPrefix (line - 1) ++ previous],
        List.forall_mem_singleton.mpr (newline_not_mem_numbered unended),
        by simp [toList_numberedLine]⟩
    · exact ⟨[], List.forall_mem_nil _, rfl⟩

theorem intercalate_concat {α : Type} (mark : α) (ended : List (List α)) (last : List α) :
    [mark].intercalate (ended ++ [last]) = ended.flatMap (· ++ [mark]) ++ last := by
  induction ended with
  | nil => simp [List.intercalate]
  | cons row ended ih =>
      rw [List.flatMap_cons, List.append_assoc, ← ih]
      cases ended with
      | nil => simp [List.intercalate]
      | cons next ended => simp [List.intercalate]

/-- The last rows of an excerpt are the numbered line of the token and the arrow. -/
theorem rows_excerpt (source : String) (token : Token) :
    ∃ above, rows (excerpt source token) =
      above ++ [numberPrefix token.place.line ++ lineOf source token.place.line] ++
        [(arrow token.place.position).toList] := by
  rcases toList_previousLine source token.place.line with ⟨above, unended, previous⟩
  refine ⟨above, ?_⟩
  have written : (excerpt source token).toList =
      ['\n'].intercalate (above ++ [numberPrefix token.place.line ++ lineOf source token.place.line] ++
        [(arrow token.place.position).toList]) := by
    rw [intercalate_concat]
    simp [excerpt, previous, toList_numberedLine, lineOf]
  rw [rows, written, List.splitOn_intercalate]
  · intro row member
    simp only [List.mem_append, List.mem_singleton] at member
    rcases member with (inAbove | isShown) | isArrow
    · exact unended row inAbove
    · rw [isShown]
      exact newline_not_mem_numbered (newline_not_mem_lineOf source _)
    · rw [isArrow]
      exact newline_not_mem_arrow _
  · simp

theorem shownRow_excerpt (source : String) (token : Token) :
    shownRow (excerpt source token) =
      numberPrefix token.place.line ++ lineOf source token.place.line := by
  rcases rows_excerpt source token with ⟨above, written⟩
  rw [shownRow, written, List.dropLast_concat, List.getLast?_concat]
  rfl

/-- The arrow's column is the same for all lines. -/
theorem arrowColumn_excerpt (source : String) (token : Token) :
    arrowColumn (excerpt source token) = gutter + (token.place.position - 1) := by
  rcases rows_excerpt source token with ⟨above, written⟩
  have before : '^' ∉ [' ', '>', '>', '>'] ++
      List.replicate (gutter + (token.place.position - 1) - 4) '-' := by
    simp
  rw [arrowColumn, arrowRow, written, List.getLast?_concat, Option.getD_some, toList_arrow,
    List.idxOf_append, if_neg before]
  simp [gutter]
  omega

/-- The arrow stands as far behind the number of its line as the token on the line exactly where the
number has four digits at most. -/
theorem arrowColumn_eq_iff (source : String) (token : Token) :
    arrowColumn (excerpt source token) =
        (numberPrefix token.place.line).length + (token.place.position - 1) ↔
      token.place.line < 10000 := by
  rw [arrowColumn_excerpt, Nat.add_right_cancel_iff, eq_comm, length_numberPrefix_eq_gutter_iff]

/-! ## First characters of tokens -/

/-- A newline begins a token for it alone, with a carriage return before it or without. -/
theorem lexeme?_newline (rest : List Char) :
    Kind.lexeme? ('\n' :: rest) = some (.newline, ['\n'], rest) ∧
      Kind.lexeme? ('\r' :: '\n' :: rest) = some (.newline, ['\r', '\n'], rest) :=
  ⟨@Kind.lexeme?_exact .newline ['\n'] rest ⟨rfl, nofun⟩ trivial,
    @Kind.lexeme?_exact .newline ['\r', '\n'] rest ⟨rfl, nofun⟩ trivial⟩

/-- A token starts with the character of the text that stands at its place. -/
theorem Cover.begins_of_mem {before text : List Char} {tokens : List Token} {token : Token}
    (cover : Cover before text tokens) (member : token ∈ tokens) (notEof : token.kind ≠ .eof) :
    ∃ reached c more, before ++ text = reached ++ c :: more ∧ token.text.toList.head? = some c ∧
      token.place = .behind reached ∧
      ∀ lexeme, Kind.lexeme? (c :: more) = some lexeme → lexeme.1 = token.kind := by
  induction cover with
  | finish =>
      rw [List.mem_singleton.mp member] at notEof
      exact absurd rfl notEof
  | @halt before gap rest c blank illegal =>
      rcases List.mem_singleton.mp member with rfl
      refine ⟨before ++ gap, c, rest, by simp, by simp, rfl, fun lexeme found => ?_⟩
      rw [Kind.lexeme?_eq_none_iff.mpr illegal] at found
      cases found
  | @token before gap text rest kind tokens blank explicit nonempty lexeme later ih =>
      rcases List.mem_cons.mp member with rfl | inLater
      · rcases List.exists_cons_of_ne_nil nonempty with ⟨c, tail, rfl⟩
        refine ⟨before ++ gap, c, tail ++ rest, by simp, by simp, rfl, fun other found => ?_⟩
        rw [← List.cons_append, lexeme] at found
        cases found
        rfl
      · rcases ih inLater with ⟨reached, c, more, splits, found⟩
        exact ⟨reached, c, more, by rw [← splits]; simp only [List.append_assoc], found⟩

/-- The line of a token has the token's first character at the token's position. -/
theorem getElem?_lineOf {source : String} {token : Token} (member : token ∈ scan source)
    (notNewline : token.kind ≠ .newline) (notEof : token.kind ≠ .eof) :
    ∃ c, token.text.toList.head? = some c ∧
      (lineOf source token.place.line)[token.place.position - 1]? = some c := by
  rcases (cover_scan source).begins_of_mem member notEof with
    ⟨reached, c, more, splits, first, place, only⟩
  have notHere : c ≠ '\n' := by
    rintro rfl
    exact notNewline (only _ (lexeme?_newline more).1).symm
  have stays : c = '\r' → more.head? ≠ some '\n' := by
    rintro rfl followed
    rcases List.head?_eq_some_iff.mp followed with ⟨rest, rfl⟩
    exact notNewline (only _ (lexeme?_newline rest).2).symm
  rcases Text.lines_append reached notHere stays with ⟨back, here⟩
  refine ⟨c, first, ?_⟩
  rw [lineOf, ← List.nil_append source.toList, splits, place]
  simp [Location.behind, here]

/-! ## The arrow -/

/-- The arrow's column is that of its token in the row above it exactly up to line 9999. The token's
first character always stands in that row behind the number and as many characters as its position
tells; so that up to line 9999 the arrow points at it. -/
theorem arrow_points_iff {source : String} {token : Token} (member : token ∈ scan source) :
    shownRow (excerpt source token) =
        numberPrefix token.place.line ++ lineOf source token.place.line ∧
      arrowColumn (excerpt source token) = gutter + (token.place.position - 1) ∧
      (arrowColumn (excerpt source token) =
          (numberPrefix token.place.line).length + (token.place.position - 1) ↔
        token.place.line < 10000) ∧
      (token.kind ≠ .newline → token.kind ≠ .eof → ∃ c, token.text.toList.head? = some c ∧
        (shownRow (excerpt source token))[(numberPrefix token.place.line).length +
          (token.place.position - 1)]? = some c ∧
        (token.place.line < 10000 →
          (shownRow (excerpt source token))[arrowColumn (excerpt source token)]? = some c)) := by
  have points := arrowColumn_eq_iff source token
  refine ⟨shownRow_excerpt source token, arrowColumn_excerpt source token, points,
    fun notNewline notEof => ?_⟩
  rcases getElem?_lineOf member notNewline notEof with ⟨c, first, here⟩
  have behindNumber : (shownRow (excerpt source token))[(numberPrefix token.place.line).length +
      (token.place.position - 1)]? = some c := by
    rw [shownRow_excerpt, List.getElem?_append_right (Nat.le_add_right ..), Nat.add_sub_cancel_left]
    exact here
  exact ⟨c, first, behindNumber, fun short => by rw [points.mpr short]; exact behindNumber⟩

/-- A line end with a carriage return, and a carriage return that ends no line. -/
def returningSource : String := "ab\r\n c\r"

/-- The arrow points at a carriage return that stands on the line. -/
theorem returningSource_pointed :
    ⟨.error, "\r", ⟨2, 3⟩⟩ ∈ scan returningSource ∧ Kind.error ≠ .newline ∧ Kind.error ≠ .eof ∧
      2 < 10000 ∧ arrowColumn (excerpt returningSource ⟨.error, "\r", ⟨2, 3⟩⟩) = 8 ∧
      (shownRow (excerpt returningSource ⟨.error, "\r", ⟨2, 3⟩⟩))[8]? = some '\r' := by
  have member : ⟨.error, "\r", ⟨2, 3⟩⟩ ∈ scan returningSource := by decide +kernel
  rcases arrow_points_iff member with ⟨_, column, _, first⟩
  rcases first (by decide) (by decide) with ⟨c, isFirst, _, here⟩
  have isReturn : c = '\r' := by simpa using isFirst.symm
  subst isReturn
  refine ⟨member, by decide, by decide, by decide, column, ?_⟩
  rw [← here (by decide), column]
  rfl

/-! ## Long sources -/

/-- Behind newlines a scan goes on as many lines further down. -/
theorem mem_scanFrom_newlines {token : Token} {rest : List Char} (count bound line : Nat)
    (later : token ∈ scanFrom bound ⟨line + count, 1⟩ rest) :
    token ∈ scanFrom (count + bound) ⟨line, 1⟩ (List.replicate count '\n' ++ rest) := by
  induction count generalizing line with
  | zero => simpa using later
  | succ count ih =>
      have inRest := ih (line + 1) (by rwa [Nat.add_right_comm])
      rw [Nat.add_right_comm, List.replicate_succ, List.cons_append, scanFrom,
        (lexeme?_newline _).1]
      exact List.mem_cons_of_mem _ inRest

/-- Lines without characters, and a character at which no token begins on the next. -/
def markBehindLines (count : Nat) : String := String.ofList (List.replicate count '\n' ++ ['$'])

theorem mem_scan_markBehindLines (count : Nat) :
    ⟨.error, "$", ⟨count + 1, 1⟩⟩ ∈ scan (markBehindLines count) := by
  have illegal : Kind.lexeme? ['$'] = none := by decide +kernel
  have mark : ⟨.error, "$", ⟨1 + count, 1⟩⟩ ∈ scanFrom 1 ⟨1 + count, 1⟩ ['$'] := by
    rw [scanFrom, illegal]
    exact List.mem_singleton.mpr rfl
  have opened : scan (markBehindLines count) =
      scanFrom (count + 1) ⟨1, 1⟩ (List.replicate count '\n' ++ ['$']) := by
    simp [scan, markBehindLines, Location.start]
  have member := mem_scanFrom_newlines count 1 1 mark
  rw [Nat.add_comm 1 count] at member
  rw [opened]
  exact member

/-- Behind the last line whose number has four digits, the arrow points at the blank before the
character. -/
theorem lateMark_missed :
    ⟨.error, "$", ⟨10000, 1⟩⟩ ∈ scan (markBehindLines 9999) ∧
      arrowColumn (excerpt (markBehindLines 9999) ⟨.error, "$", ⟨10000, 1⟩⟩) = 6 ∧
      (numberPrefix 10000).length + (1 - 1) = 7 ∧
      (shownRow (excerpt (markBehindLines 9999) ⟨.error, "$", ⟨10000, 1⟩⟩))[6]? = some ' ' := by
  have numbered : numberPrefix 10000 = "10000: ".toList := by decide +kernel
  refine ⟨mem_scan_markBehindLines 9999, ?_, ?_, ?_⟩
  · rw [arrowColumn_excerpt]
    rfl
  · rw [numbered]
    decide
  · rw [shownRow_excerpt, numbered]
    rfl

end Token
end GrammarBook
