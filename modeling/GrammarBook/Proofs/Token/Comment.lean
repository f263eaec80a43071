import GrammarBook.Proofs.Token.Placement
import GrammarBook.Proofs.Token.Relexing

namespace GrammarBook

/-!
# Where comments end

A comment is closed by the first line behind its opening line that starts with the closing mark. The
mark may also stand directly behind the opening line, but there it counts only if no such line comes
later in the source. So a comment with nothing in it does not end where it should if another comment
follows: it goes on to the end of that one.
-/

namespace Kind

variable {body rest : List Char}

/-! ## Where comments are closed -/

/-- A comment behind its opening line. -/
def commentBody : List Char → List Char
  | '!' :: '>' :: '\n' :: body => body
  | '!' :: '>' :: '\r' :: '\n' :: body => body
  | text => text

/-- No line but the last one starts with the closing mark, and that line consists of it. -/
def ClosesAtEnd (body : List Char) : Prop :=
  ∀ front back, body = front ++ closingLine ++ back → back = []

/-- A comment is cut at a closing line no later than at any that is known. -/
theorem length_cutAtClosingLine_le {front back : List Char} {cut : Cut}
    (found : cutAtClosingLine (front ++ closingLine ++ back) = some cut) :
    cut.1.length ≤ front.length + closingLine.length := by
  induction front generalizing cut with
  | nil =>
      cases found
      exact Nat.le_refl 3
  | cons c front ih =>
      rw [List.cons_append, List.cons_append] at found
      by_cases here : closingLine <+: c :: (front ++ closingLine ++ back)
      · obtain ⟨more, same⟩ := here
        rw [← same] at found
        cases Option.some.inj found
        exact Nat.le_add_left 3 _
      · rw [cutAtClosingLine_cons here] at found
        obtain ⟨inner, foundInner, rfl⟩ := Option.map_eq_some_iff.mp found
        have bound := ih foundInner
        have longer : (Cut.prepend [c] inner).1.length = inner.1.length + 1 := by simp [Cut.prepend]
        rw [longer, List.length_cons]
        omega

theorem closesAtEnd_of_cutAtClosingLine
    (found : cutAtClosingLine (body ++ rest) = some (body, rest)) : ClosesAtEnd body := by
  rintro front back rfl
  rw [List.append_assoc] at found
  have bound := length_cutAtClosingLine_le found
  simp only [List.length_append] at bound
  exact List.length_eq_zero_iff.mp (by omega)

theorem cutAtClosingLine_self_iff :
    cutAtClosingLine body = some (body, []) ↔ closingLine <:+ body ∧ ClosesAtEnd body := by
  constructor
  · intro found
    have ends : cutAtClosingLine (body ++ []) = some (body, []) := by rw [List.append_nil, found]
    exact ⟨(cutAtClosingLine_sound found).2, closesAtEnd_of_cutAtClosingLine ends⟩
  · rintro ⟨suffix, atEnd⟩
    cases found : cutAtClosingLine body with
    | none => exact absurd suffix.isInfix (cutAtClosingLine_eq_none_iff.mp found)
    | some cut =>
        obtain ⟨splits, front, closed⟩ := cutAtClosingLine_sound found
        have nothing : cut.2 = [] := by
          apply atEnd front
          rw [closed]
          exact splits.symm
        have whole : cut.1 = body := by
          rw [← splits, nothing, List.append_nil]
        exact congrArg some (Prod.ext whole nothing)

theorem endsBefore_comment_iff {text rest : List Char}
    (accepted : comment.acceptsChars text = true) :
    comment.EndsBefore text rest ↔
      cutCommentBody (commentBody text ++ rest) = some (commentBody text, rest) := by
  have unprepend (front body : List Char) (result : Option Cut) :
      result.map (Cut.prepend front) = some (front ++ body, rest) ↔ result = some (body, rest) := by
    cases result with
    | none => simp
    | some cut => simp [Cut.prepend, Prod.ext_iff]
  obtain ⟨body, _, rfl | rfl⟩ := exists_of_accepts_comment accepted
  · exact unprepend ['!', '>', '\n'] body _
  · exact unprepend ['!', '>', '\r', '\n'] body _

theorem closes_commentBody {text : List Char} (accepted : comment.acceptsChars text = true) :
    commentBody text = ['<', '!'] ∨ closingLine <:+ commentBody text := by
  obtain ⟨body, closes, rfl | rfl⟩ := exists_of_accepts_comment accepted
  all_goals
    rw [closesComment, Bool.or_eq_true, beq_iff_eq, List.isSuffixOf_iff_suffix] at closes
    exact closes

theorem closesAtEnd_empty : ClosesAtEnd ['<', '!'] := by
  intro front back same
  have length := congrArg List.length same
  simp only [List.length_append, closingLine, List.length_cons, List.length_nil] at length
  omega

/-- The body ends with its first closing line, or it is the closing mark alone and neither it nor
what follows has such a line. -/
def ClosesBefore (rest body : List Char) : Prop :=
  closingLine <:+ body ∧ ClosesAtEnd body ∨ body = ['<', '!'] ∧ ¬ closingLine <:+: body ++ rest

theorem closesBefore_of_cutCommentBody (found : cutCommentBody (body ++ rest) = some (body, rest)) :
    ClosesBefore rest body := by
  unfold cutCommentBody at found
  split at found
  · next cut atLine =>
    cases Option.some.inj found
    exact .inl ⟨(cutAtClosingLine_sound atLine).2, closesAtEnd_of_cutAtClosingLine atLine⟩
  · next noLine =>
    split at found
    · next more same =>
      cases found
      exact .inr ⟨rfl, cutAtClosingLine_eq_none_iff.mp noLine⟩
    · cases found

theorem ClosesBefore.closesAtEnd (closes : ClosesBefore rest body) : ClosesAtEnd body := by
  rcases closes with ⟨_, atEnd⟩ | ⟨rfl, _⟩
  · exact atEnd
  · exact closesAtEnd_empty

theorem closesAtEnd_of_cutCommentBody (found : cutCommentBody body = some (body, [])) :
    ClosesAtEnd body := by
  have whole : cutCommentBody (body ++ []) = some (body, []) := by rw [List.append_nil, found]
  exact (closesBefore_of_cutCommentBody whole).closesAtEnd

theorem cutCommentBody_append_of_closesAtEnd (closed : closingLine <:+ body)
    (atEnd : ClosesAtEnd body) (rest : List Char) :
    cutCommentBody (body ++ rest) = some (body, rest) := by
  have alone : cutAtClosingLine (body ++ []) = some (body, []) := by
    rw [List.append_nil]
    exact cutAtClosingLine_self_iff.mpr ⟨closed, atEnd⟩
  unfold cutCommentBody
  rw [cutAtClosingLine_anew alone rest]

/-! ## The opening line -/

/-- The lines that open a comment. -/
def IsOpeningLine (line : List Char) : Prop :=
  line = ['!', '>', '\n'] ∨ line = ['!', '>', '\r', '\n']

/-- A closing line that begins in the opening line is made of its end and of a mark behind it. -/
theorem closingLine_of_opening {line front back : List Char} (opens : IsOpeningLine line)
    (same : line ++ body = front ++ closingLine ++ back) :
    body = ['<', '!'] ++ back ∨ ∃ inner, body = inner ++ closingLine ++ back := by
  rcases opens with rfl | rfl
  · rcases front with _ | ⟨_, _ | ⟨_, _ | ⟨_, inner⟩⟩⟩
    all_goals simp only [closingLine, List.cons_append, List.nil_append, List.cons.injEq] at same
    · exact absurd same.1 (by decide)
    · exact absurd same.2.1 (by decide)
    · exact .inl same.2.2.2
    · exact .inr ⟨inner, same.2.2.2⟩
  · rcases front with _ | ⟨_, _ | ⟨_, _ | ⟨_, _ | ⟨_, inner⟩⟩⟩⟩
    all_goals simp only [closingLine, List.cons_append, List.nil_append, List.cons.injEq] at same
    · exact absurd same.1 (by decide)
    · exact absurd same.2.1 (by decide)
    · exact absurd same.2.2.1 (by decide)
    · exact .inl same.2.2.2.2
    · exact .inr ⟨inner, same.2.2.2.2⟩

/-- The newline of the opening line makes a closing line of a mark directly behind it. -/
theorem closingLine_suffix_of_opening {line : List Char} (opens : IsOpeningLine line) :
    closingLine <:+ line ++ ['<', '!'] := by
  rcases opens with rfl | rfl
  · exact ⟨['!', '>'], rfl⟩
  · exact ⟨['!', '>', '\r'], rfl⟩

theorem ClosesBefore.suffix_opened {line : List Char} (closes : ClosesBefore rest body)
    (opens : IsOpeningLine line) : closingLine <:+ line ++ body := by
  rcases closes with ⟨suffix, _⟩ | ⟨rfl, _⟩
  · exact suffix.trans (List.suffix_append line body)
  · exact closingLine_suffix_of_opening opens

/-- With its opening line, a comment ends at its first mark behind a newline unless it begins with
such a mark and goes on behind it. -/
theorem closesAtEnd_opened_iff {line : List Char} (opens : IsOpeningLine line)
    (closes : ClosesAtEnd body) :
    ClosesAtEnd (line ++ body) ↔ (['<', '!'] <+: body → body = ['<', '!']) := by
  constructor
  · rintro atEnd ⟨back, rfl⟩
    rcases closingLine_suffix_of_opening opens with ⟨front, same⟩
    have nothing : back = [] := by
      apply atEnd front
      rw [same, List.append_assoc]
    rw [nothing, List.append_nil]
  · intro alone front back same
    rcases closingLine_of_opening opens same with rfl | ⟨inner, inside⟩
    · exact List.append_right_eq_self.mp (alone (List.prefix_append _ back))
    · exact closes inner back inside

/-- A comment is cut off behind its opening line. -/
theorem exists_opening_of_munch? {text : List Char}
    (found : comment.munch? (text ++ rest) = some (text, rest)) :
    ∃ line body, IsOpeningLine line ∧ text = line ++ body ∧
      cutCommentBody (body ++ rest) = some (body, rest) := by
  have ends : cutCommentBody (commentBody text ++ rest) = some (commentBody text, rest) :=
    (endsBefore_comment_iff (munch?_sound found).2).mp found
  rcases exists_of_accepts_comment (munch?_sound found).2 with ⟨body, _, rfl | rfl⟩
  · exact ⟨['!', '>', '\n'], body, .inl rfl, rfl, ends⟩
  · exact ⟨['!', '>', '\r', '\n'], body, .inr rfl, rfl, ends⟩

end Kind

namespace Token

open Kind

/-- A comment of a source is its opening line and a body, which ends with the first closing line
behind the opening line, or is the closing mark alone where the rest of the source has no such line.
The mark that the comment ends with stands behind a newline. It is the first one to do so unless
another one stands directly behind the opening line. -/
theorem comment_ends_at_closing_line {source : String} {token : Token}
    (member : token ∈ scan source) (isComment : token.kind = .comment) :
    ∃ before line body rest, IsOpeningLine line ∧ token.text.toList = line ++ body ∧
      source.toList = before ++ token.text.toList ++ rest ∧ token.place = .behind before ∧
      ClosesBefore rest body ∧ closingLine <:+ token.text.toList ∧
      (ClosesAtEnd token.text.toList ↔ (['<', '!'] <+: body → body = ['<', '!'])) := by
  rcases (cover_scan source).exists_of_mem member (by simp [isComment]) (by simp [isComment]) with
    ⟨before, rest, splits, place, lexeme⟩
  rw [isComment] at lexeme
  rcases exists_opening_of_munch? (munch?_of_lexeme? lexeme) with ⟨line, body, opens, same, cutOff⟩
  have closes := closesBefore_of_cutCommentBody cutOff
  refine ⟨before, line, body, rest, opens, same, splits, place, closes, ?_, ?_⟩
  · rw [same]
    exact closes.suffix_opened opens
  · rw [same]
    exact closesAtEnd_opened_iff opens closes.closesAtEnd

/-- A comment with a line in it in front of an empty one. -/
def twoComments : String := "!>\na\n<!\n!>\n<!"

/-- Both comments end at their first mark behind a newline, the second one in its opening line. -/
theorem twoComments_closed :
    ⟨.comment, "!>\na\n<!", ⟨1, 1⟩⟩ ∈ scan twoComments ∧ ClosesAtEnd "!>\na\n<!".toList ∧
      ⟨.comment, "!>\n<!", ⟨4, 1⟩⟩ ∈ scan twoComments ∧ ClosesAtEnd "!>\n<!".toList := by
  have scanned : scan twoComments =
      [⟨.comment, "!>\na\n<!", ⟨1, 1⟩⟩, ⟨.newline, "\n", ⟨3, 3⟩⟩, ⟨.comment, "!>\n<!", ⟨4, 1⟩⟩,
        ⟨.eof, "", ⟨5, 3⟩⟩] := by
    decide +kernel
  have first : ⟨.comment, "!>\na\n<!", ⟨1, 1⟩⟩ ∈ scan twoComments := by simp [scanned]
  have second : ⟨.comment, "!>\n<!", ⟨4, 1⟩⟩ ∈ scan twoComments := by simp [scanned]
  refine ⟨first, ?_, second, ?_⟩
  · rcases comment_ends_at_closing_line first rfl with
      ⟨_, _, body, _, rfl | rfl, same, _, _, _, _, atFirst⟩
    · obtain rfl : body = ['a', '\n', '<', '!'] := by simpa using same.symm
      exact atFirst.mpr fun marked => absurd marked (by decide)
    · exact absurd (congrArg (·[2]?) same) (by simp)
  · rcases comment_ends_at_closing_line second rfl with
      ⟨_, _, body, _, rfl | rfl, same, _, _, _, _, atFirst⟩
    · obtain rfl : body = ['<', '!'] := by simpa using same.symm
      exact atFirst.mpr fun _ => rfl
    · exact absurd (congrArg (·[2]?) same) (by simp)

/-- An empty comment in front of another empty one. -/
def emptyComments : String := "!>\n<!\n!>\n<!"

/-- The two are one token, which goes on behind its first closing mark. -/
theorem emptyComments_merged :
    scan emptyComments = [⟨.comment, emptyComments, ⟨1, 1⟩⟩, ⟨.eof, "", ⟨4, 3⟩⟩] ∧
      ¬ ClosesAtEnd emptyComments.toList := by
  refine ⟨by decide +kernel, fun atEnd => ?_⟩
  have nothing := atEnd ['!', '>'] ['\n', '!', '>', '\n', '<', '!'] (by decide)
  cases nothing

end Token
end GrammarBook
