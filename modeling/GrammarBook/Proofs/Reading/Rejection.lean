import GrammarBook.Proofs.Reading.Beginnings
import GrammarBook.Proofs.Reading.Locality
import GrammarBook.Proofs.Token.Placement
import GrammarBook.Reading.Parser

namespace GrammarBook
namespace Reading

open Grammar

/-!
# Where documents are rejected

A rejection names the first token at which no document can go on. What was taken before it begins a
phrase of the form that was read. And no document begins with what was pulled from the scan, since the
same rejection would have come of it whatever else followed.
-/

/-! ## The token that is named -/

/-- The rejection names the first of the tokens, where there is one. -/
def Rejection.Meets (tokens : List Token) (rest : Cursor) : Rejection → Prop
  | illegal token => tokens = token :: rest.pending ∧ token.kind = .error
  | unexpected token _ => tokens = token :: rest.pending
  | exhausted => tokens = []

/-- What was taken before the rejection begins a phrase of the form. -/
def IsLocated (form : Form) (cursor : Cursor) (cause : Rejection) (rest : Cursor) : Prop :=
  ∃ taken left, IsBegun form taken ∧ cursor.pending = taken ++ left ∧ cause.Meets left rest

/-- The reader rejects only behind tokens that begin a phrase of the form. -/
def Locates (form : Form) (reader : Reader form.Meaning) (cursor : Cursor) : Prop :=
  ∀ cause rest, reader cursor = .rejected cause rest → IsLocated form cursor cause rest

theorem pending_of_nextToken {cursor rest : Cursor} {token : Token}
    (taken : nextToken cursor = .found token rest) : cursor.pending = token :: rest.pending := by
  rcases nextToken_cases cursor with ⟨token', rest', taken', pending⟩ | ⟨cause, rest', stopped⟩
  · rw [taken] at taken'
    cases taken'
    exact pending
  · rw [taken] at stopped
    cases stopped

theorem meets_nextToken {cursor rest : Cursor} {cause : Rejection}
    (stopped : nextToken cursor = .rejected cause rest) : cause.Meets cursor.pending rest := by
  rcases cursor with ⟨held, ahead⟩
  unfold nextToken at stopped
  cases held with
  | cons token held => cases stopped
  | nil =>
      cases ahead with
      | nil =>
          cases stopped
          rfl
      | cons token ahead =>
          by_cases error : token.kind = .error
          · simp only [if_pos error] at stopped
            cases stopped
            exact ⟨rfl, error⟩
          · simp only [if_neg error] at stopped
            cases stopped

/-- Whatever is demanded in vain, the next token is named. -/
theorem meets_reject {α : Type} {production : Production} {cursor rest : Cursor}
    {cause : Rejection} (stopped : (Reader.reject production : Reader α) cursor = .rejected cause rest) :
    cause.Meets cursor.pending rest := by
  rcases andThen_rejected_iff.mp stopped with atToken | ⟨token, behind, taken, named⟩
  · exact meets_nextToken atToken
  · cases named
    exact pending_of_nextToken taken

namespace IsLocated

variable {form whole : Form} {cursor behind rest : Cursor} {cause : Rejection}

/-- A rejection before anything was taken. -/
theorem of_meets (form : Form) (meets : cause.Meets cursor.pending rest) :
    IsLocated form cursor cause rest :=
  ⟨[], cursor.pending, IsBegun.nil form, rfl, meets⟩

/-- Behind tokens with which a larger phrase begins, a rejection is located in that phrase. -/
theorem within {taken : List Token} (located : IsLocated form behind cause rest)
    (moved : cursor.pending = taken ++ behind.pending)
    (begins : ∀ tokens, IsBegun form tokens → IsBegun whole (taken ++ tokens)) :
    IsLocated whole cursor cause rest := by
  obtain ⟨tokens, left, begun, pending, meets⟩ := located
  exact ⟨taken ++ tokens, left, begins tokens begun,
    by rw [moved, pending, List.append_assoc], meets⟩

theorem unmoved (located : IsLocated form behind cause rest)
    (same : behind.pending = cursor.pending) : IsLocated form cursor cause rest := by
  rwa [IsLocated, same] at located

/-- A phrase of the form begins a larger phrase. -/
theorem grow (located : IsLocated form cursor cause rest)
    (begins : ∀ tokens, IsBegun form tokens → IsBegun whole tokens) :
    IsLocated whole cursor cause rest :=
  located.within (List.nil_append _).symm begins

end IsLocated

theorem locates_tokenIf {wanted : Token → Bool} {cursor rest : Cursor} {cause : Rejection}
    (stopped : tokenIf wanted cursor = .rejected cause rest) :
    cause.Meets cursor.pending rest := by
  rw [tokenIf_eq] at stopped
  rcases andThen_rejected_iff.mp stopped with atToken | ⟨token, behind, _, stopped⟩
  · exact meets_nextToken atToken
  · split at stopped <;> cases stopped

theorem locates_bullet (cursor : Cursor) : Locates .bullet bullet cursor := by
  intro cause rest stopped
  rw [bullet_eq] at stopped
  rcases andThen_rejected_iff.mp stopped with atNewline | ⟨newline, behind, taken, stopped⟩
  · exact IsLocated.of_meets .bullet (meets_nextToken atNewline)
  · by_cases ends : newline.kind = .newline
    · simp only [if_pos ends] at stopped
      rcases andThen_rejected_iff.mp stopped with atDash | ⟨dash, later, _, stopped⟩
      · -- The newline is taken, and a dash could have followed it.
        have begun : IsBegun .bullet [newline] :=
          ⟨.bullet newline ⟨.delimiter, "-", ⟨1, 1⟩⟩ ends ⟨rfl, rfl⟩, List.prefix_append [newline] _⟩
        exact ⟨[newline], behind.pending, begun, pending_of_nextToken taken, meets_nextToken atDash⟩
      · split at stopped <;> cases stopped
    · simp only [if_neg ends] at stopped
      cases stopped

/-- The pieces of a reading are rejected where the whole is. -/
theorem carries_locates : Carries Locates where
  token kind cursor cause rest stopped := IsLocated.of_meets _ (locates_tokenIf stopped)
  mark text cursor cause rest stopped := IsLocated.of_meets _ (locates_tokenIf stopped)
  bullet := locates_bullet
  empty cursor cause rest stopped := nomatch stopped
  build located cause rest stopped :=
    (located cause rest (map_rejected_iff.mp stopped)).grow fun _ => IsBegun.part
  required {form reader cursor} production honest located cause rest stopped := by
    have answer := honest cursor
    rcases orElse_rejected_iff.mp stopped with within | ⟨behind, absent, named⟩
    · exact located cause rest within
    · rw [absent] at answer
      exact IsLocated.of_meets form (answer.2 ▸ meets_reject named)
  next {first rest committed front back cursor} honest atFront atBack cause after stopped := by
    have answer := honest cursor
    rcases andThen_rejected_iff.mp stopped with inFront | ⟨found, behind, outcome, stopped⟩
    · exact (atFront cause after inFront).grow fun _ => IsBegun.front
    · rw [outcome] at answer
      obtain ⟨begun, _, taken⟩ := answer
      have inBack := map_rejected_iff.mp stopped
      exact (atBack found behind outcome cause after inBack).within taken fun _ => IsBegun.back begun
  either {left right one other cursor} honest atLeft atRight cause rest stopped := by
    have answer := honest cursor
    rcases orElse_rejected_iff.mp stopped with inLeft | ⟨behind, absent, stopped⟩
    · exact (atLeft cause rest (map_rejected_iff.mp inLeft)).grow fun _ => IsBegun.inLeft
    · have absent := map_absent_iff.mp absent
      rw [absent] at answer
      have inRight := atRight behind absent cause rest (map_rejected_iff.mp stopped)
      exact (inRight.unmoved answer.2).grow fun _ => IsBegun.inRight
  optional {form reader cursor} located cause rest stopped := by
    rw [optional_eq] at stopped
    rcases orElse_rejected_iff.mp stopped with within | ⟨behind, absent, none⟩
    · exact (located cause rest (map_rejected_iff.mp within)).grow fun _ => IsBegun.present
    · cases none
  many located cause rest stopped := by
    rcases orElse_rejected_iff.mp stopped with within | ⟨behind, absent, none⟩
    · exact (located cause rest within).grow fun _ => IsBegun.many
    · cases none
  several {form reader cursor} honest atFirst atOthers cause rest stopped := by
    have answer := honest cursor
    rcases andThen_rejected_iff.mp stopped with inFirst | ⟨found, behind, outcome, stopped⟩
    · exact (atFirst cause rest inFirst).grow fun _ => IsBegun.one
    · rw [outcome] at answer
      obtain ⟨begun, _, taken⟩ := answer
      have inOthers := map_rejected_iff.mp stopped
      exact (atOthers found behind outcome cause rest inOthers).within taken
        fun _ => IsBegun.others begun

/-! ## Where a document is rejected -/

/-- The tokens are those of a scan: the end of the source or an illegal token stands last, and
neither stands anywhere else. -/
def IsStream (tokens : List Token) : Prop :=
  ∃ body last, tokens = body ++ [last] ∧ (last.kind = .eof ∨ last.kind = .error) ∧
    ∀ token ∈ body, token.kind ≠ .eof ∧ token.kind ≠ .error

/-- What accounts for a text is a stream. -/
theorem isStream_of_cover {before text : List Char} {tokens : List Token}
    (cover : Token.Cover before text tokens) : IsStream tokens := by
  induction cover with
  | finish => exact ⟨[], _, rfl, Or.inl rfl, nofun⟩
  | halt => exact ⟨[], _, rfl, Or.inr rfl, nofun⟩
  | token _ explicit _ _ _ ih =>
      obtain ⟨body, last, split, ends, plain⟩ := ih
      refine ⟨_ :: body, last, congrArg _ split, ends, ?_⟩
      intro token member
      rcases List.mem_cons.mp member with rfl | inBody
      · exact explicit.2
      · exact plain token inBody

theorem isStream_scan (source : String) : IsStream (Token.scan source) :=
  isStream_of_cover (Token.cover_scan source)

theorem IsStream.endsInEof {tokens : List Token} (stream : IsStream tokens) {token : Token}
    (member : token ∈ tokens) (isEof : token.kind = .eof) : EndsInEof tokens := by
  obtain ⟨body, last, rfl, _, plain⟩ := stream
  refine ⟨body, last, rfl, ?_, fun other inBody => (plain other inBody).1⟩
  rcases List.mem_append.mp member with inBody | atEnd
  · exact absurd isEof (plain token inBody).1
  · exact List.mem_singleton.mp atEnd ▸ isEof

/-- A document that is found in a stream is derived from the whole of it. -/
theorem IsStream.exists_derivation {tokens : List Token} (stream : IsStream tokens)
    {document : Document} {rest : Cursor}
    (reads : Reading.document (.start tokens) = .found document rest) :
    ∃ derivation : Derivation (form .document),
      derivation.tokens = tokens ∧ IsDocumentOf derivation document := by
  obtain ⟨derivation, taken, means⟩ :=
    (document_found_iff tokens document rest.pending).mp ⟨rest, reads, rfl⟩
  obtain ⟨token, member, isEof⟩ := exists_eof derivation
  have ends := stream.endsInEof (taken ▸ List.mem_append_left _ member) isEof
  rw [rest_eq_nil derivation ends taken.symm, List.append_nil] at taken
  exact ⟨derivation, taken, means⟩

/-- Nothing follows an illegal token. -/
theorem IsStream.eq_nil_of_error {before after : List Token} {token : Token}
    (stream : IsStream (before ++ token :: after)) (error : token.kind = .error) : after = [] := by
  obtain ⟨body, last, split, _, plain⟩ := stream
  rcases List.eq_nil_or_concat after with none | ⟨others, final, rfl⟩
  · exact none
  · rw [List.concat_eq_append, ← List.cons_append, ← List.append_assoc] at split
    have sameBody := (List.append_inj' split rfl).1
    have inBody : token ∈ body := by
      rw [← sameBody]
      exact List.mem_append_right _ (List.mem_cons_self ..)
    exact absurd error (plain token inBody).2

/-- Of tokens that end in an illegal one, the legal ones that were pulled stand before it. -/
theorem prefix_of_legal {pulled ahead before : List Token} {last : Token}
    (split : pulled ++ ahead = before ++ [last]) (legal : ∀ token ∈ pulled, token.kind ≠ .error)
    (error : last.kind = .error) : pulled <+: before := by
  rcases List.eq_nil_or_concat ahead with none | ⟨others, final, more⟩
  · have inPulled : last ∈ pulled := by
      rw [none, List.append_nil] at split
      rw [split]
      exact List.mem_append_right _ (List.mem_singleton_self last)
    exact absurd error (legal last inPulled)
  · rw [more, List.concat_eq_append, ← List.append_assoc] at split
    exact ⟨others, (List.append_inj' split rfl).1⟩

/-- Whole streams that begin a document are documents. -/
theorem IsStream.isAccepted {tokens : List Token} (stream : IsStream tokens)
    (viable : IsViable tokens) : IsAccepted tokens := by
  obtain ⟨body, last, rfl, ends, _⟩ := stream
  obtain ⟨derivation, more, split⟩ := isViable_iff.mp viable
  have inTokens : last ∈ derivation.tokens := by
    rw [← split]
    simp
  have isEof := ends.resolve_right
    (kind_ne_error derivation (isClear_form .document) rfl last inTokens)
  obtain ⟨body', last', split', _, onlyLast⟩ := endsInEof_tokens derivation
  rcases List.eq_nil_or_concat more with none | ⟨others, final, rfl⟩
  · rw [none, List.append_nil] at split
    exact isAccepted_iff.mpr ⟨derivation, split.symm⟩
  · rw [← split, List.concat_eq_append, ← List.append_assoc] at split'
    have sameBody := (List.append_inj' split' rfl).1
    have inBody : last ∈ body' := by
      rw [← sameBody]
      simp
    exact absurd isEof (onlyLast last inBody)

theorem document_eq :
    document = (fun found => inOrder (build .document found)) <$>
      read (reader .outer) .document true (form .document) :=
  read_form_document.symm

/-- A document is found or rejected. -/
theorem document_ne_absent (cursor rest : Cursor) : document cursor ≠ .absent rest := by
  intro outcome
  have answer := honest_read .document (form .document) (fun part _ => honestAt_outer part) true
    cursor
  rw [document_eq, map_absent_iff] at outcome
  rw [outcome] at answer
  cases answer.1

/-- The tokens before the one that a rejection names are viable. -/
theorem document_located {tokens : List Token} {cause : Rejection} {rest : Cursor}
    (rejected : document (.start tokens) = .rejected cause rest) :
    ∃ taken left, tokens = taken ++ left ∧ IsViable taken ∧ cause.Meets left rest := by
  rw [document_eq, map_rejected_iff] at rejected
  obtain ⟨taken, left, begun, pending, meets⟩ :=
    carries_locates.document (.start tokens) cause rest rejected
  exact ⟨taken, left, pending, isViable_iff.mpr begun, meets⟩

/-- No document begins with the tokens pulled before a token is found unexpected. -/
theorem document_pulled {tokens : List Token} {token : Token} {production : Production}
    {rest : Cursor}
    (rejected : document (.start tokens) = .rejected (.unexpected token production) rest) :
    ∃ pulled, tokens = pulled ++ rest.ahead ∧ (∀ token ∈ pulled, token.kind ≠ .error) ∧
      ¬ IsViable pulled ∧ rest.held.length ≤ 1 := by
  have isLocal : IsLocal document (.start tokens) := by
    rw [document_eq]
    exact (carries_isLocal.document (.start tokens)).map _
  unfold IsLocal at isLocal
  rw [rejected] at isLocal
  obtain ⟨pulled, pulls⟩ := isLocal (Nat.zero_le _) id
  refine ⟨pulled, pulls.split, pulls.legal, ?_, pulls.few⟩
  rintro ⟨stream, ⟨_, found, behind, reads⟩, ahead, rfl⟩
  exact nomatch reads.symm.trans (pulls.same ahead)

/-- The tokens of a stream do not run out, since the token for the end is among them. -/
theorem ne_exhausted {tokens : List Token} (stream : IsStream tokens) (rest : Cursor) :
    document (.start tokens) ≠ .rejected .exhausted rest := by
  intro rejected
  obtain ⟨taken, left, split, viable, meets⟩ := document_located rejected
  obtain rfl : left = [] := meets
  rw [List.append_nil] at split
  obtain ⟨_, found, behind, reads⟩ := stream.isAccepted (split ▸ viable)
  exact nomatch reads.symm.trans rejected

/-- A document is rejected at an illegal token just where the tokens before it are viable, and else
at an unexpected token behind viable ones. No document begins with the tokens pulled by then, of which
one at most is behind the token that is named. -/
theorem document_rejected_located {tokens : List Token} (stream : IsStream tokens)
    (fails : ∀ found rest, document (.start tokens) ≠ .found found rest) :
    ∃ cause rest, document (.start tokens) = .rejected cause rest ∧
      (∀ token, cause = .illegal token ↔
        ∃ before, tokens = before ++ [token] ∧ token.kind = .error ∧ IsViable before) ∧
      ((∀ token, cause ≠ .illegal token) → ∃ token production before,
        cause = .unexpected token production ∧ tokens = before ++ token :: rest.pending ∧
          IsViable before ∧ ¬ IsViable (before ++ token :: rest.held) ∧ rest.held.length ≤ 1) := by
  obtain ⟨cause, rest, rejected⟩ :
      ∃ cause rest, document (.start tokens) = .rejected cause rest := by
    cases outcome : document (.start tokens) with
    | found found rest => exact absurd outcome (fails found rest)
    | absent rest => exact absurd outcome (document_ne_absent _ rest)
    | rejected cause rest => exact ⟨cause, rest, rfl⟩
  obtain ⟨taken, left, split, viable, meets⟩ := document_located rejected
  refine ⟨cause, rest, rejected, ?_⟩
  cases cause with
  | exhausted => exact absurd rejected (ne_exhausted stream rest)
  | illegal token =>
      obtain ⟨rfl, error⟩ := meets
      rw [split] at stream
      rw [stream.eq_nil_of_error error] at split
      constructor
      · intro other
        constructor
        · intro same
          cases same
          exact ⟨taken, split, error, viable⟩
        · rintro ⟨before, split', _⟩
          have same := (List.append_inj' (split.symm.trans split') rfl).2
          rw [List.singleton_inj.mp same]
      · intro notIllegal
        exact absurd rfl (notIllegal token)
  | unexpected token production =>
      obtain rfl : left = token :: rest.pending := meets
      obtain ⟨pulled, split', legal, dead, few⟩ := document_pulled rejected
      constructor
      · intro other
        constructor
        · nofun
        · -- An illegal token would be behind the tokens pulled, and these are not viable.
          rintro ⟨before, split'', error, viable'⟩
          have begins := prefix_of_legal (split'.symm.trans split'') legal error
          exact absurd (viable'.of_prefix begins) dead
      · intro _
        have samePulled : pulled = taken ++ token :: rest.held := by
          rw [split, Cursor.pending, ← List.cons_append, ← List.append_assoc] at split'
          exact (List.append_cancel_right split').symm
        exact ⟨token, production, taken, rfl, split, viable, samePulled ▸ dead, few⟩

/-- A rule that ends with its line right behind the colon. -/
def danglingRule : List Token :=
  [⟨.comment, "!>\nn\n<!", ⟨1, 1⟩⟩, ⟨.comment, "!>\nl\n<!", ⟨3, 3⟩⟩, ⟨.uppercase, "R", ⟨5, 3⟩⟩,
    ⟨.delimiter, ":", ⟨5, 4⟩⟩, ⟨.newline, "\n", ⟨5, 5⟩⟩, ⟨.eof, "", ⟨6, 1⟩⟩]

/-- The newline is named, although a newline may follow a colon: the token behind it had to be pulled
to see that it does not lead to a line. -/
theorem danglingRule_rejected :
    document (.start danglingRule) =
        .rejected (.unexpected ⟨.newline, "\n", ⟨5, 5⟩⟩ .rule) ⟨[⟨.eof, "", ⟨6, 1⟩⟩], []⟩ ∧
      IsViable (danglingRule.take 4) ∧ ¬ IsViable danglingRule := by
  have rejected : document (.start danglingRule) =
      .rejected (.unexpected ⟨.newline, "\n", ⟨5, 5⟩⟩ .rule) ⟨[⟨.eof, "", ⟨6, 1⟩⟩], []⟩ := rfl
  have stream : IsStream danglingRule :=
    ⟨danglingRule.dropLast, ⟨.eof, "", ⟨6, 1⟩⟩, rfl, Or.inl rfl, by decide⟩
  obtain ⟨cause, rest, rejected', _, located⟩ :=
    document_rejected_located stream fun found rest => by rw [rejected]; nofun
  cases rejected.symm.trans rejected'
  obtain ⟨token, production, before, same, split, viable, dead, _⟩ := located nofun
  cases same
  have split : danglingRule.take 4 ++ danglingRule.drop 4 = before ++ danglingRule.drop 4 := split
  obtain rfl := List.append_cancel_right split
  exact ⟨rejected, viable, dead⟩

/-- The tokens of a source never run out. -/
theorem parse_ne_streamEnded (parser : Parser) (source : String) :
    parser.parse source ≠ .error (.internal .streamEnded) := by
  intro ended
  unfold Parser.parse at ended
  cases outcome : document (.start (Token.scan source)) with
  | found found rest =>
      rw [outcome] at ended
      cases ended
  | absent rest => exact document_ne_absent _ rest outcome
  | rejected cause rest =>
      rw [outcome] at ended
      cases cause with
      | illegal token | unexpected token production => cases ended
      | exhausted => exact ne_exhausted (isStream_scan source) rest outcome

end Reading
end GrammarBook
