import GrammarBook.Proofs.Reading.Bounds

namespace GrammarBook
namespace Reading

open Grammar

/-!
# Reading looks no further than it has to

A reader pulls tokens from the scan, and some of them are handed back. What comes of reading depends
on the tokens that were pulled and on nothing behind them: before any other tokens the same would have
come of it. All readers are composed by going on in one of two ways, so one law carries this through.
-/

/-! ## Outcomes of composed readers -/

section Composed

variable {α β : Type} {cursor rest : Cursor} {cause : Rejection}

theorem andThen_rejected_iff {first : Reader α} {second : α → Reader β} :
    first.andThen second cursor = .rejected cause rest ↔
      first cursor = .rejected cause rest ∨
        ∃ found behind, first cursor = .found found behind ∧
          second found behind = .rejected cause rest := by
  rw [Reader.andThen]
  cases first cursor <;> simp [and_assoc]

theorem orElse_rejected_iff {first second : Reader α} :
    first.orElse second cursor = .rejected cause rest ↔
      first cursor = .rejected cause rest ∨
        ∃ behind, first cursor = .absent behind ∧ second behind = .rejected cause rest := by
  rw [Reader.orElse]
  cases first cursor <;> simp

theorem map_rejected_iff {first : Reader α} {make : α → β} :
    (make <$> first) cursor = .rejected cause rest ↔ first cursor = .rejected cause rest := by
  refine andThen_rejected_iff.trans ?_
  simp [Reader.found]

theorem map_absent_iff {first : Reader α} {make : α → β} :
    (make <$> first) cursor = .absent rest ↔ first cursor = .absent rest := by
  change first.andThen (Reader.found ∘ make) cursor = .absent rest ↔ _
  rw [Reader.andThen]
  cases first cursor <;> simp [Reader.found]

theorem optional_eq (part : Reader α) :
    part.optional = (part.andThen fun found => Reader.found (some found)).orElse
      (Reader.found none) := by
  funext cursor
  simp only [Reader.optional, Reader.orElse, Reader.andThen]
  cases part cursor <;> rfl

theorem tokenIf_eq (wanted : Token → Bool) :
    tokenIf wanted = nextToken.andThen fun token rest =>
      if wanted token then .found token.text rest else .absent (rest.handBack token) := by
  funext cursor
  simp only [tokenIf, Reader.andThen]
  cases nextToken cursor <;> rfl

theorem bullet_eq :
    bullet = nextToken.andThen fun newline rest =>
      if newline.kind = .newline then
        nextToken.andThen (fun dash later =>
          if dash.kind = .delimiter ∧ dash.text = "-" then .found () later
          else .absent ((later.handBack dash).handBack newline)) rest
      else .absent (rest.handBack newline) := by
  funext cursor
  simp only [bullet, Reader.andThen]
  cases nextToken cursor with
  | absent rest | rejected cause rest => rfl
  | found newline rest =>
      simp only
      cases nextToken rest <;> rfl

end Composed

/-! ## The tokens that were pulled -/

namespace Outcome

variable {α : Type}

/-- The cursor behind what came of reading. -/
def behind : Outcome α → Cursor
  | found _ rest | absent rest | rejected _ rest => rest

/-- The outcome with other tokens not yet taken. -/
def facing (ahead : List Token) : Outcome α → Outcome α
  | found value rest => found value { rest with ahead }
  | absent rest => absent { rest with ahead }
  | rejected cause rest => rejected cause { rest with ahead }

/-- Reading was cut short by the scan: by an illegal token, or by its end. -/
def IsCut : Outcome α → Prop
  | rejected (.illegal _) _ | rejected .exhausted _ => True
  | _ => False

/-- How many tokens may be held back: those of a bullet, of which a rejection names one. -/
def mayHold : Outcome α → Nat
  | found .. | absent _ => 2
  | rejected .. => 1

end Outcome

/-- Legal tokens are pulled from the scan, and whatever is behind them, the same comes of it. -/
structure Pulls {α : Type} (reader : Reader α) (cursor : Cursor) (outcome : Outcome α)
    (pulled : List Token) : Prop where
  split : cursor.ahead = pulled ++ outcome.behind.ahead
  legal : ∀ token ∈ pulled, token.kind ≠ .error
  same : ∀ ahead, reader ⟨cursor.held, pulled ++ ahead⟩ = outcome.facing ahead
  few : outcome.behind.held.length ≤ outcome.mayHold

/-- Unless it is cut short, reading depends on nothing behind the tokens it pulls. -/
def IsLocal {α : Type} (reader : Reader α) (cursor : Cursor) : Prop :=
  cursor.held.length ≤ 2 → ¬ (reader cursor).IsCut →
    ∃ pulled, Pulls reader cursor (reader cursor) pulled

/-- Goes on in one way behind what is found, and in another where nothing is. All composed readers
are of this kind. -/
def Reader.branch {α β : Type} (first : Reader α) (onFound : α → Reader β) (onAbsent : Reader β) :
    Reader β := fun cursor =>
  match first cursor with
  | .found value rest => onFound value rest
  | .absent rest => onAbsent rest
  | .rejected cause rest => .rejected cause rest

section Local

variable {α β : Type} {cursor : Cursor} {first : Reader α}

/-- One reader behind another pulls what both do. -/
theorem Pulls.append {outcome : Outcome α} {before : List Token}
    (pulls : Pulls first cursor outcome before) {second : Reader β} {outcome' : Outcome β}
    {after : List Token} (pulls' : Pulls second outcome.behind outcome' after) {whole : Reader β}
    (composed : ∀ ahead, whole ⟨cursor.held, before ++ ahead⟩ = second ⟨outcome.behind.held, ahead⟩) :
    Pulls whole cursor outcome' (before ++ after) where
  split := by rw [pulls.split, pulls'.split, List.append_assoc]
  legal token member := by
    rcases List.mem_append.mp member with inBefore | inAfter
    · exact pulls.legal token inBefore
    · exact pulls'.legal token inAfter
  same ahead := by rw [List.append_assoc, composed, pulls'.same]
  few := pulls'.few

/-- A reader that pulls nothing. -/
theorem isLocal_of_facing {outcome : Outcome α} (answer : first cursor = outcome)
    (same : ∀ ahead, first ⟨cursor.held, ahead⟩ = outcome.facing ahead)
    (keeps : cursor.held.length ≤ 2 → outcome.behind.held.length ≤ outcome.mayHold) :
    IsLocal first cursor := by
  intro few _
  rw [answer]
  refine ⟨[], ?_, nofun, same, keeps few⟩
  have facing := (same cursor.ahead).symm.trans answer
  rw [← facing]
  cases outcome <;> rfl

theorem IsLocal.branch {onFound : α → Reader β} {onAbsent : Reader β}
    (atFirst : IsLocal first cursor)
    (atFound : cursor.held.length ≤ 2 → ∀ found behind, first cursor = .found found behind →
      IsLocal (onFound found) behind)
    (atAbsent : ∀ behind, first cursor = .absent behind → IsLocal onAbsent behind) :
    IsLocal (first.branch onFound onAbsent) cursor := by
  intro few notCut
  unfold IsLocal at atFirst
  unfold Reader.branch at notCut ⊢
  cases outcome : first cursor with
  | found found behind =>
      rw [outcome] at atFirst
      simp only [outcome] at notCut ⊢
      obtain ⟨before, pulls⟩ := atFirst few id
      obtain ⟨after, pulls'⟩ := atFound few found behind outcome pulls.few notCut
      refine ⟨_, pulls.append pulls' fun ahead => ?_⟩
      rw [pulls.same]
      rfl
  | absent behind =>
      rw [outcome] at atFirst
      simp only [outcome] at notCut ⊢
      obtain ⟨before, pulls⟩ := atFirst few id
      obtain ⟨after, pulls'⟩ := atAbsent behind outcome pulls.few notCut
      refine ⟨_, pulls.append pulls' fun ahead => ?_⟩
      rw [pulls.same]
      rfl
  | rejected cause behind =>
      rw [outcome] at atFirst
      simp only [outcome] at notCut ⊢
      obtain ⟨before, pulls⟩ := atFirst few (by cases cause <;> exact notCut)
      refine ⟨before, pulls.split, pulls.legal, fun ahead => ?_, pulls.few⟩
      rw [pulls.same]
      rfl

theorem isLocal_found (value : α) : IsLocal (Reader.found value) cursor :=
  isLocal_of_facing rfl (fun _ => rfl) id

theorem isLocal_absent : IsLocal (Outcome.absent : Reader α) cursor :=
  isLocal_of_facing rfl (fun _ => rfl) id

theorem orElse_eq_branch (second : Reader α) :
    first.orElse second = first.branch Reader.found second := rfl

theorem IsLocal.andThen {second : α → Reader β} (atFirst : IsLocal first cursor)
    (atSecond : cursor.held.length ≤ 2 → ∀ found behind, first cursor = .found found behind →
      IsLocal (second found) behind) : IsLocal (first.andThen second) cursor :=
  atFirst.branch atSecond fun _ _ => isLocal_absent

theorem IsLocal.orElse {second : Reader α} (atFirst : IsLocal first cursor)
    (atSecond : ∀ behind, first cursor = .absent behind → IsLocal second behind) :
    IsLocal (first.orElse second) cursor := by
  rw [orElse_eq_branch]
  exact atFirst.branch (fun _ found behind _ => isLocal_found found) atSecond

theorem IsLocal.map (atFirst : IsLocal first cursor) (make : α → β) :
    IsLocal (make <$> first) cursor :=
  atFirst.andThen fun _ _ _ _ => isLocal_found _

end Local

theorem held_of_nextToken {cursor rest : Cursor} {token : Token}
    (taken : nextToken cursor = .found token rest) :
    rest.held.length = cursor.held.length - 1 := by
  rcases cursor with ⟨held, ahead⟩
  unfold nextToken at taken
  cases held with
  | cons first held =>
      cases taken
      rfl
  | nil =>
      cases ahead with
      | nil => cases taken
      | cons first ahead =>
          simp only at taken
          split at taken
          · cases taken
          · cases taken
            rfl

theorem isLocal_nextToken (cursor : Cursor) : IsLocal nextToken cursor := by
  rcases cursor with ⟨held, ahead⟩
  cases held with
  | cons token held =>
      refine isLocal_of_facing rfl (fun _ => rfl) fun few => ?_
      exact Nat.le_of_succ_le few
  | nil =>
      intro _ notCut
      cases ahead with
      | nil => exact absurd True.intro notCut
      | cons token ahead =>
          by_cases error : token.kind = .error
          · have stopped : nextToken ⟨[], token :: ahead⟩ = .rejected (.illegal token) ⟨[], ahead⟩ :=
              if_pos error
            rw [stopped] at notCut
            exact absurd True.intro notCut
          · have taken (ahead) : nextToken ⟨[], token :: ahead⟩ = .found token ⟨[], ahead⟩ :=
              if_neg error
            rw [taken]
            refine ⟨[token], rfl, ?_, taken, Nat.zero_le _⟩
            intro other member
            rwa [List.mem_singleton.mp member]

theorem isLocal_tokenIf (wanted : Token → Bool) (cursor : Cursor) :
    IsLocal (tokenIf wanted) cursor := by
  rw [tokenIf_eq]
  apply (isLocal_nextToken cursor).andThen
  intro few token behind taken
  have held := held_of_nextToken taken
  by_cases isWanted : wanted token = true
  · simp only [if_pos isWanted]
    exact isLocal_found token.text
  · simp only [if_neg isWanted]
    refine isLocal_of_facing rfl (fun _ => rfl) fun _ => ?_
    simp only [Outcome.behind, Outcome.mayHold, Cursor.handBack, List.length_cons]
    omega

theorem isLocal_bullet (cursor : Cursor) : IsLocal bullet cursor := by
  rw [bullet_eq]
  apply (isLocal_nextToken cursor).andThen
  intro few newline behind taken
  have held := held_of_nextToken taken
  by_cases ends : newline.kind = .newline
  · simp only [if_pos ends]
    apply (isLocal_nextToken behind).andThen
    intro _ dash later taken'
    have held' := held_of_nextToken taken'
    by_cases fits : dash.kind = .delimiter ∧ dash.text = "-"
    · simp only [if_pos fits]
      exact isLocal_found ()
    · simp only [if_neg fits]
      refine isLocal_of_facing rfl (fun _ => rfl) fun _ => ?_
      simp only [Outcome.behind, Outcome.mayHold, Cursor.handBack, List.length_cons]
      omega
  · simp only [if_neg ends]
    refine isLocal_of_facing rfl (fun _ => rfl) fun _ => ?_
    simp only [Outcome.behind, Outcome.mayHold, Cursor.handBack, List.length_cons]
    omega

theorem isLocal_reject {α : Type} (production : Production) (cursor : Cursor) :
    IsLocal (Reader.reject production : Reader α) cursor := by
  apply (isLocal_nextToken cursor).andThen
  intro few token behind taken
  have held := held_of_nextToken taken
  refine isLocal_of_facing rfl (fun _ => rfl) fun _ => ?_
  simp only [Outcome.behind, Outcome.mayHold]
  omega

theorem carries_isLocal : Carries fun _ => IsLocal where
  token kind := isLocal_tokenIf _
  mark text := isLocal_tokenIf _
  bullet := isLocal_bullet
  empty cursor := isLocal_found ()
  build reads := reads.map _
  required production _ reads := reads.orElse fun behind _ => isLocal_reject production behind
  next _ atFront atBack :=
    atFront.andThen fun _ found behind outcome => (atBack found behind outcome).map _
  either _ atLeft atRight :=
    (atLeft.map _).orElse fun behind absent => (atRight behind (map_absent_iff.mp absent)).map _
  optional reads := by
    rw [optional_eq]
    exact (reads.map _).orElse fun _ _ => isLocal_found none
  many reads := reads.orElse fun _ _ => isLocal_found []
  several _ atFirst atOthers :=
    atFirst.andThen fun _ found behind outcome => (atOthers found behind outcome).map _

end Reading
end GrammarBook
