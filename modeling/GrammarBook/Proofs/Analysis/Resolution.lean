import GrammarBook.Analysis.Resolution
import GrammarBook.Proofs.Analysis.Resolved

namespace GrammarBook
namespace FragmentTable

/-!
# Resolution

Names are compiled in the reverse of the order in which a search along their users finishes them. In
a table without circles every name then stands behind the names that it refers to, so that what has
been compiled is always enough to compile the next name.
-/

variable {table : FragmentTable} {name target : String}

/-! ## The order of a search -/

theorem mem_users_iff : name ∈ table.users target ↔ table.Refers name target := by
  simp only [users, List.mem_reverse, List.mem_flatMap, List.mem_map, List.mem_filter, beq_iff_eq]
  constructor
  · rintro ⟨⟨key, fragments⟩, entered, _, ⟨member, rfl⟩, rfl⟩
    rw [Refers, NameTable.get?_eq_some_iff.mpr entered]
    exact member
  · intro refers
    obtain ⟨fragments, entered⟩ := NameTable.mem_keys_iff.mp (mem_keys_of_refers refers)
    rw [Refers, entered] at refers
    exact ⟨(name, fragments), NameTable.get?_eq_some_iff.mp entered, target, ⟨refers, rfl⟩, rfl⟩

/-- What a search keeps where there are no circles: all users of a finished name are finished, and
no name refers to one that was finished before it. -/
structure Search.IsOrderly (table : FragmentTable) (search : Search) : Prop where
  seen : ∀ name ∈ search.finished, name ∈ search.seen
  usersFinished : ∀ name ∈ search.finished, ∀ user, table.Refers user name →
    user ∈ search.finished
  ordered : search.finished.Pairwise fun earlier later => ¬ table.Refers later earlier

/-- The name leads to all that a search is still at. -/
def Search.LeadsTo (table : FragmentTable) (search : Search) (name : String) : Prop :=
  ∀ other ∈ search.seen, other ∉ search.finished → table.Reaches name other

/-- A search that goes on is still at no other names than before. -/
theorem Search.LeadsTo.extends {before after : Search} (leads : before.LeadsTo table name)
    (later : before.Extends after) : after.LeadsTo table name := by
  intro other seen unfinished
  rcases later.since other seen with early | done
  · exact leads other early fun finished => unfinished (later.finished other finished)
  · exact absurd done unfinished

theorem missing_length_mono {names more : List String} (within : ∀ name ∈ names, name ∈ more) :
    (missing table more).length ≤ (missing table names).length := by
  refine (List.monotone_filter_right table.keys fun key absent => ?_).length_le
  rw [decide_eq_true_eq] at absent ⊢
  exact fun member => absent (within key member)

theorem missing_length_cons {names : List String} (isKey : name ∈ table.keys)
    (absent : name ∉ names) :
    (missing table (name :: names)).length < (missing table names).length := by
  have filtered : missing table (name :: names) =
      (missing table names).filter fun key => key ≠ name := by
    rw [missing, missing, List.filter_filter]
    exact List.filter_congr fun key _ => by simp
  rw [filtered, List.length_filter_lt_length_iff_exists]
  exact ⟨name, List.mem_filter.mpr ⟨isKey, decide_eq_true absent⟩, by simp⟩

/-- One step down a search stays orderly and comes to the name. -/
def StaysOrderly (table : FragmentTable) (depth : Nat) : Prop :=
  ∀ (search : Search) (name : String), (missing table search.seen).length ≤ depth →
    name ∈ table.keys → search.LeadsTo table name → search.IsOrderly table →
    (searchFrom table depth search name).IsOrderly table ∧
      name ∈ (searchFrom table depth search name).seen

theorem isOrderly_foldl {depth : Nat} (stays : StaysOrderly table depth) {names : List String}
    {search : Search} (enough : (missing table search.seen).length ≤ depth)
    (known : ∀ name ∈ names, name ∈ table.keys)
    (leads : ∀ name ∈ names, search.LeadsTo table name) (orderly : search.IsOrderly table) :
    (names.foldl (searchFrom table depth) search).IsOrderly table ∧
      ∀ name ∈ names, name ∈ (names.foldl (searchFrom table depth) search).seen := by
  induction names generalizing search with
  | nil => exact ⟨orderly, fun _ absent => absurd absent List.not_mem_nil⟩
  | cons first names ih =>
      obtain ⟨firstKnown, othersKnown⟩ := List.forall_mem_cons.mp known
      obtain ⟨firstLeads, othersLead⟩ := List.forall_mem_cons.mp leads
      have further : search.Extends (searchFrom table depth search first) :=
        extends_searchFrom depth search first
      obtain ⟨between, come⟩ := stays search first enough firstKnown firstLeads orderly
      obtain ⟨after, othersCome⟩ := ih (Nat.le_trans (missing_length_mono further.seen) enough)
        othersKnown
        (fun name member => (othersLead name member).extends further) between
      refine ⟨after, List.forall_mem_cons.mpr ⟨?_, othersCome⟩⟩
      exact (Search.Extends.foldl (extends_searchFrom depth) _ names).seen first come

/-- A search may finish a name that it has seen once it has finished all users of it. -/
theorem Search.IsOrderly.finish {search : Search} (orderly : search.IsOrderly table)
    (seen : name ∈ search.seen) (notDone : name ∉ search.finished)
    (usersDone : ∀ user, table.Refers user name → user ∈ search.finished) :
    Search.IsOrderly table { search with finished := search.finished ++ [name] } := by
  refine ⟨?_, ?_, ?_⟩
  · intro other member
    rcases List.mem_append.mp member with during | last
    · exact orderly.seen other during
    · rw [List.mem_singleton.mp last]
      exact seen
  · intro other member user refers
    rcases List.mem_append.mp member with during | last
    · exact List.mem_append_left _ (orderly.usersFinished other during user refers)
    · rw [List.mem_singleton.mp last] at refers
      exact List.mem_append_left _ (usersDone user refers)
  · refine List.pairwise_append.mpr ⟨orderly.ordered, List.pairwise_singleton _ _, ?_⟩
    intro earlier done later last refers
    rw [List.mem_singleton.mp last] at refers
    exact notDone (orderly.usersFinished earlier done name refers)

/-- A name is finished after its users: those that the search is still at, the name itself among
them, would close a circle. -/
theorem staysOrderly (acyclic : table.IsAcyclic) (depth : Nat) : StaysOrderly table depth := by
  induction depth with
  | zero =>
      intro search name enough known leads orderly
      have none : missing table search.seen = [] := List.length_eq_zero_iff.mp (Nat.le_zero.mp enough)
      have all := List.filter_eq_nil_iff.mp none name known
      exact ⟨orderly, by_contra fun absent => all (decide_eq_true absent)⟩
  | succ depth ih =>
      intro search name enough known leads orderly
      refine ⟨?_, mem_seen_searchFrom depth search name⟩
      rw [searchFrom]
      split
      · exact orderly
      rename_i notSeen
      let start : Search := { search with seen := name :: search.seen }
      have startEnough : (missing table start.seen).length ≤ depth :=
        Nat.le_of_lt_succ (Nat.lt_of_lt_of_le (missing_length_cons known notSeen) enough)
      have startOrderly : start.IsOrderly table :=
        ⟨fun other member => List.mem_cons_of_mem name (orderly.seen other member),
          orderly.usersFinished, orderly.ordered⟩
      have usersLead : ∀ user ∈ table.users name, start.LeadsTo table user := by
        intro user uses other seen unfinished
        have refers := mem_users_iff.mp uses
        rcases List.mem_cons.mp seen with rfl | earlier
        · exact .single refers
        · exact .head refers (leads other earlier unfinished)
      have further : start.Extends ((table.users name).foldl (searchFrom table depth) start) :=
        Search.Extends.foldl (extends_searchFrom depth) start (table.users name)
      obtain ⟨after, usersCome⟩ := isOrderly_foldl ih startEnough
        (fun user uses => mem_keys_of_refers (mem_users_iff.mp uses)) usersLead startOrderly
      -- A user that is seen but not finished leads back to itself by way of the name.
      have usersDone : ∀ user, table.Refers user name →
          user ∈ ((table.users name).foldl (searchFrom table depth) start).finished := by
        intro user refers
        by_contra unfinished
        have uses := mem_users_iff.mpr refers
        have circle := (usersLead user uses).extends further user (usersCome user uses) unfinished
        exact acyclic user circle
      have notDone : name ∉ ((table.users name).foldl (searchFrom table depth) start).finished := by
        intro done
        rcases further.fresh name done with before | new
        · exact notSeen (orderly.seen name before)
        · exact new List.mem_cons_self
      exact after.finish (further.seen name List.mem_cons_self) notDone usersDone

/-! ## Compiling in order -/

/-- All names of the table, none of them before one that it refers to. -/
structure IsCompileOrder (table : FragmentTable) (order : List String) : Prop where
  complete : ∀ name ∈ table.keys, name ∈ order
  ordered : order.Pairwise fun earlier later => ¬ table.Refers earlier later

theorem isCompileOrder_compileOrder (acyclic : table.IsAcyclic) :
    table.IsCompileOrder table.compileOrder := by
  constructor
  · exact fun name member => List.mem_reverse.mpr (mem_finishOrder member)
  · refine List.pairwise_reverse.mpr ?_
    have enough : (missing table []).length ≤ table.size + 1 :=
      Nat.le_succ_of_le (Nat.le_trans (List.length_filter_le _ _) (Nat.le_of_eq (List.length_map _)))
    have nothing : Search.IsOrderly table {} :=
      ⟨fun _ absent => absurd absent List.not_mem_nil,
        fun _ absent => absurd absent List.not_mem_nil, List.Pairwise.nil⟩
    exact (isOrderly_foldl (staysOrderly acyclic _) enough (fun _ => id)
      (fun _ _ _ absent => absurd absent List.not_mem_nil) nothing).1.ordered

/-- In such an order a name refers only to names that stand before it. -/
theorem IsCompileOrder.mem_before (defined : table.IsDefined) (acyclic : table.IsAcyclic)
    {before after : List String} (order : table.IsCompileOrder (before ++ name :: after))
    (refers : table.Refers name target) : target ∈ before := by
  obtain ⟨_, behind, _⟩ := List.pairwise_append.mp order.ordered
  rcases List.mem_append.mp (order.complete target (defined refers)) with early | late
  · exact early
  · rcases List.mem_cons.mp late with rfl | later
    · exact absurd (Relation.TransGen.single refers) (acyclic target)
    · exact absurd refers ((List.pairwise_cons.mp behind).1 target later)

/-- The names have been compiled to their texts. -/
def HasCompiled (table : FragmentTable) (compiled : NameTable String) (names : List String) : Prop :=
  ∀ name ∈ names, name ∈ table.keys → compiled.get? name = some (table.textOf name)

theorem mapM_compileFragment {compiled : NameTable String} {textOf : String → String}
    {fragments : List Fragment}
    (known : ∀ target ∈ targets fragments, compiled.get? target = some (textOf target)) :
    fragments.mapM (compileFragment compiled name) = .ok (fragments.map (pieceText textOf)) := by
  induction fragments with
  | nil => rfl
  | cons fragment fragments ih =>
      cases fragment with
      | text text =>
          rw [List.mapM_cons, ih known]
          rfl
      | reference target =>
          obtain ⟨here, later⟩ := List.forall_mem_cons.mp known
          rw [List.mapM_cons, ih later, compileFragment, here]
          rfl

/-- A name is compiled to its text once all that it refers to has been compiled. -/
theorem compileName_eq (defined : table.IsDefined) (acyclic : table.IsAcyclic)
    {compiled : NameTable String} {names : List String} (done : table.HasCompiled compiled names)
    (behind : ∀ target, table.Refers name target → target ∈ names) :
    ∃ next, table.compileName compiled name = .ok next ∧
      table.HasCompiled next (names ++ [name]) := by
  have known : ∀ target ∈ targets ((table.get? name).getD []),
      compiled.get? target = some (table.textOf target) := fun target refers =>
    done target (behind target refers) (defined refers)
  refine ⟨_, by rw [compileName, mapM_compileFragment known]; rfl, ?_⟩
  intro other member isKey
  rw [NameTable.get?_put]
  split
  · rename_i same
    obtain ⟨fragments, entered⟩ := NameTable.mem_keys_iff.mp isKey
    rw [textOf_eq defined acyclic entered, ← same, entered]
    rfl
  · rename_i different
    rcases List.mem_append.mp member with early | last
    · exact done other early isKey
    · exact absurd (List.mem_singleton.mp last) different

/-- Whatever the order, if only names stand behind what they refer to, all are compiled. -/
theorem foldlM_compileName (defined : table.IsDefined) (acyclic : table.IsAcyclic)
    {compiled : NameTable String} {before after : List String}
    (order : table.IsCompileOrder (before ++ after)) (done : table.HasCompiled compiled before) :
    ∃ final, after.foldlM table.compileName compiled = .ok final ∧
      table.HasCompiled final (before ++ after) := by
  induction after generalizing compiled before with
  | nil => exact ⟨compiled, rfl, (List.append_nil before).symm ▸ done⟩
  | cons name after ih =>
      obtain ⟨next, compiles, nextDone⟩ := compileName_eq defined acyclic done
        fun target refers => order.mem_before defined acyclic refers
      obtain ⟨final, follows, allDone⟩ := ih (List.append_cons before name after ▸ order) nextDone
      refine ⟨final, ?_, List.append_cons before name after ▸ allDone⟩
      rw [List.foldlM_cons, compiles]
      exact follows

/-! ## The outcome -/

theorem firstUndefined?_eq_none_iff : table.firstUndefined? = none ↔ table.IsDefined := by
  rw [firstUndefined?, List.find?_eq_none]
  constructor
  · intro known name target refers
    obtain ⟨fragments, entered⟩ := NameTable.mem_keys_iff.mp (mem_keys_of_refers refers)
    rw [Refers, entered] at refers
    have isKnown := known target
      (List.mem_flatMap.mpr ⟨(name, fragments), NameTable.get?_eq_some_iff.mp entered, refers⟩)
    rw [← NameTable.contains_iff]
    simpa using isKnown
  · intro defined target member
    obtain ⟨⟨name, fragments⟩, entered, refers⟩ := List.mem_flatMap.mp member
    have isKey : target ∈ table.keys := by
      have refersHere : table.Refers name target := by
        rw [Refers, NameTable.get?_eq_some_iff.mpr entered]
        exact refers
      exact defined refersHere
    simp [NameTable.contains_iff.mpr isKey]

theorem resolve_of_undefined (first : table.firstUndefined? = some name) :
    table.resolve = .error (.semantic (.expressionUndefined name)) := by
  rw [resolve, first]

/-- A circle is reported where all names are defined and there is one. -/
theorem resolve_of_circle (defined : table.IsDefined) (circular : ¬ table.IsAcyclic) :
    ∃ circle, table.resolve = .error (.semantic (.circular (closedCircle circle))) ∧
      circle ≠ [] ∧ ∀ name ∈ circle, ∀ other ∈ circle, table.Reaches name other := by
  cases found : table.cycle? with
  | none => exact absurd (isAcyclic_of_cycle? defined found) circular
  | some circle =>
      refine ⟨circle, ?_, reaches_of_cycle? defined found⟩
      rw [resolve, firstUndefined?_eq_none_iff.mpr defined, found]

theorem cycle?_eq_none (defined : table.IsDefined) (acyclic : table.IsAcyclic) :
    table.cycle? = none := by
  rw [Option.eq_none_iff_forall_not_mem]
  intro circle found
  obtain ⟨someone, reaches⟩ := reaches_of_cycle? defined found
  obtain ⟨name, member⟩ := List.exists_mem_of_ne_nil circle someone
  exact acyclic name (reaches name member name member)

/-- Without undefined names and circles every name gets its text. -/
theorem resolve_of_acyclic (defined : table.IsDefined) (acyclic : table.IsAcyclic) :
    ∃ regexes, table.resolve = .ok regexes ∧ regexes.keys = table.keys ∧
      ∀ name ∈ table.keys, regexes.get? name = some (table.textOf name) := by
  have order := isCompileOrder_compileOrder acyclic
  have nothing : table.HasCompiled .empty [] := fun _ absent => absurd absent List.not_mem_nil
  obtain ⟨compiled, follows, done⟩ :
      ∃ compiled, table.compileOrder.foldlM table.compileName .empty = .ok compiled ∧
        table.HasCompiled compiled table.compileOrder :=
    foldlM_compileName defined acyclic (List.nil_append _ ▸ order) nothing
  refine ⟨table.mapEntries fun name _ => (compiled.get? name).getD "", ?_,
    NameTable.keys_mapEntries, ?_⟩
  · rw [resolve, firstUndefined?_eq_none_iff.mpr defined, cycle?_eq_none defined acyclic]
    simp only [follows]
    rfl
  · intro name member
    obtain ⟨fragments, entered⟩ := NameTable.mem_keys_iff.mp member
    rw [NameTable.get?_mapEntries, entered, Option.map_some, done name (order.complete name member) member]
    rfl

/-- A table has an undefined name or a circle, which is reported, or gives every name its text. -/
theorem resolve_cases (table : FragmentTable) :
    (∃ name, table.resolve = .error (.semantic (.expressionUndefined name))) ∨
    (∃ circle, table.resolve = .error (.semantic (.circular (closedCircle circle)))) ∨
    (table.IsDefined ∧ table.IsAcyclic ∧ ∃ regexes, table.resolve = .ok regexes ∧
      regexes.keys = table.keys ∧
      ∀ name ∈ table.keys, regexes.get? name = some (table.textOf name)) := by
  cases undefined : table.firstUndefined? with
  | some name => exact .inl ⟨name, resolve_of_undefined undefined⟩
  | none =>
      have defined := firstUndefined?_eq_none_iff.mp undefined
      by_cases acyclic : table.IsAcyclic
      · exact .inr (.inr ⟨defined, acyclic, resolve_of_acyclic defined acyclic⟩)
      · obtain ⟨circle, fails, _⟩ := resolve_of_circle defined acyclic
        exact .inr (.inl ⟨circle, fails⟩)

/-- A table that is resolved has neither undefined names nor circles, and gives every name its
text. -/
theorem resolved_of_resolve {regexes : NameTable String} (success : table.resolve = .ok regexes) :
    table.IsDefined ∧ table.IsAcyclic ∧ regexes.keys = table.keys ∧
      ∀ name ∈ table.keys, regexes.get? name = some (table.textOf name) := by
  rcases table.resolve_cases with ⟨_, fails⟩ | ⟨_, fails⟩ | ⟨defined, acyclic, _, resolves, gets⟩
  · cases fails.symm.trans success
  · cases fails.symm.trans success
  · cases resolves.symm.trans success
    exact ⟨defined, acyclic, gets⟩

theorem find?_eq_some_of_append {test : String → Bool} {before after : List String}
    (passed : ∀ earlier ∈ before, test earlier = false) (found : test name = true) :
    (before ++ name :: after).find? test = some name := by
  have nothing : before.find? test = none := List.find?_eq_none.mpr fun earlier member => by
    simp [passed earlier member]
  rw [List.find?_append, nothing, List.find?_cons_of_pos found]
  rfl

/-- A table is resolved exactly if all names in it are defined and none leads back to itself. Then
each name gets its fragments with, for every reference, what the name referred to gets. Otherwise the
first undefined name is reported, or a circle where all names are defined; no name is ever asked for
before it has been compiled. -/
theorem resolve_exact (table : FragmentTable) :
    ((∃ regexes, table.resolve = .ok regexes) ↔ table.IsDefined ∧ table.IsAcyclic) ∧
    (∀ regexes, table.resolve = .ok regexes →
      regexes.keys = table.keys ∧
      ∀ name fragments, table.get? name = some fragments →
        regexes.get? name =
          some (resolved (fun target => (regexes.get? target).getD "") fragments)) ∧
    (∀ before name after,
      (table.entries.flatMap fun entry => targets entry.2) = before ++ name :: after →
      (∀ earlier ∈ before, earlier ∈ table.keys) → name ∉ table.keys →
      table.resolve = .error (.semantic (.expressionUndefined name))) ∧
    (table.IsDefined → ¬ table.IsAcyclic →
      ∃ circle, table.resolve = .error (.semantic (.circular (closedCircle circle))) ∧
        circle ≠ [] ∧ ∀ name ∈ circle, ∀ other ∈ circle, table.Reaches name other) ∧
    ∀ breach, table.resolve ≠ .error (.internal breach) := by
  refine ⟨⟨?_, ?_⟩, ?_, ?_, resolve_of_circle, ?_⟩
  · rintro ⟨regexes, success⟩
    obtain ⟨defined, acyclic, _⟩ := resolved_of_resolve success
    exact ⟨defined, acyclic⟩
  · rintro ⟨defined, acyclic⟩
    obtain ⟨regexes, success, _⟩ := resolve_of_acyclic defined acyclic
    exact ⟨regexes, success⟩
  · intro regexes success
    obtain ⟨defined, acyclic, sameKeys, gets⟩ := resolved_of_resolve success
    refine ⟨sameKeys, fun name fragments entered => ?_⟩
    rw [gets name (NameTable.mem_keys_iff.mpr ⟨fragments, entered⟩),
      textOf_eq defined acyclic entered]
    congr 1
    apply resolved_congr
    intro target member
    have refers : table.Refers name target := by rwa [Refers, entered]
    rw [gets target (defined refers)]
    rfl
  · intro before name after references passed undefined
    apply resolve_of_undefined
    rw [firstUndefined?, references]
    apply find?_eq_some_of_append
    · intro earlier member
      simp [NameTable.contains_iff.mpr (passed earlier member)]
    · rw [← NameTable.contains_iff] at undefined
      simpa using undefined
  · intro breach fails
    rcases table.resolve_cases with ⟨_, other⟩ | ⟨_, other⟩ | ⟨_, _, _, other, _⟩
    all_goals cases other.symm.trans fails

end FragmentTable
end GrammarBook
