import GrammarBook.Proofs.Walk.Events

namespace GrammarBook
namespace Walk

/-!
# Following a walk

What is known of a follower at the end of a walk from what is known of it at a single event: where it
goes on to the end, and what state it is in there.
-/

variable {σ α β : Type}

/-- Work that ends well is gone on from. -/
theorem Follow.runOn_bind {first : Follow σ α} {next : α → Follow σ β} {before after : σ} {value : α}
    (ran : first.runOn before = (.ok value, after)) :
    (first >>= next).runOn before = (next value).runOn after := by
  unfold Follow.runOn at ran ⊢
  rw [ExceptT.run_bind, StateT.run_bind, ran]
  rfl

/-- Work that ends with a fault is not gone on from. -/
theorem Follow.runOn_bind_error {first : Follow σ α} {next : α → Follow σ β} {before after : σ}
    {fault : Fault} (failed : first.runOn before = (.error fault, after)) :
    (first >>= next).runOn before = (.error fault, after) := by
  unfold Follow.runOn at failed ⊢
  rw [ExceptT.run_bind, StateT.run_bind, failed]
  rfl

/-- Work is gone on from where it ends well, and nowhere else. -/
theorem Follow.runOn_bind_cases (first : Follow σ α) (next : α → Follow σ β) (before : σ) :
    (∃ (value : α) (middle : σ), first.runOn before = (.ok value, middle) ∧
      (first >>= next).runOn before = (next value).runOn middle) ∨
    ∃ (fault : Fault) (after : σ), first.runOn before = (.error fault, after) ∧
      (first >>= next).runOn before = (.error fault, after) := by
  cases ran : first.runOn before with
  | mk result middle =>
      cases result with
      | ok value => exact .inl ⟨value, middle, rfl, Follow.runOn_bind ran⟩
      | error fault => exact .inr ⟨fault, middle, rfl, Follow.runOn_bind_error ran⟩

/-- Work may go on from the state as it is. -/
theorem Follow.runOn_get_bind (next : σ → Follow σ β) (before : σ) :
    ((get : Follow σ σ) >>= next).runOn before = (next before).runOn before := rfl

/-- Work goes on from a state that was set. -/
theorem Follow.runOn_set_bind (state : σ) (next : PUnit → Follow σ β) (before : σ) :
    ((set state : Follow σ PUnit) >>= next).runOn before = (next ⟨⟩).runOn state := rfl

/-- Work that ends well has ended well at every step. -/
theorem Follow.runOn_bind_inv {first : Follow σ α} {next : α → Follow σ β} {before after : σ}
    {value : β} (ran : (first >>= next).runOn before = (.ok value, after)) :
    ∃ (found : α) (middle : σ), first.runOn before = (.ok found, middle) ∧
      (next found).runOn middle = (.ok value, after) := by
  rcases Follow.runOn_bind_cases first next before with
    ⟨found, middle, outcome, whole⟩ | ⟨fault, stopped, _, whole⟩
  · rw [whole] at ran
    exact ⟨found, middle, outcome, ran⟩
  · rw [whole] at ran
    cases ran

theorem Follow.runOn_bind_iff {first : Follow σ α} {next : α → Follow σ β} {before after : σ}
    {value : β} : (first >>= next).runOn before = (.ok value, after) ↔
      ∃ (found : α) (middle : σ), first.runOn before = (.ok found, middle) ∧
        (next found).runOn middle = (.ok value, after) := by
  constructor
  · exact Follow.runOn_bind_inv
  · rintro ⟨found, middle, ran, others⟩
    rw [Follow.runOn_bind ran, others]

/-- Every event is met in a state in which it passes. -/
def PassesAll (passes : σ → Event → Prop) (step : σ → Event → σ) : σ → List Event → Prop
  | _, [] => True
  | state, event :: events => passes state event ∧ PassesAll passes step (step state event) events

theorem passesAll_append {passes : σ → Event → Prop} {step : σ → Event → σ} {state : σ}
    {events later : List Event} :
    PassesAll passes step state (events ++ later) ↔
      PassesAll passes step state events ∧ PassesAll passes step (events.foldl step state) later := by
  induction events generalizing state with
  | nil => exact (and_iff_right trivial).symm
  | cons event events ih => rw [List.cons_append, PassesAll, PassesAll, ih, and_assoc, List.foldl_cons]

theorem passesAll_of_forall {passes : σ → Event → Prop} {events : List Event}
    (all : ∀ event ∈ events, ∀ state, passes state event) (step : σ → Event → σ) (state : σ) :
    PassesAll passes step state events := by
  induction events generalizing state with
  | nil => trivial
  | cons event events ih =>
      obtain ⟨first, others⟩ := List.forall_mem_cons.mp all
      exact ⟨first state, ih others _⟩

variable {visit : Event → Follow σ Unit} {events : List Event} {before after : σ}

/-- A follower that goes on exactly where an event passes goes on to the end of a walk exactly where
all its events pass. -/
theorem follow_runOn_iff {passes : σ → Event → Prop} {step : σ → Event → σ}
    (one : ∀ (event : Event) (before after : σ),
      (visit event).runOn before = (.ok (), after) ↔ passes before event ∧ after = step before event) :
    (follow visit events).runOn before = (.ok (), after) ↔
      PassesAll passes step before events ∧ after = events.foldl step before := by
  induction events generalizing before with
  | nil =>
      constructor
      · rintro ⟨⟩
        exact ⟨trivial, rfl⟩
      · rintro ⟨_, rfl⟩
        rfl
  | cons event events ih =>
      rw [follow, Follow.runOn_bind_iff, PassesAll, List.foldl_cons, and_assoc, ← ih]
      constructor
      · rintro ⟨_, middle, visited, others⟩
        obtain ⟨passed, rfl⟩ := (one event before middle).mp visited
        exact ⟨passed, others⟩
      · rintro ⟨passed, others⟩
        exact ⟨(), _, (one event before _).mpr ⟨passed, rfl⟩, others⟩

/-! ## Recording -/

theorem follow_record (events recorded : List Event) :
    (follow Recorder.record events).runOn ⟨recorded, none⟩ =
      (.ok (), ⟨events.reverse ++ recorded, none⟩) := by
  induction events generalizing recorded with
  | nil => rfl
  | cons event events ih =>
      have recorded_one :
          (Recorder.record event).runOn ⟨recorded, none⟩ = (.ok (), ⟨event :: recorded, none⟩) := rfl
      rw [follow, Follow.runOn_bind recorded_one, ih, List.reverse_cons, List.append_assoc]
      rfl

/-- A recorder that does not stop is shown the whole walk. -/
theorem transcript_whole (document : Document) :
    Recorder.transcript document none = (.ok (), document.events) := by
  have ran : (document.walk Recorder.record).runOn (Recorder.new none) =
      (.ok (), ⟨document.events.reverse ++ [], none⟩) := by
    rw [Document.walk_eq]
    exact follow_record document.events []
  rw [Recorder.transcript, ran, List.append_nil]
  exact congrArg (Prod.mk _) (List.reverse_reverse _)

/-! ## Parts of a walk -/

theorem mem_within {node : Node} {rank : Option Rank} {event : Event} :
    event ∈ within node rank events ↔
      event = .enter node rank ∨ event ∈ events ∨ event = .leave node rank := by
  rw [within, List.mem_cons, List.mem_append, List.mem_singleton]

end Walk

end GrammarBook
