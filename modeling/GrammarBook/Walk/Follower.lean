import GrammarBook.Fault
import GrammarBook.Walk.Event

namespace GrammarBook
namespace Walk

/-!
# Followers

A follower is a tool with a state of its own that is shown the events of a walk one after another.
It may stop the walk with a fault. Its state stays as it was when the walk ended, whether the walk
was completed or stopped.
-/

/-- Work on a state that may end with a fault; the state is kept either way. -/
abbrev Follow (σ : Type) := ExceptT Fault (StateM σ)

variable {σ : Type}

def stop (violation : Violation) : Follow σ Unit := throw (.semantic violation)

def Follow.runOn {α : Type} (work : Follow σ α) (state : σ) : Except Fault α × σ :=
  work.run.run state

end Walk
end GrammarBook
