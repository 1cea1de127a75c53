import ScaleAdvisor.View.Forest

/-!
Watching a view. A watcher is a position in the changes that the view has sent. Only the last
changes are kept for those who fall behind: they first learn how many they have missed.
-/

namespace ScaleAdvisor

/-- How many changes a view keeps for its watchers. -/
def Watcher.kept : Nat := 256

structure Watcher where
  view : ViewId
  /-- How many of the changes have been read. -/
  seen : Nat
  deriving DecidableEq, Repr

namespace Watcher

/-- Start at the present. -/
def subscribe (f : Forest) (v : ViewId) : Watcher := ⟨v, (f.view v).changes.size⟩

def unread (w : Watcher) (f : Forest) : Bool := w.seen < (f.view w.view).changes.size

/-- How many changes were dropped before they were read, and the changes left to read. -/
def drain (w : Watcher) (f : Forest) : Watcher × Nat × List Change :=
  let changes := (f.view w.view).changes
  let start := max w.seen (changes.size - kept)
  (⟨w.view, changes.size⟩, start - w.seen, changes.toList.drop start)

end Watcher

end ScaleAdvisor
