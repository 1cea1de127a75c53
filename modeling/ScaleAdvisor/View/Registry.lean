import ScaleAdvisor.View.Forest

/-!
The sandboxes in use, by name. A name is given out again only while its sandbox is open and laid
over the view asked for; otherwise the old one is closed and replaced.
-/

namespace ScaleAdvisor

structure Registry where
  base : ViewId
  sandboxes : SortedMap String ViewId := ∅

namespace Registry

def size (r : Registry) : Nat := r.sandboxes.size

/-- An open sandbox of this name over this very view. -/
def reusable? (r : Registry) (f : Forest) (name : String) (base : ViewId) : Option ViewId :=
  (r.sandboxes.get? name).filter fun v => f.delegate? v == some base && !f.isClosed v

/-- Close the sandbox that a name stands for. -/
def closeNamed (r : Registry) (f : Forest) (name : String) : Forest :=
  match r.sandboxes.get? name with
  | some v => f.close v
  | none => f

/-- The sandbox of a name over a view. -/
def sandboxOver (r : Registry) (f : Forest) (name : String) (base : ViewId) :
    Forest × Registry × ViewId :=
  match r.reusable? f name base with
  | some v => (f, r, v)
  | none =>
    let (f', v) := (r.closeNamed f name).sandbox name base
    (f', { r with sandboxes := r.sandboxes.insert name v }, v)

/-- Forget a name; its sandbox is closed unless it is to stay open. -/
def release (r : Registry) (f : Forest) (name : String) (keepOpen : Bool) : Forest × Registry :=
  (if keepOpen then f else r.closeNamed f name, { r with sandboxes := r.sandboxes.erase name })

end Registry

end ScaleAdvisor
