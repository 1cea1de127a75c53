import ScaleAdvisor.Proofs.View.Operations

/-!
Closing is for good. Whatever happens to views, one that has been closed is not opened again, and
none is moved to another place; so a view that is open at one moment has been open at every moment
before.

* `Happens.closed`, `Becomes.closed`: what is closed stays closed;
* `Becomes.readable`: what can be read in the end could be read all the time.
-/

namespace ScaleAdvisor.Forest

/-- The smallest things that happen to views: a sandbox is made, or something is done to a view. -/
inductive Happens : Forest → Forest → Prop
  | sandbox (f : Forest) (name : String) {base : ViewId} (there : base < f.views.size) :
      Happens f (f.sandbox name base).1
  | deed {f g : Forest} {v : ViewId} {clearing : Bool} (deed : Deed v clearing f g) : Happens f g

/-- One thing after another. -/
def Becomes : Forest → Forest → Prop := Relation.ReflTransGen Happens

variable {f g : Forest} {v : ViewId}

theorem closed_close (f : Forest) (v : ViewId) : ((f.close v).view v).closed = true := by
  by_cases there : v < f.views.size
  · rw [close, view_modify_self there]
  · have gone : (f.close v).views.size ≤ v := by simpa [close, modify] using there
    rw [view_of_size_le gone]
    rfl

theorem Happens.size_le (happens : Happens f g) : f.views.size ≤ g.views.size := by
  cases happens with
  | sandbox name there => exact (keeps_sandbox f name _).size
  | deed deed => exact Nat.le_of_eq deed.confined.size.symm

theorem Happens.valid (happens : Happens f g) (valid : f.Valid) : g.Valid := by
  cases happens with
  | sandbox name there => exact valid_sandbox name valid there
  | deed deed => exact deed.valid valid

theorem Happens.line_eq (happens : Happens f g) (there : v < f.views.size) :
    g.line v = f.line v := by
  cases happens with
  | sandbox name _ => exact (keeps_sandbox f name _).line_eq there
  | deed deed => rw [line, line, deed.confined.below_eq]

theorem Happens.closed (happens : Happens f g) (there : v < f.views.size)
    (closed : (f.view v).closed = true) : (g.view v).closed = true := by
  cases happens with
  | sandbox name _ =>
    rw [(keeps_sandbox f name _).same there]
    exact closed
  | @deed _ u _ deed =>
    by_cases same : v = u
    · subst same
      cases deed with
      | write kind key object there =>
        rw [view_commit there]
        exact closed
      | note event there | clear there =>
        rw [view_modify_self there]
        exact closed
      | close => exact closed_close f v
    · rw [deed.confined.elsewhere same]
      exact closed

namespace Becomes

theorem refl (f : Forest) : f.Becomes f := Relation.ReflTransGen.refl

theorem trans {h : Forest} (first : f.Becomes g) (second : g.Becomes h) : f.Becomes h :=
  Relation.ReflTransGen.trans first second

theorem single (happens : Happens f g) : f.Becomes g := Relation.ReflTransGen.single happens

theorem close (f : Forest) (v : ViewId) : f.Becomes (f.close v) := single (.deed .close)

theorem of_deeds {clearing : Bool} (deeds : Deeds v clearing f g) : f.Becomes g :=
  Relation.ReflTransGen.mono (fun _ _ => Happens.deed) _ _ deeds

theorem size_le (becomes : f.Becomes g) : f.views.size ≤ g.views.size := by
  induction becomes with
  | refl => exact Nat.le_refl _
  | tail _ happens ih => exact Nat.le_trans ih happens.size_le

theorem valid (becomes : f.Becomes g) (valid : f.Valid) : g.Valid := by
  induction becomes with
  | refl => exact valid
  | tail _ happens ih => exact happens.valid ih

theorem line_eq (becomes : f.Becomes g) (there : v < f.views.size) : g.line v = f.line v := by
  induction becomes with
  | refl => rfl
  | tail first happens ih => rw [happens.line_eq (Nat.lt_of_lt_of_le there (size_le first)), ih]

theorem closed (becomes : f.Becomes g) (there : v < f.views.size)
    (closed : (f.view v).closed = true) : (g.view v).closed = true := by
  induction becomes with
  | refl => exact closed
  | tail first happens ih => exact happens.closed (Nat.lt_of_lt_of_le there (size_le first)) ih

/-- What can be read in the end could be read before. -/
theorem readable (becomes : f.Becomes g) (valid : f.Valid) (there : v < f.views.size)
    (readable : g.Readable v) : f.Readable v := by
  intro u hu
  have old : u < f.views.size := Nat.lt_of_le_of_lt (valid.le_of_mem_line hu) there
  have opened : (g.view u).closed = false := by
    apply readable
    rwa [becomes.line_eq there]
  cases was : (f.view u).closed with
  | false => rfl
  | true =>
    rw [becomes.closed old was] at opened
    cases opened

end Becomes

end ScaleAdvisor.Forest
