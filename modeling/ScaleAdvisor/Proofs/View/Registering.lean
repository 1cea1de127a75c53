import ScaleAdvisor.Proofs.View.Closing
import ScaleAdvisor.View.Registry

/-!
Sandboxes by name. Whoever asks a registry for a name gets an open sandbox over the very view asked
for, the one in use if it will do. No sandbox that has ever been handed out is lost sight of: it
stands under its name, or is closed, or has been let go of to stay open.

* `lasts_move`: a view keeps its name, and once closed it stays so, whatever happens to views;
* `sandboxOver_cases`, `sandboxOver_answers`: what is handed out;
* `Tended.next`: one errand leaves no sandbox unaccounted for;
* `sandboxes_tended`: nor does any row of them.
-/

namespace ScaleAdvisor

namespace Forest

variable {f g : Forest} {v : ViewId}

/-- The views that were there have their names still, and those that were closed are. -/
structure Lasts (f g : Forest) : Prop where
  size : f.views.size ≤ g.views.size
  name : ∀ {u : ViewId}, u < f.views.size → g.name u = f.name u
  closed : ∀ {u : ViewId}, u < f.views.size → f.isClosed u = true → g.isClosed u = true

namespace Lasts

theorem refl (f : Forest) : Lasts f f := ⟨Nat.le_refl _, fun _ => rfl, fun _ => id⟩

theorem trans {h : Forest} (first : Lasts f g) (second : Lasts g h) : Lasts f h where
  size := Nat.le_trans first.size second.size
  name there := (second.name (Nat.lt_of_lt_of_le there first.size)).trans (first.name there)
  closed there was := second.closed (Nat.lt_of_lt_of_le there first.size) (first.closed there was)

theorem of_keeps (keeps : Keeps f.views.size f g) : Lasts f g where
  size := keeps.size
  name there := by rw [Forest.name, Forest.name, keeps.same there]
  closed there was := by rwa [isClosed, keeps.same there]

end Lasts

theorem Deed.name_eq {clearing : Bool} (deed : Deed v clearing f g) (u : ViewId) :
    g.name u = f.name u := by
  by_cases same : u = v
  · subst same
    cases deed with
    | write kind key object there => rw [name, name, view_commit there]
    | note event there | clear there => rw [name, name, view_modify_self there]
    | close =>
      rw [name, name, Forest.close]
      rcases view_modify f u u _ with same | changed
      · rw [same]
      · rw [changed]
  · rw [name, name, deed.confined.elsewhere same]

theorem Deed.lasts {clearing : Bool} (deed : Deed v clearing f g) : Lasts f g where
  size := Nat.le_of_eq deed.confined.size.symm
  name {u} _ := deed.name_eq u
  closed there was := (Happens.deed deed).closed there was

theorem Deeds.lasts {clearing : Bool} (deeds : Deeds v clearing f g) : Lasts f g := by
  induction deeds with
  | refl => exact .refl f
  | tail _ deed ih => exact ih.trans deed.lasts

theorem lasts_move (f : Forest) (m : Move) : Lasts f (f.move m) := by
  cases m with
  | base name => exact .of_keeps (keeps_newBase f name)
  | sandbox name below =>
    rw [move]
    split
    · exact .of_keeps (keeps_sandbox f name below)
    · exact .refl f
  | ask v op => exact (deeds_perform f v op).lasts

end Forest

namespace Registry

open Forest

variable {r : Registry} {f : Forest} {name : String} {base v : ViewId}

/-- Closing the sandbox of a name closes that one at most. -/
theorem lasts_closeNamed (r : Registry) (f : Forest) (name : String) :
    Lasts f (r.closeNamed f name) ∧ (r.closeNamed f name).views.size = f.views.size := by
  rw [closeNamed]
  split
  · exact ⟨Deed.close.lasts, Deed.close.confined.size⟩
  · exact ⟨.refl f, rfl⟩

theorem closed_closeNamed (found : r.sandboxes.get? name = some v) :
    (r.closeNamed f name).isClosed v = true := by
  rw [closeNamed, found]
  exact closed_close f v

/-- The sandbox in use is handed out if it is open and laid over the view asked for; otherwise it is
closed and a new one takes its name. -/
theorem sandboxOver_cases (r : Registry) (f : Forest) (name : String) (base : ViewId) :
    (∃ v, r.sandboxes.get? name = some v ∧ f.delegate? v = some base ∧ f.isClosed v = false ∧
      r.sandboxOver f name base = (f, r, v)) ∨
    ((∀ v, r.sandboxes.get? name = some v → f.delegate? v = some base → f.isClosed v = true) ∧
      r.sandboxOver f name base = (((r.closeNamed f name).sandbox name base).1,
        { r with sandboxes := r.sandboxes.insert name f.views.size }, f.views.size)) := by
  cases usable : r.reusable? f name base with
  | some v =>
    obtain ⟨found, fit⟩ := Option.filter_eq_some_iff.mp usable
    simp only [Bool.and_eq_true, beq_iff_eq, Bool.not_eq_true'] at fit
    exact .inl ⟨v, found, fit.1, fit.2, by rw [sandboxOver, usable]⟩
  | none =>
    refine .inr ⟨?_, ?_⟩
    · intro v found laid
      rw [reusable?, found, Option.filter_eq_none_iff] at usable
      simpa [laid] using usable v rfl
    · rw [sandboxOver, usable]
      simp only [Forest.sandbox, (lasts_closeNamed r f name).2]

theorem view_sandboxOver (new : v = f.views.size) :
    ((r.closeNamed f name).sandbox name base).1.view v =
      { name, below := (r.closeNamed f name).line base,
        lineage := ((r.closeNamed f name).view base).lineage } := by
  rw [new, ← (lasts_closeNamed r f name).2, view_sandbox]

/-- Whoever asks gets an open sandbox over the view asked for, which stands under the name from then
on. It is one of the views that were there just when that one stood under the name, open and laid
over the view asked for; and then nothing else happens. -/
theorem sandboxOver_answers (r : Registry) (f : Forest) (name : String) (base : ViewId)
    (registered : ∀ u, r.sandboxes.get? name = some u → f.name u = name) :
    ∃ g r' v, r.sandboxOver f name base = (g, r', v) ∧ g.isClosed v = false ∧
      g.delegate? v = some base ∧ g.name v = name ∧ r'.sandboxes.get? name = some v ∧
      ∀ u < f.views.size, (v = u ↔ r.sandboxes.get? name = some u ∧ f.isClosed u = false ∧
        f.delegate? u = some base) ∧ (v = u → g = f ∧ r' = r) := by
  obtain ⟨v, found, laid, opened, answer⟩ | ⟨unfit, answer⟩ := sandboxOver_cases r f name base
  · refine ⟨f, r, v, answer, opened, laid, registered v found, found,
      fun u _ => ⟨?_, fun _ => ⟨rfl, rfl⟩⟩⟩
    constructor
    · rintro rfl
      exact ⟨found, opened, laid⟩
    · rintro ⟨found', -, -⟩
      exact Option.some.inj (found.symm.trans found')
  · refine ⟨_, _, _, answer, ?_, ?_, ?_, SortedMap.get?_insert_self _ _ _, fun u there => ⟨?_, ?_⟩⟩
    · rw [isClosed, view_sandboxOver rfl]
    · rw [delegate?, view_sandboxOver rfl]
      rfl
    · rw [Forest.name, view_sandboxOver rfl]
    · constructor
      · rintro rfl
        exact absurd there (Nat.lt_irrefl _)
      · rintro ⟨found, opened, laid⟩
        rw [unfit u found laid] at opened
        cases opened
    · rintro rfl
      exact absurd there (Nat.lt_irrefl _)

end Registry

/-- What is asked of a registry, or happens to views meanwhile. -/
inductive Errand where
  | take (name : String) (base : ViewId)
  | release (name : String) (keepOpen : Bool)
  | meanwhile (m : Move)

/-- A registry and the views that it is about. -/
structure Depot where
  forest : Forest
  registry : Registry

namespace Depot

open Forest

/-- Nothing has been handed out yet. -/
def opened (f : Forest) (base : ViewId) : Depot := ⟨f, { base }⟩

/-- A sandbox is asked for only over a view that is there. -/
def next (d : Depot) : Errand → Depot
  | .take name base =>
    if base < d.forest.views.size then
      let (f, r, _) := d.registry.sandboxOver d.forest name base
      ⟨f, r⟩
    else d
  | .release name keepOpen =>
    let (f, r) := d.registry.release d.forest name keepOpen
    ⟨f, r⟩
  | .meanwhile m => { d with forest := d.forest.move m }

/-- The sandbox that an errand hands out. -/
def handed (d : Depot) : Errand → List ViewId
  | .take name base =>
    if base < d.forest.views.size then [(d.registry.sandboxOver d.forest name base).2.2] else []
  | .release _ _ => []
  | .meanwhile _ => []

/-- The sandbox that an errand lets go of, to stay open. -/
def freed (d : Depot) : Errand → List ViewId
  | .take _ _ => []
  | .release name keepOpen => if keepOpen then (d.registry.sandboxes.get? name).toList else []
  | .meanwhile _ => []

def after (d : Depot) (errands : List Errand) : Depot := errands.foldl next d

/-- Every sandbox that some errands hand out. -/
def handedOut (d : Depot) : List Errand → List ViewId
  | [] => []
  | e :: rest => d.handed e ++ (d.next e).handedOut rest

/-- Every sandbox that some errands let go of, to stay open. -/
def letGo (d : Depot) : List Errand → List ViewId
  | [] => []
  | e :: rest => d.freed e ++ (d.next e).letGo rest

/-- What is registered has been handed out and bears the name that it stands under. Whatever has
been handed out stands under its name, or is closed, or has been let go of. -/
structure Tended (d : Depot) (handedOut letGo : List ViewId) : Prop where
  registered : ∀ {name v}, d.registry.sandboxes.get? name = some v →
    v ∈ handedOut ∧ d.forest.name v = name
  there : ∀ v ∈ handedOut, v < d.forest.views.size
  known : ∀ v ∈ handedOut, d.registry.sandboxes.get? (d.forest.name v) = some v ∨
    d.forest.isClosed v = true ∨ v ∈ letGo

namespace Tended

variable {d : Depot} {out free : List ViewId} {name : String} {base : ViewId}

theorem opened (f : Forest) (base : ViewId) : Tended (Depot.opened f base) [] [] where
  registered {name v} found := by simp [Depot.opened] at found
  there := by simp
  known := by simp

section Lasting

variable {f : Forest}

theorem registered_of_lasts (tended : Tended d out free) (lasts : Lasts d.forest f) {v : ViewId}
    (found : d.registry.sandboxes.get? name = some v) : v ∈ out ∧ f.name v = name := by
  obtain ⟨handed, bears⟩ := tended.registered found
  exact ⟨handed, (lasts.name (tended.there v handed)).trans bears⟩

theorem there_of_lasts (tended : Tended d out free) (lasts : Lasts d.forest f) :
    ∀ v ∈ out, v < f.views.size :=
  fun v hv => Nat.lt_of_lt_of_le (tended.there v hv) lasts.size

/-- A name is given up: what stands under it is closed or let go of. -/
theorem forget (tended : Tended d out free) {free' : List ViewId} (lasts : Lasts d.forest f)
    (more : ∀ v ∈ free, v ∈ free')
    (dealt : ∀ v, d.registry.sandboxes.get? name = some v → f.isClosed v = true ∨ v ∈ free') :
    ∀ v ∈ out, (f.name v ≠ name ∧ d.registry.sandboxes.get? (f.name v) = some v) ∨
      f.isClosed v = true ∨ v ∈ free' := by
  intro v hv
  have there := tended.there v hv
  rw [lasts.name there]
  rcases tended.known v hv with found | closed | gone
  · by_cases same : d.forest.name v = name
    · exact .inr (dealt v (same ▸ found))
    · exact .inl ⟨same, found⟩
  · exact .inr (.inl (lasts.closed there closed))
  · exact .inr (.inr (more v gone))

end Lasting

/-- A sandbox that is in use already is handed out once more. -/
theorem take_again (tended : Tended d out free) {v : ViewId}
    (found : d.registry.sandboxes.get? name = some v) : Tended d (out ++ [v]) free where
  registered found' := (tended.registered found').imp_left (List.mem_append_left _)
  there := by
    rw [List.forall_mem_append, List.forall_mem_singleton]
    exact ⟨tended.there, tended.there v (tended.registered found).1⟩
  known := by
    rw [List.forall_mem_append, List.forall_mem_singleton]
    exact ⟨tended.known, .inl (by rw [(tended.registered found).2, found])⟩

/-- A new sandbox takes the name; the one that had it is closed. -/
theorem take_new (tended : Tended d out free) (name : String) (base : ViewId) :
    Tended ⟨((d.registry.closeNamed d.forest name).sandbox name base).1,
      { d.registry with
        sandboxes := d.registry.sandboxes.insert name d.forest.views.size }⟩
      (out ++ [d.forest.views.size]) free := by
  obtain ⟨closes, size⟩ := d.registry.lasts_closeNamed d.forest name
  have adds := Lasts.of_keeps (keeps_sandbox (d.registry.closeNamed d.forest name) name base)
  have lasts := closes.trans adds
  have grown := grown_sandbox (d.registry.closeNamed d.forest name) name base
  have named :
    ((d.registry.closeNamed d.forest name).sandbox name base).1.name d.forest.views.size =
      name := by
    rw [Forest.name, Registry.view_sandboxOver rfl]
  constructor
  case registered =>
    intro other v found
    rw [SortedMap.get?_insert] at found
    split at found
    · rename_i same
      obtain rfl := Option.some.inj found
      exact ⟨by simp, named.trans (KeyOrder.same_iff.mp same).symm⟩
    · exact (tended.registered_of_lasts lasts found).imp_left (List.mem_append_left _)
  case there =>
    rw [List.forall_mem_append, List.forall_mem_singleton]
    refine ⟨tended.there_of_lasts lasts, ?_⟩
    rw [grown.size, size]
    exact Nat.lt_succ_self _
  case known =>
    rw [List.forall_mem_append, List.forall_mem_singleton]
    refine ⟨fun v hv => ?_, .inl (by rw [named, SortedMap.get?_insert_self])⟩
    -- What had the name has just been closed, and adding a view opens nothing.
    have dealt (u : ViewId) (found : d.registry.sandboxes.get? name = some u) :
        ((d.registry.closeNamed d.forest name).sandbox name base).1.isClosed u = true ∨
          u ∈ free := by
      refine .inl (adds.closed ?_ (Registry.closed_closeNamed found))
      rw [size]
      exact tended.there u (tended.registered found).1
    refine (tended.forget lasts (fun _ => id) dealt v hv).imp_left fun kept => ?_
    rw [SortedMap.get?_insert_of_ne _ _ kept.1, kept.2]

/-- A name is released, and its sandbox is closed or let go of. -/
theorem release (tended : Tended d out free) (name : String) (keepOpen : Bool) :
    Tended (d.next (.release name keepOpen)) out (free ++ d.freed (.release name keepOpen)) := by
  have erased {other : String} :
      (d.next (.release name keepOpen)).registry.sandboxes.get? other =
        if KeyOrder.same other name then none else d.registry.sandboxes.get? other :=
    SortedMap.get?_erase _ _ _
  have lasts : Lasts d.forest (d.next (.release name keepOpen)).forest := by
    cases keepOpen with
    | true => exact .refl _
    | false => exact (d.registry.lasts_closeNamed d.forest name).1
  have dealt (v : ViewId) (found : d.registry.sandboxes.get? name = some v) :
      (d.next (.release name keepOpen)).forest.isClosed v = true ∨
        v ∈ free ++ d.freed (.release name keepOpen) := by
    cases keepOpen with
    | true => exact .inr (by simp [freed, found])
    | false => exact .inl (Registry.closed_closeNamed found)
  constructor
  case registered =>
    intro other v found
    rw [erased] at found
    split at found
    · cases found
    · exact tended.registered_of_lasts lasts found
  case there => exact tended.there_of_lasts lasts
  case known =>
    intro v hv
    refine (tended.forget lasts (fun _ => List.mem_append_left _) dealt v hv).imp_left fun kept =>
      ?_
    rw [erased, if_neg (by simpa using kept.1), kept.2]

/-- Whatever else happens leaves the names where they are. -/
theorem meanwhile (tended : Tended d out free) (m : Move) :
    Tended { d with forest := d.forest.move m } out free where
  registered found := tended.registered_of_lasts (lasts_move d.forest m) found
  there := tended.there_of_lasts (lasts_move d.forest m)
  known v hv := by
    have lasts := lasts_move d.forest m
    rw [lasts.name (tended.there v hv)]
    exact (tended.known v hv).imp_right (Or.imp_left (lasts.closed (tended.there v hv)))

/-- One errand leaves no sandbox unaccounted for. -/
theorem next (tended : Tended d out free) (e : Errand) :
    Tended (d.next e) (out ++ d.handed e) (free ++ d.freed e) := by
  cases e with
  | take name base =>
    rw [Depot.next, handed, freed, List.append_nil]
    split
    · obtain ⟨v, found, -, -, answer⟩ | ⟨-, answer⟩ :=
        d.registry.sandboxOver_cases d.forest name base
      · rw [answer]
        exact tended.take_again found
      · rw [answer]
        exact tended.take_new name base
    · rwa [List.append_nil]
  | release name keepOpen =>
    rw [handed, List.append_nil]
    exact tended.release name keepOpen
  | meanwhile m =>
    rw [handed, freed, List.append_nil, List.append_nil]
    exact tended.meanwhile m

theorem after (tended : Tended d out free) (errands : List Errand) :
    Tended (d.after errands) (out ++ d.handedOut errands) (free ++ d.letGo errands) := by
  induction errands generalizing d out free with
  | nil => rwa [handedOut, letGo, List.append_nil, List.append_nil]
  | cons e rest ih =>
    rw [handedOut, letGo, ← List.append_assoc, ← List.append_assoc]
    exact ih (tended.next e)

end Tended

/-- A registry after any errands, whatever has happened to views before and meanwhile. Every entry
holds a view that has been handed out and bears the name. Whoever asks gets an open sandbox over the
very view asked for, and it stands under the name; it is a view that was there just when that one
stood under the name, open and laid over the same view. Every sandbox that has ever been handed out
stands under its name, or is closed, or has been let go of to stay open; so of two open ones with
one name, one has been let go of. -/
theorem sandboxes_tended (past : List Move) (base : ViewId) (errands : List Errand) :
    let start := Depot.opened (Forest.replay ∅ past) base
    let d := start.after errands
    (∀ name v, d.registry.sandboxes.get? name = some v →
      v ∈ start.handedOut errands ∧ d.forest.name v = name) ∧
    (∀ name asked, asked < d.forest.views.size →
      ∃ g r v, d.registry.sandboxOver d.forest name asked = (g, r, v) ∧ g.isClosed v = false ∧
        g.delegate? v = some asked ∧ g.name v = name ∧ r.sandboxes.get? name = some v ∧
        ∀ u < d.forest.views.size, (v = u ↔ d.registry.sandboxes.get? name = some u ∧
          d.forest.isClosed u = false ∧ d.forest.delegate? u = some asked) ∧
          (v = u → g = d.forest ∧ r = d.registry)) ∧
    (∀ v ∈ start.handedOut errands, d.registry.sandboxes.get? (d.forest.name v) = some v ∨
      d.forest.isClosed v = true ∨ v ∈ start.letGo errands) ∧
    ∀ u ∈ start.handedOut errands, ∀ v ∈ start.handedOut errands, u ≠ v →
      d.forest.name u = d.forest.name v → d.forest.isClosed u = false →
        d.forest.isClosed v = false →
      u ∈ start.letGo errands ∨ v ∈ start.letGo errands := by
  intro start d
  have tended : Tended d (start.handedOut errands) (start.letGo errands) :=
    (Tended.opened (Forest.replay ∅ past) base).after errands
  refine ⟨fun name v found => tended.registered found, ?_, tended.known, ?_⟩
  · intro name asked _
    exact d.registry.sandboxOver_answers d.forest name asked fun u found =>
      (tended.registered found).2
  · intro u hu v hv apart same openU openV
    have known {w : ViewId} (hw : w ∈ start.handedOut errands)
      (opened : d.forest.isClosed w = false) :
        d.registry.sandboxes.get? (d.forest.name w) = some w ∨ w ∈ start.letGo errands := by
      refine (tended.known w hw).imp_right fun rest => rest.resolve_left ?_
      simp [opened]
    rcases known hu openU with foundU | gone
    · rcases known hv openV with foundV | gone
      · rw [same] at foundU
        exact absurd (Option.some.inj (foundU.symm.trans foundV)) apart
      · exact .inr gone
    · exact .inl gone

/-- One base, of which no sandbox has been asked for. -/
def besideBase : Depot := opened (Forest.replay ∅ [.base "base"]) 0

/-- A sandbox is handed out twice and then let go of; another one takes its name and is closed, and
a third one comes after it. -/
def threeOfOneName : List Errand :=
  [.take "sim" 0, .take "sim" 0, .release "sim" true, .take "sim" 0, .meanwhile (.ask 2 .close),
    .take "sim" 0]

theorem sandboxes_tended_threeOfOneName :
    besideBase.handedOut threeOfOneName = [1, 1, 2, 3] ∧ besideBase.letGo threeOfOneName = [1] ∧
      (besideBase.after threeOfOneName).forest.isClosed 2 = true ∧
      0 < (besideBase.after threeOfOneName).forest.views.size ∧
      ((besideBase.after threeOfOneName).registry.sandboxOver
        (besideBase.after threeOfOneName).forest "sim" 0).2.2 = 3 ∧
      (1 ∈ besideBase.letGo threeOfOneName ∨ 3 ∈ besideBase.letGo threeOfOneName) := by
  have there : 0 < (besideBase.after threeOfOneName).forest.views.size := by decide +kernel
  obtain ⟨-, answers, -, shared⟩ := sandboxes_tended [.base "base"] 0 threeOfOneName
  obtain ⟨g, r, v, answer, -, -, -, -, earlier⟩ := answers "sim" 0 there
  have again : v = 3 := (earlier 3 (by decide +kernel)).1.mpr (by decide +kernel)
  refine ⟨by decide +kernel, by decide +kernel, by decide +kernel, there, ?_, ?_⟩
  · exact (congrArg (·.2.2) answer).trans again
  · exact shared 1 (by decide +kernel) 3 (by decide +kernel) (by decide) (by decide +kernel)
      (by decide +kernel) (by decide +kernel)

end Depot

end ScaleAdvisor
