import ScaleAdvisor.Cluster.Object
import ScaleAdvisor.Text.Quoted

/-!
Views of a cluster. A base view holds objects of its own; a sandbox is a view laid over another one,
where it reads through what it has not edited. Views live in a forest and are named by their place
in it. All views over one base form a lineage and draw their versions from one counter.

* `readThrough` finds one object, from the nearest view downwards;
* `contentsOf` is the map that a view stands for.
-/

namespace ScaleAdvisor

/-- Why an operation on a view fails. -/
inductive ViewError where
  | alreadyExists (view : String) (key : ObjectKey)
  | notFound (view : String) (key : ObjectKey)
  | alreadyBound (workload node : String)
  | closed (view : String)
  deriving DecidableEq, Repr

def ViewError.message : ViewError → String
  | .alreadyExists view key => key.kind.text ++ " " ++ key.name ++
      " already exists in view " ++ view
  | .notFound view key => key.kind.text ++ " " ++ key.name ++ " not found in view " ++ view
  | .alreadyBound workload node => "workload " ++ workload ++ " is already bound to node " ++ node
  | .closed view => "view is closed: " ++ view

/-- An object and the version that its last write took. -/
structure Stored where
  object : ClusterObject
  version : Nat
  deriving DecidableEq

inductive ChangeKind where
  | added
  | modified
  | deleted
  deriving DecidableEq, Repr

/-- What a watcher of a view is told about one write. -/
structure Change where
  kind : ChangeKind
  key : ObjectKey
  version : Nat
  deriving DecidableEq, Repr

inductive EventReason where
  | scheduled
  | failedScheduling
  deriving DecidableEq, Repr

/-- One line of a view's event log. -/
structure ViewEvent where
  sequence : Nat
  reason : EventReason
  workload : WorkloadKey
  nodeName : Option String
  message : String
  /-- The last version of the lineage when the event was recorded. -/
  resourceVersion : Nat
  deriving DecidableEq

/-- The place of a view in its forest. -/
abbrev ViewId := Nat

structure View where
  name : String
  /-- The views it is laid over, nearest first; none for a base. -/
  below : List ViewId := []
  /-- Which counter its writes draw their versions from. -/
  lineage : Nat
  /-- Local writes: an object in place, or `none` where an object has been taken away. -/
  edits : SortedMap ObjectKey (Option Stored) := ∅
  events : Array ViewEvent := #[]
  /-- Every change ever sent to the watchers of this view. -/
  changes : Array Change := #[]
  closed : Bool := false

namespace View

/-- Stands in for a view that the forest does not have. -/
def missing : View := { name := "", lineage := 0, closed := true }

/-- The first object found going down a stack of views. A closed view reads as an empty one. -/
def readThrough (k : ObjectKey) : List View → Option Stored
  | [] => none
  | v :: below =>
    if v.closed then none
    else
      match v.edits.get? k with
      | some entry => entry
      | none => readThrough k below

/-- The contents of a stack of views: the edits of each laid over what is below. -/
def contentsOf : List View → SortedMap ObjectKey Stored
  | [] => ∅
  | v :: below => (contentsOf below).patch v.edits

end View

/-- All views, and for each lineage the last version handed out. -/
structure Forest where
  views : Array View := #[]
  issued : Array Nat := #[]

namespace Forest

def empty : Forest := {}

instance : EmptyCollection Forest := ⟨empty⟩

instance : Inhabited Forest := ⟨empty⟩

def view (f : Forest) (v : ViewId) : View := (f.views[v]?).getD .missing

/-- The view and those it is laid over, nearest first. -/
def stack (f : Forest) (v : ViewId) : List View := f.view v :: (f.view v).below.map f.view

def name (f : Forest) (v : ViewId) : String := (f.view v).name

/-- The view directly below. -/
def delegate? (f : Forest) (v : ViewId) : Option ViewId := (f.view v).below.head?

/-- How a view is shown in logs. -/
def describe (f : Forest) (v : ViewId) : String :=
  let delegate := match f.delegate? v with
    | some below => "Some(" ++ Text.quoted (f.name below) ++ ")"
    | none => "None"
  "View \x7b name: " ++ Text.quoted (f.name v) ++ ", delegate: " ++ delegate ++ " \x7d"

def isClosed (f : Forest) (v : ViewId) : Bool := (f.view v).closed

/-- The last version of a view's lineage. -/
def version (f : Forest) (v : ViewId) : Nat := (f.issued[(f.view v).lineage]?).getD 0

def find? (f : Forest) (v : ViewId) (k : ObjectKey) : Option Stored :=
  View.readThrough k (f.stack v)

def contents (f : Forest) (v : ViewId) : SortedMap ObjectKey Stored := View.contentsOf (f.stack v)

/-- Fails on a closed view; the views below are not looked at. -/
def whileOpen {α : Type} (f : Forest) (v : ViewId) (a : α) : Except ViewError α :=
  if f.isClosed v then .error (.closed (f.name v)) else .ok a

def get (f : Forest) (v : ViewId) (k : ObjectKey) : Except ViewError (Option Stored) :=
  f.whileOpen v (f.find? v k)

/-- The objects of one kind in ascending key order. Fails when the view, or one that it is laid
over, is closed. -/
def list (f : Forest) (v : ViewId) (kind : ObjectKind) :
    Except ViewError (List (ObjectKey × Stored)) :=
  match (f.stack v).find? (·.closed) with
  | some closed => .error (.closed closed.name)
  | none => .ok ((f.contents v).entries.filter fun e => e.1.kind == kind)

def objects {α : Type} (f : Forest) (v : ViewId) (kind : ObjectKind)
    (select : ClusterObject → Option α) : Except ViewError (List α) :=
  (f.list v kind).map fun entries => entries.filterMap fun e => select e.2.object

def nodes (f : Forest) (v : ViewId) : Except ViewError (List Node) :=
  f.objects v .node ClusterObject.node?

def workloads (f : Forest) (v : ViewId) : Except ViewError (List Workload) :=
  f.objects v .workload ClusterObject.workload?

def priorityClasses (f : Forest) (v : ViewId) : Except ViewError (List PriorityClass) :=
  f.objects v .priorityClass ClusterObject.priorityClass?

def runtimeClasses (f : Forest) (v : ViewId) : Except ViewError (List RuntimeClass) :=
  f.objects v .runtimeClass ClusterObject.runtimeClass?

def pending (f : Forest) (v : ViewId) : Except ViewError (List Workload) :=
  (f.workloads v).map fun ws => ws.filter (·.isPending)

def workload (f : Forest) (v : ViewId) (k : WorkloadKey) : Except ViewError (Option Workload) :=
  (f.get v k.objectKey).map fun found => found.bind (·.object.workload?)

/-- The events from a position of the log on. -/
def eventsFrom (f : Forest) (v : ViewId) (cursor : Nat) : Except ViewError (List ViewEvent) :=
  f.whileOpen v ((f.view v).events.toList.drop cursor)

/-- Add a view that holds nothing and has a lineage of its own. -/
def newBase (f : Forest) (name : String) : Forest × ViewId :=
  ({ views := f.views.push { name, lineage := f.issued.size }, issued := f.issued.push 0 },
    f.views.size)

/-- Lay a view over another. -/
def sandbox (f : Forest) (name : String) (base : ViewId) : Forest × ViewId :=
  let lower := f.view base
  ({ f with views :=
    f.views.push { name, below := base :: lower.below, lineage := lower.lineage } }, f.views.size)

def modify (f : Forest) (v : ViewId) (change : View → View) : Forest :=
  { f with views := f.views.modify v change }

/-- Write one key: take the next version of the lineage, keep the entry, tell the watchers. -/
def commit (f : Forest) (v : ViewId) (kind : ChangeKind) (key : ObjectKey)
    (object : Option ClusterObject) : Forest × Nat :=
  let lineage := (f.view v).lineage
  let version := f.version v + 1
  let written := f.modify v fun view =>
    { view with
      edits := view.edits.insert key (object.map fun o => ⟨o, version⟩)
      changes := view.changes.push ⟨kind, key, version⟩ }
  ({ written with issued := written.issued.setIfInBounds lineage version }, version)

/-- Add an object under a key that is free. -/
def create (f : Forest) (v : ViewId) (o : ClusterObject) : Except ViewError (Forest × Nat) := do
  match ← f.get v o.key with
  | some _ => .error (.alreadyExists (f.name v) o.key)
  | none => .ok (f.commit v .added o.key (some o))

/-- Replace the object under a key that is taken. -/
def update (f : Forest) (v : ViewId) (o : ClusterObject) : Except ViewError (Forest × Nat) := do
  match ← f.get v o.key with
  | none => .error (.notFound (f.name v) o.key)
  | some _ => .ok (f.commit v .modified o.key (some o))

def delete (f : Forest) (v : ViewId) (k : ObjectKey) : Except ViewError (Forest × Nat) := do
  match ← f.get v k with
  | none => .error (.notFound (f.name v) k)
  | some _ => .ok (f.commit v .deleted k none)

/-- Bind a pending workload to a node of the view. -/
def bind (f : Forest) (v : ViewId) (k : WorkloadKey) (node : String) :
    Except ViewError (Forest × Nat) := do
  match ← f.workload v k with
  | none => .error (.notFound (f.name v) k.objectKey)
  | some w =>
    match w.nodeName with
    | some bound =>
      if !bound.isEmpty then .error (.alreadyBound k.text bound)
      else bindPending w
    | none => bindPending w
where
  bindPending (w : Workload) : Except ViewError (Forest × Nat) := do
    match ← f.get v ⟨.node, node⟩ with
    | none => .error (.notFound (f.name v) ⟨.node, node⟩)
    | some _ => f.update v (.workload (w.bindTo node))

/-- Load objects one by one; the first failure ends the loading and keeps what came before it. -/
def load (f : Forest) (v : ViewId) : List ClusterObject → Forest × Except ViewError Unit
  | [] => (f, .ok ())
  | o :: rest =>
    match f.create v o with
    | .ok (next, _) => next.load v rest
    | .error e => (f, .error e)

def loadSnapshot (f : Forest) (v : ViewId) (s : Snapshot) : Forest × Except ViewError Unit :=
  f.load v s.objects

/-- Append to the view's event log. -/
def recordEvent (f : Forest) (v : ViewId) (reason : EventReason) (k : WorkloadKey)
    (node : Option String) (message : String) : Except ViewError (Forest × Nat) := do
  let sequence := (f.view v).events.size
  let event : ViewEvent := ⟨sequence, reason, k, node, message, f.version v⟩
  f.whileOpen v (f.modify v fun view => { view with events := view.events.push event }, sequence)

/-- Forget all local writes and events. Watchers are not told. -/
def reset (f : Forest) (v : ViewId) : Except ViewError Forest :=
  f.whileOpen v (f.modify v fun view => { view with edits := ∅, events := #[] })

/-- Close a view for good and drop what it holds. -/
def close (f : Forest) (v : ViewId) : Forest :=
  f.modify v fun view => { view with edits := ∅, events := #[], closed := true }

end Forest

end ScaleAdvisor
