import ScaleAdvisor.View.Forest

/-!
What a scheduler may do with its view. A program is a sequence of calls, each chosen from the
answers so far; it can run in one go, or one call at a time between the steps of others.
-/

namespace ScaleAdvisor

/-- One call on a view. -/
inductive Call where
  | nodes
  | workloads
  | priorityClasses
  | runtimeClasses
  | bind (k : WorkloadKey) (node : String)
  | record (reason : EventReason) (k : WorkloadKey) (node : Option String) (message : String)

namespace Call

/-- What comes back. -/
@[reducible]
def Answer : Call → Type
  | .nodes => Except ViewError (List Node)
  | .workloads => Except ViewError (List Workload)
  | .priorityClasses => Except ViewError (List PriorityClass)
  | .runtimeClasses => Except ViewError (List RuntimeClass)
  | .bind _ _ => Except ViewError Nat
  | .record _ _ _ _ => Except ViewError Nat

/-- A write that fails leaves everything as it was. -/
def settle (f : Forest) : Except ViewError (Forest × Nat) → Forest × Except ViewError Nat
  | .ok (next, n) => (next, .ok n)
  | .error e => (f, .error e)

def perform (f : Forest) (v : ViewId) : (c : Call) → Forest × c.Answer
  | .nodes => (f, f.nodes v)
  | .workloads => (f, f.workloads v)
  | .priorityClasses => (f, f.priorityClasses v)
  | .runtimeClasses => (f, f.runtimeClasses v)
  | .bind k node => settle f (f.bind v k node)
  | .record reason k node message => settle f (f.recordEvent v reason k node message)

end Call

/-- A sequence of calls that ends with a value. -/
inductive Program (α : Type) where
  | done (a : α)
  | call (c : Call) (next : c.Answer → Program α)

namespace Program

variable {α β : Type}

def bind : Program α → (α → Program β) → Program β
  | .done a, k => k a
  | .call c next, k => .call c fun answer => (next answer).bind k

instance : Monad Program where
  pure := .done
  bind := bind

/-- Make one call. -/
def ask (c : Call) : Program c.Answer := .call c .done

/-- Make every call on one view, with nothing in between. -/
def run (f : Forest) (v : ViewId) : Program α → Forest × α
  | .done a => (f, a)
  | .call c next =>
    let (f', answer) := c.perform f v
    run f' v (next answer)

end Program

namespace Client

/-- The text of the event that reports a binding. -/
def assignedMessage (k : WorkloadKey) (node : String) : String :=
  "successfully assigned " ++ k.text ++ " to " ++ node

/-- Bind a workload, then report it. -/
def bind (k : WorkloadKey) (node : String) : Program (Except ViewError Nat) :=
  .call (.bind k node) fun
    | .error e => .done (.error e)
    | .ok version =>
      .call (.record .scheduled k (some node) (assignedMessage k node)) fun
        | .error e => .done (.error e)
        | .ok _ => .done (.ok version)

/-- Report that a workload fits nowhere. -/
def reportUnschedulable (k : WorkloadKey) (message : String) : Program (Except ViewError Nat) :=
  .ask (.record .failedScheduling k none message)

end Client

end ScaleAdvisor
