/-!
Taints keep workloads off a node; a toleration lets a workload pass some of them.
-/

namespace ScaleAdvisor

inductive TaintEffect where
  | noSchedule
  | preferNoSchedule
  | noExecute
  deriving DecidableEq, Repr

structure Taint where
  key : String
  value : String := ""
  effect : TaintEffect
  deriving DecidableEq, Repr

inductive TolerationOperator where
  /-- Key and value have to agree. -/
  | equal
  /-- The key has to agree; an empty key agrees with all. -/
  | existence
  deriving DecidableEq, Repr

structure Toleration where
  key : String := ""
  operator : TolerationOperator := .equal
  value : String := ""
  /-- Limits the toleration to one effect. -/
  effect : Option TaintEffect := none
  deriving DecidableEq, Repr

def Toleration.tolerates (t : Toleration) (taint : Taint) : Bool :=
  (t.effect.all (· == taint.effect)) &&
    match t.operator with
    | .existence => t.key.isEmpty || t.key == taint.key
    | .equal => t.key == taint.key && t.value == taint.value

end ScaleAdvisor
