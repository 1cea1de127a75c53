import ScaleAdvisor.Proofs.Wire.Faithful
import ScaleAdvisor.Wire.Advice

/-!
The JSON form keeps every record. A record is in range when its numbers fit the machine integers
that carry them: priorities 32 bits, counts and versions without a sign; amounts always do. Such a
record is read back from what is written of it, and only such a record is ever read. So a text
written by hand, with fields left out, with nulls and with fields that nobody knows, settles after
one reading: writing that and reading again changes nothing.

* `faithful_node`, `faithful_workload` and the others: one lemma for each record, from those of its
  fields;
* `faithful_object`: an object whose kind stands among its own fields;
* `records_survive`: all of them together.
-/

namespace ScaleAdvisor

open Json

/-- A whole number of 32 bits. -/
def IsInt32 (n : Int) : Prop := -(twoTo 31 : Int) ≤ n ∧ n ≤ twoTo 31 - 1

instance (n : Int) : Decidable (IsInt32 n) := inferInstanceAs (Decidable (_ ∧ _))

def Workload.InRange (w : Workload) : Prop := ∀ p ∈ w.priority, IsInt32 p

def PriorityClass.InRange (c : PriorityClass) : Prop := IsInt32 c.value

def ClusterObject.InRange : ClusterObject → Prop
  | .workload w => w.InRange
  | .priorityClass c => c.InRange
  | .node _ | .runtimeClass _ => True

structure Snapshot.InRange (s : Snapshot) : Prop where
  workloads : ∀ w ∈ s.workloads, w.InRange
  priorityClasses : ∀ c ∈ s.priorityClasses, c.InRange

structure ViewEvent.InRange (e : ViewEvent) : Prop where
  sequence : e.sequence < twoTo 64
  resourceVersion : e.resourceVersion < twoTo 64

structure NodePool.InRange (p : NodePool) : Prop where
  priority : IsInt32 p.priority
  maxNodes : ∀ n ∈ p.maxNodes, n < twoTo 32

structure AdviceRequest.InRange (r : AdviceRequest) : Prop where
  pools : ∀ p ∈ r.pools, p.InRange
  snapshot : r.snapshot.InRange
  diagnosticVerbosity : r.diagnosticVerbosity < twoTo 32

structure ScaleItem.InRange (i : ScaleItem) : Prop where
  currentReplicas : i.currentReplicas < twoTo 32
  delta : i.delta < twoTo 32

def ScaleOutPlan.InRange (p : ScaleOutPlan) : Prop := ∀ i ∈ p.items, i.InRange

namespace Wire

theorem faithful_int64 : Faithful int64? .int IsInt64 := faithful_int _ _

theorem faithful_int32 : Faithful int32? .int IsInt32 := faithful_int _ _

theorem faithful_nat32 : Faithful nat32? ofNat (· < twoTo 32) := faithful_nat _

theorem faithful_nat64 : Faithful nat64? ofNat (· < twoTo 64) := faithful_nat _

theorem faithful_texts : Faithful (list? text?) (ofList .text) fun _ => True := by
  simpa using faithful_text.list

theorem faithful_text_or_null : Faithful (nullable? text?) (ofOption .text) fun _ => True := by
  simpa using faithful_text.nullable rfl

theorem faithful_labels : Faithful labels? ofLabels fun _ => True := by
  have texts : Faithful (map? text?) (ofMap .text) fun _ => True := by simpa using faithful_text.map
  exact texts

theorem faithful_resources : Faithful resources? ofResources fun _ => True where
  read_write {r} _ := by
    have amounts := faithful_int64.map.read_write r.within
    rw [resources?, ofResources, amounts, Option.map_some, Resources.ofAmounts_amounts]
  inRange _ := trivial
  readable r := faithful_int64.map.readable r.amounts

theorem faithful_taintEffect : Faithful taintEffect? ofTaintEffect fun _ => True :=
  .choice fun a => by cases a <;> exact ⟨_, rfl, rfl⟩

theorem faithful_taint : Faithful taint? ofTaint fun _ => True := by
  refine .record ?_ (fun _ => trivial) ?_
  · intro t _
    simp [Members.field, Members.fieldOr, faithful_text.read_write, faithful_taintEffect.read_write]
  · intro t
    simp [readable, faithful_taintEffect.readable]

theorem faithful_taints : Faithful (list? taint?) (ofList ofTaint) fun _ => True := by
  simpa using faithful_taint.list

theorem faithful_operator : Faithful operator? ofOperator fun _ => True :=
  .choice fun a => by cases a <;> exact ⟨_, rfl, rfl⟩

theorem faithful_effect_or_null :
    Faithful (nullable? taintEffect?) (ofOption ofTaintEffect) fun _ => True := by
  simpa using faithful_taintEffect.nullable rfl

theorem faithful_toleration : Faithful toleration? ofToleration fun _ => True := by
  refine .record ?_ (fun _ => trivial) ?_
  · intro t _
    simp [Members.fieldOr, Members.field?, faithful_text.read_write, faithful_operator.read_write,
      faithful_effect_or_null.read_write]
  · intro t
    simp [readable, faithful_operator.readable, faithful_effect_or_null.readable]

theorem faithful_tolerations : Faithful (list? toleration?) (ofList ofToleration) fun _ =>
    True := by
  simpa using faithful_toleration.list

section Node

variable {n : Node}

theorem nodeOf_nodeMembers (n : Node) : nodeOf (nodeMembers n) = some n := by
  simp [nodeOf, nodeMembers, Members.field, Members.fieldOr, faithful_text.read_write,
    faithful_labels.read_write, faithful_taints.read_write, faithful_bool.read_write,
    faithful_resources.read_write]

theorem readable_nodeMembers : ∀ m ∈ nodeMembers n, m.2.readable = true := by
  simp [nodeMembers, readable, faithful_labels.readable, faithful_taints.readable,
    faithful_resources.readable]

theorem faithful_node : Faithful node? ofNode fun _ => True :=
  .record (fun _ => nodeOf_nodeMembers _) (fun _ => trivial) fun _ => readable_nodeMembers

end Node

section Workload

variable {w : Workload}

theorem faithful_priority_or_null :
    Faithful (nullable? int32?) (ofOption .int) fun p => ∀ n ∈ p, IsInt32 n :=
  faithful_int32.nullable rfl

theorem workloadOf_workloadMembers (within : w.InRange) :
    workloadOf (workloadMembers w) = some w := by
  simp [workloadOf, workloadMembers, Members.field, Members.fieldOr, Members.field?,
    faithful_text.read_write, faithful_text_or_null.read_write, faithful_labels.read_write,
    faithful_tolerations.read_write, faithful_resources.read_write,
    faithful_priority_or_null.read_write within]

theorem inRange_of_workloadOf {m : Members} (h : workloadOf m = some w) : w.InRange := by
  simp only [workloadOf, bind, Option.bind_eq_some_iff, pure, Option.some.injEq] at h
  obtain ⟨inNamespace, -, name, -, requests, -, nodeName, -, priority, hp, priorityClassName, -,
    runtimeClassName, -, nodeSelector, -, tolerations, -, rfl⟩ := h
  exact faithful_priority_or_null.of_fieldOr (by simp) hp

theorem readable_workloadMembers : ∀ m ∈ workloadMembers w, m.2.readable = true := by
  simp [workloadMembers, readable, faithful_labels.readable, faithful_tolerations.readable,
    faithful_resources.readable, faithful_text_or_null.readable, faithful_priority_or_null.readable]

theorem faithful_workload : Faithful workload? ofWorkload Workload.InRange :=
  .record workloadOf_workloadMembers inRange_of_workloadOf fun _ => readable_workloadMembers

end Workload

section Classes

theorem priorityClassOf_priorityClassMembers {c : PriorityClass} (within : c.InRange) :
    priorityClassOf (priorityClassMembers c) = some c := by
  simp [priorityClassOf, priorityClassMembers, Members.field, faithful_text.read_write,
    faithful_int32.read_write within]

theorem inRange_of_priorityClassOf {m : Members} {c : PriorityClass}
    (h : priorityClassOf m = some c) : c.InRange := by
  simp only [priorityClassOf, bind, Option.bind_eq_some_iff, pure, Option.some.injEq] at h
  obtain ⟨name, -, value, hv, rfl⟩ := h
  exact faithful_int32.of_field hv

theorem readable_priorityClassMembers {c : PriorityClass} :
    ∀ m ∈ priorityClassMembers c, m.2.readable = true := by
  simp [priorityClassMembers, readable]

theorem faithful_priorityClass : Faithful priorityClass? ofPriorityClass PriorityClass.InRange :=
  .record priorityClassOf_priorityClassMembers inRange_of_priorityClassOf fun _ =>
    readable_priorityClassMembers

theorem runtimeClassOf_runtimeClassMembers (c : RuntimeClass) :
    runtimeClassOf (runtimeClassMembers c) = some c := by
  simp [runtimeClassOf, runtimeClassMembers, Members.field, Members.fieldOr,
    faithful_text.read_write, faithful_resources.read_write]

theorem readable_runtimeClassMembers {c : RuntimeClass} :
    ∀ m ∈ runtimeClassMembers c, m.2.readable = true := by
  simp [runtimeClassMembers, readable, faithful_resources.readable]

theorem faithful_runtimeClass : Faithful runtimeClass? ofRuntimeClass fun _ => True :=
  .record (fun _ => runtimeClassOf_runtimeClassMembers _) (fun _ => trivial) fun _ =>
    readable_runtimeClassMembers

end Classes

section Object

/-- The fields of an object without its kind. -/
def objectMembers : ClusterObject → Members
  | .node n => nodeMembers n
  | .workload w => workloadMembers w
  | .priorityClass c => priorityClassMembers c
  | .runtimeClass c => runtimeClassMembers c

theorem ofObject_eq (o : ClusterObject) :
    ofObject o = .object (("kind", .text o.kind.text) :: objectMembers o) := by
  cases o <;> rfl

theorem readable_objectMembers (o : ClusterObject) :
    ∀ m ∈ objectMembers o, m.2.readable = true := by
  cases o with
  | node n => exact readable_nodeMembers
  | workload w => exact readable_workloadMembers
  | priorityClass c => exact readable_priorityClassMembers
  | runtimeClass c => exact readable_runtimeClassMembers

/-- No object has a field of its own that could be taken for its kind. -/
theorem kind_not_mem (o : ClusterObject) : ∀ m ∈ objectMembers o, m.1 ≠ "kind" := by
  cases o with
  | node n => simp [objectMembers, nodeMembers]
  | workload w => simp [objectMembers, workloadMembers]
  | priorityClass c => simp [objectMembers, priorityClassMembers]
  | runtimeClass c => simp [objectMembers, runtimeClassMembers]

theorem kindTag_text (k : ObjectKind) : kindTag? (.text k.text) = some k := by
  cases k <;> rfl

theorem objectOf_members {o : ClusterObject} (within : o.InRange) :
    objectOf (("kind", .text o.kind.text) :: objectMembers o) = some o := by
  have whole : membersReadable (("kind", .text o.kind.text) :: objectMembers o) = true :=
    readable_members.mpr (List.forall_mem_cons.mpr ⟨rfl, readable_objectMembers o⟩)
  have tag : Members.field (("kind", .text o.kind.text) :: objectMembers o) "kind" kindTag? =
      some o.kind := by
    have single : (objectMembers o).filter (·.1 == "kind") = [] :=
      List.filter_eq_nil_iff.mpr fun m hm => by simpa using kind_not_mem o m hm
    simp [Members.field, single, kindTag_text]
  have fields : (("kind", .text o.kind.text) :: objectMembers o : Members).filter (·.1 != "kind") =
      objectMembers o := by
    rw [List.filter_cons_of_neg (by simp)]
    exact List.filter_eq_self.mpr fun m hm => by simpa using kind_not_mem o m hm
  simp only [objectOf, whole, tag, fields, Bool.not_true, Bool.false_eq_true, if_false, bind,
    Option.bind_some]
  cases o with
  | node n => simp [ClusterObject.kind, objectMembers, nodeOf_nodeMembers]
  | workload w => simp [ClusterObject.kind, objectMembers, workloadOf_workloadMembers within]
  | priorityClass c =>
    simp [ClusterObject.kind, objectMembers, priorityClassOf_priorityClassMembers within]
  | runtimeClass c =>
    simp [ClusterObject.kind, objectMembers, runtimeClassOf_runtimeClassMembers]

theorem inRange_of_objectOf {m : Members} {o : ClusterObject} (h : objectOf m = some o) :
    o.InRange := by
  simp only [objectOf, bind] at h
  split at h
  · simp at h
  · obtain ⟨kind, -, h⟩ := Option.bind_eq_some_iff.mp h
    cases kind with
    | node =>
      obtain ⟨n, -, rfl⟩ := Option.map_eq_some_iff.mp h
      trivial
    | workload =>
      obtain ⟨w, found, rfl⟩ := Option.map_eq_some_iff.mp h
      exact inRange_of_workloadOf found
    | priorityClass =>
      obtain ⟨c, found, rfl⟩ := Option.map_eq_some_iff.mp h
      exact inRange_of_priorityClassOf found
    | runtimeClass =>
      obtain ⟨c, -, rfl⟩ := Option.map_eq_some_iff.mp h
      trivial

theorem faithful_object : Faithful object? ofObject ClusterObject.InRange := by
  rw [funext ofObject_eq]
  refine .record objectOf_members inRange_of_objectOf fun o => ?_
  exact List.forall_mem_cons.mpr ⟨rfl, readable_objectMembers o⟩

end Object

theorem faithful_snapshot : Faithful snapshot? ofSnapshot Snapshot.InRange := by
  have nodes := faithful_node.list
  have workloads := faithful_workload.list
  have priorityClasses := faithful_priorityClass.list
  have runtimeClasses := faithful_runtimeClass.list
  refine .record ?_ ?_ ?_
  · intro s within
    simp [Members.fieldOr, nodes.read_write, workloads.read_write within.workloads,
      priorityClasses.read_write within.priorityClasses, runtimeClasses.read_write]
  · intro m s h
    simp only [bind, Option.bind_eq_some_iff, pure, Option.some.injEq] at h
    obtain ⟨ns, -, ws, hw, ps, hp, rs, -, rfl⟩ := h
    exact ⟨workloads.of_fieldOr (by simp) hw, priorityClasses.of_fieldOr (by simp) hp⟩
  · intro s
    simp [nodes.readable, workloads.readable, priorityClasses.readable, runtimeClasses.readable]

theorem faithful_workloadKey : Faithful workloadKey? ofWorkloadKey fun _ => True := by
  refine .record ?_ (fun _ => trivial) ?_
  · intro k _
    simp [Members.field, faithful_text.read_write]
  · intro k
    simp [readable]

theorem faithful_eventReason : Faithful eventReason? ofEventReason fun _ => True :=
  .choice fun a => by cases a <;> exact ⟨_, rfl, rfl⟩

theorem faithful_event : Faithful event? ofEvent ViewEvent.InRange := by
  refine .record ?_ ?_ ?_
  · intro e within
    simp [Members.field, Members.fieldOr, Members.field?, faithful_text.read_write,
      faithful_text_or_null.read_write, faithful_eventReason.read_write,
      faithful_workloadKey.read_write, faithful_nat64.read_write within.sequence,
      faithful_nat64.read_write within.resourceVersion]
  · intro m e h
    simp only [bind, Option.bind_eq_some_iff, pure, Option.some.injEq] at h
    obtain ⟨sequence, hs, reason, -, workload, -, nodeName, -, message, -, version, hv, rfl⟩ := h
    exact ⟨faithful_nat64.of_field hs, faithful_nat64.of_field hv⟩
  · intro e
    simp [readable, ofNat, faithful_eventReason.readable, faithful_workloadKey.readable,
      faithful_text_or_null.readable]

theorem faithful_template : Faithful template? ofTemplate fun _ => True := by
  refine .record ?_ (fun _ => trivial) ?_
  · intro t _
    simp [Members.field, Members.fieldOr, faithful_text.read_write, faithful_taints.read_write,
      faithful_resources.read_write]
  · intro t
    simp [readable, faithful_resources.readable, faithful_taints.readable]

theorem faithful_pool : Faithful pool? ofPool NodePool.InRange := by
  have templates := faithful_template.list
  have limit : Faithful (nullable? nat32?) (ofOption ofNat) fun o => ∀ n ∈ o, n < twoTo 32 :=
    faithful_nat32.nullable rfl
  refine .record ?_ ?_ ?_
  · intro p within
    simp [Members.field, Members.fieldOr, Members.field?, faithful_text.read_write,
      faithful_texts.read_write, faithful_labels.read_write, faithful_taints.read_write,
      faithful_int32.read_write within.priority, templates.read_write,
      limit.read_write within.maxNodes]
  · intro m p h
    simp only [bind, Option.bind_eq_some_iff, pure, Option.some.injEq] at h
    obtain ⟨name, -, region, -, priority, hp, zones, -, labels, -, taints, -, ts, -, maxNodes, hm,
      rfl⟩ := h
    exact ⟨faithful_int32.of_fieldOr (by decide) hp, limit.of_fieldOr (by simp) hm⟩
  · intro p
    simp [readable, faithful_texts.readable, faithful_labels.readable, faithful_taints.readable,
      templates.readable, limit.readable]

theorem faithful_constraint :
    Faithful constraint? ofConstraint fun pools => ∀ p ∈ pools, p.InRange := by
  have pools := faithful_pool.list
  refine .record ?_ (fun h => pools.of_field h) ?_
  · intro ps within
    simp [Members.field, pools.read_write within]
  · intro ps
    simp [pools.readable]

theorem faithful_scoring : Faithful scoring? ofScoring fun _ => True :=
  .choice fun a => by cases a <;> exact ⟨_, rfl, rfl⟩

theorem faithful_simulationStrategy :
    Faithful simulationStrategy? ofSimulationStrategy fun _ => True :=
  .choice fun a => by cases a <;> exact ⟨_, rfl, rfl⟩

theorem faithful_adviceMode : Faithful adviceMode? ofAdviceMode fun _ => True :=
  .choice fun a => by cases a <;> exact ⟨_, rfl, rfl⟩

theorem faithful_request : Faithful request? ofRequest AdviceRequest.InRange := by
  refine .record ?_ ?_ ?_
  · intro r within
    simp [Members.field, Members.fieldOr, faithful_text.read_write, faithful_labels.read_write,
      faithful_scoring.read_write, faithful_simulationStrategy.read_write,
      faithful_adviceMode.read_write, faithful_constraint.read_write within.pools,
      faithful_snapshot.read_write within.snapshot,
      faithful_nat32.read_write within.diagnosticVerbosity]
  · intro m r h
    simp only [bind, Option.bind_eq_some_iff, pure, Option.some.injEq] at h
    obtain ⟨id, -, correlationId, -, labels, -, pools, hp, snapshot, hs, scoring, -, simulation, -,
      mode, -, diagnosticVerbosity, hd, rfl⟩ := h
    exact ⟨faithful_constraint.of_field hp, faithful_snapshot.of_field hs,
      faithful_nat32.of_fieldOr (by decide) hd⟩
  · intro r
    simp [readable, ofNat, faithful_labels.readable, faithful_constraint.readable,
      faithful_snapshot.readable, faithful_scoring.readable, faithful_simulationStrategy.readable,
      faithful_adviceMode.readable]

theorem faithful_placement : Faithful placement? ofPlacement fun _ => True := by
  refine .record ?_ (fun _ => trivial) ?_
  · intro p _
    simp [Members.field, faithful_text.read_write]
  · intro p
    simp [readable]

theorem faithful_scaleItem : Faithful scaleItem? ofScaleItem ScaleItem.InRange := by
  refine .record ?_ ?_ ?_
  · intro i within
    simp [Members.field, faithful_placement.read_write, faithful_nat32.read_write within.delta,
      faithful_nat32.read_write within.currentReplicas]
  · intro m i h
    simp only [bind, Option.bind_eq_some_iff, pure, Option.some.injEq] at h
    obtain ⟨placement, -, currentReplicas, hc, delta, hd, rfl⟩ := h
    exact ⟨faithful_nat32.of_field hc, faithful_nat32.of_field hd⟩
  · intro i
    simp [readable, ofNat, faithful_placement.readable]

theorem faithful_plan : Faithful plan? ofPlan ScaleOutPlan.InRange := by
  have items := faithful_scaleItem.list
  refine .record ?_ ?_ ?_
  · intro p within
    simp [Members.field, faithful_texts.read_write, items.read_write within]
  · intro m p h
    simp only [bind, Option.bind_eq_some_iff, pure, Option.some.injEq] at h
    obtain ⟨is, hi, unsatisfied, -, rfl⟩ := h
    exact items.of_field hi
  · intro p
    simp [items.readable, faithful_texts.readable]

/-- Writing and reading keeps every record. -/
theorem records_survive :
    Survives request? ofRequest AdviceRequest.InRange ∧
    Survives snapshot? ofSnapshot Snapshot.InRange ∧
    Survives object? ofObject ClusterObject.InRange ∧
    Survives node? ofNode (fun _ => True) ∧
    Survives workload? ofWorkload Workload.InRange ∧
    Survives pool? ofPool NodePool.InRange ∧
    Survives template? ofTemplate (fun _ => True) ∧
    Survives plan? ofPlan ScaleOutPlan.InRange ∧
    Survives event? ofEvent ViewEvent.InRange :=
  ⟨faithful_request.survives, faithful_snapshot.survives, faithful_object.survives,
    faithful_node.survives, faithful_workload.survives, faithful_pool.survives,
    faithful_template.survives, faithful_plan.survives, faithful_event.survives⟩

/-- A request at the edges: amounts and priorities as low as they go, a label called `kind`, a node
name that is empty, tolerations for every effect, and a class without a name. -/
def edgeRequest : AdviceRequest where
  id := ""
  labels := .ofList [("kind", "node"), ("", "\"")]
  pools := [{
    name := "general"
    region := "eu"
    priority := -(twoTo 31 : Int)
    zones := ["b", "a", "b"]
    taints := [{ key := "", effect := .preferNoSchedule }]
    templates := [{
      name := "small"
      instanceType := "small"
      architecture := ""
      capacity := (∅ : Resources).set "cpu" (-(twoTo 63 : Int))
      systemReserved := (∅ : Resources).set "" (twoTo 63 - 1) }]
    maxNodes := some (twoTo 32 - 1) }]
  snapshot := {
    workloads := [{
      inNamespace := "a/b"
      name := "c"
      nodeName := some ""
      priority := some (twoTo 31 - 1)
      runtimeClassName := some ""
      tolerations := [{}, { operator := .existence, effect := some .noExecute }] }]
    priorityClasses := [⟨"", -1⟩]
    runtimeClasses := [⟨"", ∅⟩] }
  scoring := .leastWaste
  simulation := .singleSimulationPerGroup
  mode := .incremental
  diagnosticVerbosity := twoTo 32 - 1

/-- A request put down by hand: fields are left out, some are null, and some nobody knows. -/
def sparseRequest : Json :=
  .object [("colour", .unreadable), ("id", .text "req-1"),
    ("constraint", .object [("node_pools", .array [.object [("region", .text "eu"),
      ("name", .text "general"), ("max_nodes", .null), ("zones", .array []),
      ("node_templates", .array [])]])]),
    ("snapshot", .object [("workloads", .array [.object [("name", .text "web"),
      ("node_name", .null), ("namespace", .text "default"), ("phase", .text "Pending"),
      ("tolerations", .array [.object [("effect", .null)]])]])])]

theorem records_survive_edges :
    edgeRequest.InRange ∧ request? (ofRequest edgeRequest) = some edgeRequest ∧
    ∃ r, request? sparseRequest = some r ∧ r.InRange ∧ request? (ofRequest r) = some r := by
  obtain ⟨⟨written, accepted⟩, -⟩ := records_survive
  have within : edgeRequest.InRange := by
    refine ⟨?_, ?_, by decide⟩
    · simp only [edgeRequest, List.forall_mem_singleton]
      exact ⟨by decide, by decide⟩
    · constructor
      · simp only [edgeRequest, List.forall_mem_singleton]
        exact (by decide : ∀ p ∈ some (twoTo 31 - 1 : Int), IsInt32 p)
      · simp only [edgeRequest, List.forall_mem_singleton]
        exact (by decide : IsInt32 (-1))
  obtain ⟨r, found⟩ := Option.isSome_iff_exists.mp
    (show (request? sparseRequest).isSome = true by decide +kernel)
  exact ⟨within, written edgeRequest within, r, found, accepted sparseRequest r found⟩

end Wire

end ScaleAdvisor
