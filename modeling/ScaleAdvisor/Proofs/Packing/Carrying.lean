import ScaleAdvisor.Proofs.Packing.Memory
import ScaleAdvisor.Proofs.View.PlainMap

/-!
Decisions carried out, on a view that nobody else writes to meanwhile. Nothing is asked of names or
amounts: a cycle comes to its end whatever the view holds and whatever the scheduler remembers.

* `Ready`: decisions that can be carried out, such as those of a cycle;
* `Ready.settled`: what becomes of each workload is what has been decided about it;
* `Ready.run_all`, `runCycle_performs`: what a cycle does and reports, and how it ends.
-/

namespace ScaleAdvisor

namespace Forest

variable {f g : Forest} {v : ViewId} {k : WorkloadKey} {node : String}

/-- Binding a workload writes under its own key alone. -/
theorem plain_bind (valid : f.Valid) (readable : f.Readable v) {version : Nat}
    (bound : f.bind v k node = .ok (g, version)) {k' : ObjectKey} (other : k' ≠ k.objectKey) :
    g.plain v k' = f.plain v k' := by
  cases allowed : Edit.write (f.plain v) (f.version v + 1) (.bind k node) with
  | none =>
    obtain ⟨error, failed⟩ := perform_of_refusal readable allowed
    rw [Edit.perform, bound] at failed
    simp at failed
  | some written =>
    obtain ⟨key, entry⟩ := written
    obtain ⟨g', done, changed⟩ := perform_of_write valid readable allowed
    have key_eq : key = k.objectKey := by
      simp only [Edit.write] at allowed
      split at allowed
      · rw [Option.ite_none_right_eq_some, Option.some.injEq, Prod.mk.injEq] at allowed
        exact allowed.2.1.symm
      · simp at allowed
    rw [Edit.perform, bound] at done
    obtain rfl : g = g' := congrArg Prod.fst (Except.ok.inj done)
    rw [changed, key_eq, Function.update_of_ne other]

/-- A report writes no object. -/
theorem plain_recordEvent (valid : f.Valid) {reason : EventReason} {target : Option String}
    {message : String} {number : Nat}
    (recorded : f.recordEvent v reason k target message = .ok (g, number)) :
    g.plain v = f.plain v := by
  have deed := deed_recordEvent recorded
  obtain ⟨opened, e, rfl⟩ := recordEvent_eq_ok recorded
  rw [plain_eq (deed.valid valid), plain_eq valid, deed.confined.plainBelow_eq valid,
    view_modify_self (lt_size_of_open opened)]
  rfl

end Forest

namespace BinPack

variable {f g : Forest} {v : ViewId} {C : Cluster} {k : WorkloadKey} {ds todo : List Decision}

/-- Decisions that can be carried out: each is about a pending workload of its own, and to nodes
that are there. -/
structure Ready (C : Cluster) (ds : List Decision) : Prop where
  once : (ds.map (·.workload)).Nodup
  pending : ∀ d ∈ ds, ∃ w ∈ C.workloads, w.isPending = true ∧ w.key = d.workload
  nodes : ∀ d ∈ ds, ∀ node, d.node = some node → ∃ n ∈ C.nodes, n.name = node

/-- The decisions of a cycle can be carried out when it makes them. -/
theorem ready_decisions (keyed : C.Keyed) : Ready C C.decisions where
  once := by
    rw [Cluster.decisions, decisions, map_workload_decideAll]
    exact (Cluster.undecided keyed).once
  pending d hd := by
    have decided := List.mem_map_of_mem (f := (·.workload)) hd
    rw [Cluster.decisions, decisions, map_workload_decideAll] at decided
    obtain ⟨w, hw, key⟩ := List.mem_map.mp decided
    obtain ⟨listed, pending⟩ := mem_ranked.mp hw
    exact ⟨w, listed, pending, key⟩
  nodes d hd node named := by
    obtain ⟨k, target⟩ := d
    obtain rfl : target = some node := named
    exact node_of_mem_decideAll hd

theorem settle_eq_ok {r : Except ViewError (Forest × Nat)} {n : Nat}
    (h : Call.settle f r = (g, .ok n)) : r = .ok (g, n) := by
  cases r with
  | error e => simp [Call.settle] at h
  | ok written => simpa [Call.settle, Prod.ext_iff] using h

namespace Ready

theorem tail {d : Decision} (ready : Ready C (d :: todo)) : Ready C todo where
  once := (List.nodup_cons.mp (List.map_cons .. ▸ ready.once)).2
  pending d' hd := ready.pending d' (List.mem_cons_of_mem _ hd)
  nodes d' hd := ready.nodes d' (List.mem_cons_of_mem _ hd)

theorem apart {d : Decision} (ready : Ready C (d :: todo)) :
    ∀ d' ∈ todo, d'.workload ≠ d.workload := by
  intro d' hd same
  have once := List.nodup_cons.mp (List.map_cons .. ▸ ready.once)
  exact once.1 (same ▸ List.mem_map_of_mem hd)

/-- Binding one workload leaves the others to be decided on. -/
theorem bind (keyed : C.Keyed) {w : Workload} (hw : w ∈ C.workloads) {target : Option String}
    (ready : Ready C (⟨w.key, target⟩ :: todo)) (node : String) :
    Ready (C.bind w.key node) todo where
  once := ready.tail.once
  pending d hd := by
    obtain ⟨u, hu, pending, key⟩ := ready.tail.pending d hd
    have apart : u.key ≠ w.key := by
      rw [key]
      exact ready.apart d hd
    rw [Cluster.workloads_bind node keyed hw]
    exact ⟨u, mem_bindIn_of_ne hu apart, pending, key⟩
  nodes := by
    rw [Cluster.nodes_bind node keyed hw]
    exact ready.tail.nodes

/-- Carrying decisions out leaves alone what they are not about. -/
theorem mem_settle (keyed : C.Keyed) (ready : Ready C ds) {x : Workload} (hx : x ∈ C.workloads)
    (apart : ∀ d ∈ ds, d.workload ≠ x.key) : x ∈ (C.settle ds).workloads := by
  induction ds generalizing C with
  | nil => exact hx
  | cons d rest ih =>
    obtain ⟨other, others⟩ := List.forall_mem_cons.mp apart
    obtain ⟨w, hw, -, key⟩ := ready.pending d List.mem_cons_self
    obtain ⟨k, target⟩ := d
    obtain rfl : w.key = k := key
    cases target with
    | none => exact ih keyed ready.tail hx others
    | some node =>
      refine ih (keyed.bind node hw) (ready.bind keyed hw node) ?_ others
      rw [Cluster.workloads_bind node keyed hw]
      exact mem_bindIn_of_ne hx other.symm

/-- What becomes of a workload is what has been decided about it. -/
theorem settled (keyed : C.Keyed) (ready : Ready C ds) {w : Workload} (hw : w ∈ C.workloads)
    {target : Option String} (hd : ⟨w.key, target⟩ ∈ ds) :
    target.elim w w.bindTo ∈ (C.settle ds).workloads := by
  induction ds generalizing C with
  | nil => cases hd
  | cons d rest ih =>
    rcases List.mem_cons.mp hd with rfl | later
    · cases target with
      | none => exact ready.tail.mem_settle keyed hw ready.apart
      | some node =>
        refine (ready.bind keyed hw node).mem_settle (keyed.bind node hw) ?_ ready.apart
        rw [Cluster.workloads_bind node keyed hw]
        exact mem_bindIn.mpr (.inl ⟨w, hw, rfl, rfl⟩)
    · obtain ⟨u, hu, -, key⟩ := ready.pending d List.mem_cons_self
      have apart := ready.apart _ later
      obtain ⟨k, other⟩ := d
      obtain rfl : u.key = k := key
      cases other with
      | none => exact ih keyed ready.tail hw later
      | some node =>
        refine ih (keyed.bind node hu) (ready.bind keyed hu node) ?_ later
        rw [Cluster.workloads_bind node keyed hu]
        exact mem_bindIn_of_ne hw apart

variable (n bound left : Nat) (m : CycleMemory)

/-- A decision with a node is carried out and reported. -/
theorem place {node : String} (valid : f.Valid) (readable : f.Readable v)
    (ready : Ready (f.cluster v) (⟨k, some node⟩ :: todo)) :
    ∃ g e, (enact n m bound left (⟨k, some node⟩ :: todo)).run f v =
        (enact n { m with reported := m.reported.erase k } (bound + 1) left todo).run g v ∧
      Forest.Touches f g v ∧ g.Valid ∧ g.cluster v = (f.cluster v).bind k node ∧
      (∀ k' ≠ k.objectKey, g.plain v k' = f.plain v k') ∧ Ready (g.cluster v) todo ∧
      (g.view v).events.toList = (f.view v).events.toList ++ [e] ∧
      e.report = (.scheduled, k, some node) := by
  obtain ⟨w, hw, pending, key⟩ := ready.pending ⟨k, some node⟩ List.mem_cons_self
  obtain ⟨target, there, rfl⟩ := ready.nodes ⟨k, some node⟩ List.mem_cons_self node rfl
  obtain rfl : w.key = k := key
  obtain ⟨g, version, made, wrote, after⟩ := Forest.bind_pending valid readable hw pending there
  obtain ⟨h, number, e, told, touches, valid', same, log, about⟩ :=
    Cycling.perform_record wrote.valid (wrote.touches.readable readable) .scheduled w.key
      (some target.name) (Client.assignedMessage w.key target.name)
  have becomes := same.trans after
  refine ⟨h, e, ?_, wrote.touches.trans touches, valid', becomes, fun k' other => ?_, ?_,
    by rw [log, wrote.events], about⟩
  · have performed : (Call.bind w.key target.name).perform f v = (g, .ok version) := by
      rw [Call.perform, made]
      rfl
    rw [enact_place, Program.run, performed]
    dsimp only
    rw [afterBind, Program.run, told]
  · rw [Forest.plain_recordEvent wrote.valid (settle_eq_ok told),
      Forest.plain_bind valid readable made other]
  · rw [becomes]
    exact ready.bind (Forest.keyed_cluster valid) hw target.name

/-- A decision to leave a workload that is not remembered is reported. -/
theorem leave (valid : f.Valid) (readable : f.Readable v) (unknown : m.reported.has k = false) :
    ∃ g e, (enact n m bound left (⟨k, none⟩ :: todo)).run f v =
        (enact n { m with reported := m.reported.add k } bound (left + 1) todo).run g v ∧
      Forest.Touches f g v ∧ g.Valid ∧ g.cluster v = f.cluster v ∧ g.plain v = f.plain v ∧
      (g.view v).events.toList = (f.view v).events.toList ++ [e] ∧
      e.report = (.failedScheduling, k, none) := by
  obtain ⟨g, number, e, told, touches, valid', same, log, about⟩ :=
    Cycling.perform_record valid readable .failedScheduling k none (unschedulableMessage n k)
  refine ⟨g, e, ?_, touches, valid', same, Forest.plain_recordEvent valid (settle_eq_ok told),
    log, about⟩
  rw [enact_leave unknown, Program.run, told]

end Ready

/-- What carrying decisions out does to a view, and what is reported meanwhile. -/
structure Performed (v : ViewId) (ds : List Decision) (f : Forest) (m : CycleMemory) (g : Forest)
    (m' : CycleMemory) (es : List ViewEvent) : Prop where
  touches : Forest.Touches f g v
  valid : g.Valid
  cluster : g.cluster v = (f.cluster v).settle ds
  /-- An object that no decision is about stays as it was, its version included. -/
  apart : ∀ k, (∀ d ∈ ds, k ≠ d.workload.objectKey) → g.plain v k = f.plain v k
  log : (g.view v).events.toList = (f.view v).events.toList ++ es
  tells : Tells m.reported ds es m'.reported

/-- The rest of a cycle's decisions is carried out, and reported as the scheduler's memory has
it. -/
theorem Ready.run_all (n bound left : Nat) (m : CycleMemory) (valid : f.Valid)
    (readable : f.Readable v) (ready : Ready (f.cluster v) todo) :
    ∃ g m' es, (enact n m bound left todo).run f v =
        (g, m', .finished (bound + placed todo) (left + leftOver todo)) ∧
      Performed v todo f m g m' es := by
  induction todo generalizing f bound left m with
  | nil => exact ⟨f, m, [], rfl, .refl f v, valid, rfl, fun _ _ => rfl, by simp, .done _⟩
  | cons d todo ih =>
    obtain ⟨k, target⟩ := d
    cases target with
    | some node =>
      obtain ⟨g, e, first, touches, valid', after, apart, ready', log, about⟩ :=
        ready.place n bound left m valid readable
      obtain ⟨h, m', es, run, rest⟩ := ih (bound + 1) left { m with reported := m.reported.erase k }
        valid' (touches.readable readable) ready'
      refine ⟨h, m', e :: es, ?_, touches.trans rest.touches, rest.valid, ?_,
        fun k' other => ?_, ?_, .place about rest.tells⟩
      · obtain ⟨one, same⟩ := count_place k node todo
        rw [first, run, one, same, Nat.add_comm (placed todo), Nat.add_assoc]
      · rw [rest.cluster, after, Cluster.settle]
      · obtain ⟨first, later⟩ := List.forall_mem_cons.mp other
        rw [rest.apart k' later, apart k' first]
      · rw [rest.log, log, List.append_assoc, List.singleton_append]
    | none =>
      obtain ⟨same, one⟩ := count_leave k todo
      rw [same, one, Nat.add_comm (leftOver todo), ← Nat.add_assoc]
      cases known : m.reported.has k with
      | true =>
        obtain ⟨h, m', es, run, rest⟩ := ih bound (left + 1) m valid readable ready.tail
        refine ⟨h, m', es, ?_, rest.touches, rest.valid, rest.cluster, fun k' other => ?_, rest.log,
          .known known rest.tells⟩
        · rw [enact, if_pos known, run]
        · exact rest.apart k' (List.forall_mem_cons.mp other).2
      | false =>
        obtain ⟨g, e, first, touches, valid', after, apart, log, about⟩ :=
          leave n bound left m valid readable known
        have ready' : Ready (g.cluster v) todo := by
          rw [after]
          exact ready.tail
        obtain ⟨h, m', es, run, rest⟩ := ih bound (left + 1) { m with reported := m.reported.add k }
          valid' (touches.readable readable) ready'
        refine ⟨h, m', e :: es, ?_, touches.trans rest.touches, rest.valid, ?_,
          fun k' other => ?_, ?_, .leave known about rest.tells⟩
        · rw [first, run]
        · rw [rest.cluster, after, Cluster.settle]
        · rw [rest.apart k' (List.forall_mem_cons.mp other).2, apart]
        · rw [rest.log, log, List.append_assoc, List.singleton_append]

/-- Reading calls leave everything as it is. -/
theorem ReadsTo.run_eq {α : Type} (valid : f.Valid) (readable : f.Readable v) {p q : Program α}
    (h : ReadsTo (f.cluster v) p q) : p.run f v = q.run f v := by
  induction h with
  | here => rfl
  | @nodes next _ _ ih =>
    change (next (f.nodes v)).run f v = _
    rw [Forest.nodes_eq valid readable, ih]
  | @workloads next _ _ ih =>
    change (next (f.workloads v)).run f v = _
    rw [Forest.workloads_eq valid readable, ih]
  | @priorityClasses next _ _ ih =>
    change (next (f.priorityClasses v)).run f v = _
    rw [Forest.priorityClasses_eq valid readable, ih]
  | @runtimeClasses next _ _ ih =>
    change (next (f.runtimeClasses v)).run f v = _
    rw [Forest.runtimeClasses_eq valid readable, ih]

/-- A cycle comes to its end, whatever is remembered, and carries its decisions out. -/
theorem runCycle_performs (valid : f.Valid) (readable : f.Readable v) (m : CycleMemory) :
    ∃ g m' es, algorithm.runCycle f v m =
        (g, m', .finished (placed (f.cluster v).decisions) (leftOver (f.cluster v).decisions)) ∧
      Performed v (f.cluster v).decisions f m g m' es := by
  obtain ⟨g, m', es, run, performed⟩ := (ready_decisions (Forest.keyed_cluster valid)).run_all
    (f.cluster v).nodes.length 0 0 { m with cycles := m.cycles + 1 } valid readable
  refine ⟨g, m', es, ?_, performed.touches, performed.valid, performed.cluster, performed.apart,
    performed.log, performed.tells⟩
  rw [Nat.zero_add, Nat.zero_add] at run
  rw [Algorithm.runCycle, algorithm, (readsTo_cycle (f.cluster v) m).run_eq valid readable, run]

end BinPack

end ScaleAdvisor
