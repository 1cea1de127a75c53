import ScaleAdvisor.Advice.Pass
import ScaleAdvisor.Choice

/-!
The search for nodes to add. Groups of candidates are tried in order of priority, each in passes as
long as a pass has a winner that leaves less pending than before; the winner's sandbox is the base
of what follows. Which of several equally good scores wins a pass is a choice.
-/

namespace ScaleAdvisor

/-- How often in a row the winners of a group may fail to leave less pending. -/
def ScaleOut.patience : Nat := 2

/-- The state of a search. -/
structure ScaleOut (σ F : Type) where
  workspace : Workspace σ
  /-- Passes begun so far. -/
  passes : Nat := 0
  base : ViewId
  pending : KeySet WorkloadKey
  /-- Winners that add a node, in the order of their passes. -/
  winners : List (NodeScore F) := []
  /-- How many of the winners are of each pool. -/
  perPool : SortedMap String Nat := ∅
  /-- A winner has placed something without adding a node. -/
  placedInPlace : Bool := false

namespace ScaleOut

variable {σ F : Type} [Quantity F]

/-- With one more node the pool stays within its limit. -/
def withinQuota (r : AdviceRequest) (perPool : SortedMap String Nat) (p : NodePool) : Bool :=
  match p.maxNodes with
  | none => true
  | some most => p.memberCount r.snapshot.nodes + perPool.getD p.name 0 < most

/-- The candidates of a group that can be tried. -/
def eligible (r : AdviceRequest) (s : ScaleOut σ F) (g : CandidateGroup) : List Candidate :=
  g.candidates.filter fun c => withinQuota r s.perPool c.pool

/-- Give back the sandboxes of a pass. -/
def discard (s : ScaleOut σ F) (p : Pass) : ScaleOut σ F :=
  { s with workspace := p.release none s.workspace }

/-- Go on from the sandbox of a winner. It counts as adding a node if it has put its own to use. -/
def promote (s : ScaleOut σ F) (p : Pass) (winner : NodeScore F) (view : ViewId)
    (leftover : KeySet WorkloadKey) : ScaleOut σ F :=
  let pool := winner.placement.pool
  let adds := p.usedScaledNode winner.name
  { s with
    workspace := p.release (some winner.name) s.workspace
    base := view
    pending := leftover
    winners := if adds then s.winners ++ [winner] else s.winners
    perPool := if adds then s.perPool.insert pool (s.perPool.getD pool 0 + 1) else s.perPool
    placedInPlace := s.placedInPlace || !adds }

/-- Run passes of a group until one fails, places nothing, or leaves nothing pending; in the last
case the answer is yes. -/
def runGroup (c : Conductor σ) (r : AdviceRequest) (scoring : Scoring F) (g : CandidateGroup)
    (s : ScaleOut σ F) (stalled : Nat) : Choice (ScaleOut σ F × Except SimulationError Bool) :=
  match c.cause s.workspace.clock with
  | some cause => .done (s, .error (.cancelled cause))
  | none =>
    let number := s.passes + 1
    match Pass.run c number s.base (s.eligible r g) s.workspace with
    | (workspace, .error e) => .done ({ s with workspace, passes := number }, .error e)
    | (workspace, .ok p) =>
      let s' := { s with workspace, passes := number }
      if p.nothingPending then .done ({ s' with pending := ∅ }, .ok true)
      else
        match p.ties scoring with
        | .error e => .done (s'.discard p, .error e)
        | .ok [] => .done (s'.discard p, .ok false)
        | .ok (first :: rest) => (Choice.among first rest).bind fun winner =>
          let leftover := KeySet.ofKeys winner.unscheduled
          if _h : leftover.size < s.pending.size then
            match p.view? winner.name with
            | none => .done (s'.discard p, .error .noWinningNodeScore)
            | some view =>
              let s' := s'.promote p winner view leftover
              if leftover.isEmpty then .done (s', .ok true)
              else runGroup c r scoring g s' 0
          else if _h : stalled + 1 < patience then
            runGroup c r scoring g (s'.discard p) (stalled + 1)
          else .done (s'.discard p, .ok false)
termination_by (s.pending.size, patience - stalled)
decreasing_by
  · exact .left _ _ _h
  · exact .right _ (by omega)

/-- Visit groups until one leaves nothing pending. After each group that adds nodes the plan for
these alone is noted. -/
def runGroups (c : Conductor σ) (r : AdviceRequest) (scoring : Scoring F) (s : ScaleOut σ F)
    (noted : List ScaleOutPlan) :
    List CandidateGroup → Choice (ScaleOut σ F × List ScaleOutPlan × Except SimulationError Unit)
  | [] => .done (s, noted, .ok ())
  | g :: rest => (runGroup c r scoring g s 0).bind fun (s', answer) =>
    match answer with
    | .error e => .done (s', noted, .error e)
    | .ok complete =>
      let added := s'.winners.drop s.winners.length
      let noted := if added.isEmpty then noted
        else noted ++ [.build r.snapshot.nodes (added.map (·.placement)) s'.pending]
      if complete then .done (s', noted, .ok ())
      else runGroups c r scoring s' noted rest

/-- What a search has led to. -/
structure Result (σ : Type) where
  workspace : Workspace σ
  /-- Plans for the groups that add nodes, each for itself. -/
  partials : List ScaleOutPlan := []
  outcome : Except SimulationError ScaleOutPlan

/-- The plan for all winners. -/
def plan (r : AdviceRequest) (s : ScaleOut σ F) : Except SimulationError ScaleOutPlan :=
  if s.winners.isEmpty && !s.placedInPlace then .error .noScalingAdvice
  else .ok (.build r.snapshot.nodes (s.winners.map (·.placement)) s.pending)

/-- Search from a base view that holds the request's snapshot. -/
def search (c : Conductor σ) (r : AdviceRequest) (scoring : Scoring F) (w : Workspace σ) :
    Choice (Result σ) :=
  match w.forest.pending w.registry.base with
  | .error e => .done { workspace := w, outcome := .error (.view e) }
  | .ok [] => .done { workspace := w, outcome := .ok {} }
  | .ok pending =>
    let start : ScaleOut σ F :=
      { workspace := w, base := w.registry.base, pending := .ofKeys (pending.map (·.key)) }
    (runGroups c r scoring start [] (CandidateGroup.ofPools r.pools)).bind
      fun (s, partials, answer) => .done {
        workspace := s.workspace
        partials
        outcome := match answer with
          | .error e => .error e
          | .ok () => s.plan r }

/-- Load the request's snapshot into a base view, then search. -/
def simulate (c : Conductor σ) (r : AdviceRequest) (scoring : Scoring F) (f : Forest) (clock : σ) :
    Choice (Result σ) :=
  let (f, base) := f.newBase ("base-" ++ r.id)
  let (forest, loaded) := f.loadSnapshot base r.snapshot
  let w : Workspace σ := { forest, registry := { base }, clock }
  match loaded with
  | .error e => .done { workspace := w, outcome := .error (.createSimulator e.message) }
  | .ok () => search c r scoring w

end ScaleOut

end ScaleAdvisor
