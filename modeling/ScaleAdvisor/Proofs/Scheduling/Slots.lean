import Mathlib.Data.List.Basic
import ScaleAdvisor.Scheduling.Launcher

/-!
Slots, step by step. A launch waits for a slot, is handed one, starts a task and waits for it to be
ready; then there is a handle, which is stopped or dropped. Each of these steps may come between any
steps of other launches, and tasks end when they like.

* `LaunchMove.next`, `Slots.Step`: what a launch, its handle and its task can do;
* `Slots.Run.balance`: a slot is free, or handed to a launch, or belongs to a handle;
* `Slots.Run.account`: a launch gives back what it has been handed, once it is over;
* `Slots.Run.executing_le`: unless handles are dropped, no task runs cycles without a slot.
-/

namespace ScaleAdvisor

/-- How a launch, or the handle that came of it, has ended. -/
inductive LaunchEnd where
  | cancelled
  | failed
  | stopped
  | dropped
  deriving DecidableEq, Repr

/-- How far a launch has come. -/
inductive LaunchStage where
  | waiting
  /-- It has been handed a slot. -/
  | holding
  /-- Its task is not ready yet, or has not been heard of. -/
  | starting
  /-- There is a handle. -/
  | live
  /-- The task has been told to stop, and its end is waited for. -/
  | stopping
  | done (ending : LaunchEnd)
  deriving DecidableEq, Repr

inductive TaskStage where
  | absent
  /-- It lists its view. -/
  | starting
  /-- It has ended before it was ready. -/
  | broken
  | cycling
  | ended
  /-- It is to go at once, but may still be in the middle of a cycle. -/
  | aborted
  deriving DecidableEq, Repr

structure Launch where
  stage : LaunchStage := .waiting
  task : TaskStage := .absent
  deriving DecidableEq, Repr

/-- What may happen to a launch, to its handle or to its task. -/
inductive LaunchMove where
  | acquire
  | cancel
  /-- It is cancelled when it has been handed a slot and has not noticed yet. -/
  | withdraw
  /-- The view is closed. -/
  | refuse
  | spawn
  /-- The task has listed its view and begins with its cycles. -/
  | report
  | collapse
  | fail
  | hand
  | exit
  | stop
  | release
  | drop
  /-- The runtime has dropped an aborted task. -/
  | vanish
  deriving DecidableEq, Repr

namespace Launch

/-- It holds a slot without a handle. -/
def holds (l : Launch) : Bool :=
  match l.stage with
  | .holding | .starting => true
  | _ => false

/-- There is a handle, live or about to stop. -/
def handled (l : Launch) : Bool :=
  match l.stage with
  | .live | .stopping => true
  | _ => false

def slots (l : Launch) : Nat := l.holds.toNat + l.handled.toNat

/-- Its task may be executing a cycle. -/
def executes (l : Launch) : Bool :=
  match l.task with
  | .cycling | .aborted => true
  | _ => false

end Launch

namespace LaunchMove

/-- What becomes of a launch, if this can happen to it. -/
def next : LaunchMove → Launch → Option Launch
  | .acquire, ⟨.waiting, .absent⟩ => some ⟨.holding, .absent⟩
  | .cancel, ⟨.waiting, .absent⟩ => some ⟨.done .cancelled, .absent⟩
  | .withdraw, ⟨.holding, .absent⟩ => some ⟨.done .cancelled, .absent⟩
  | .refuse, ⟨.holding, .absent⟩ => some ⟨.done .failed, .absent⟩
  | .spawn, ⟨.holding, .absent⟩ => some ⟨.starting, .starting⟩
  | .report, ⟨.starting, .starting⟩ => some ⟨.starting, .cycling⟩
  | .collapse, ⟨.starting, .starting⟩ => some ⟨.starting, .broken⟩
  | .fail, ⟨.starting, .broken⟩ => some ⟨.done .failed, .broken⟩
  | .hand, ⟨.starting, .cycling⟩ => some ⟨.live, .cycling⟩
  | .hand, ⟨.starting, .ended⟩ => some ⟨.live, .ended⟩
  | .exit, ⟨stage, .cycling⟩ => some ⟨stage, .ended⟩
  | .stop, ⟨.live, task⟩ => some ⟨.stopping, task⟩
  | .release, ⟨.stopping, .ended⟩ => some ⟨.done .stopped, .ended⟩
  | .drop, ⟨.live, .cycling⟩ => some ⟨.done .dropped, .aborted⟩
  | .drop, ⟨.live, .ended⟩ => some ⟨.done .dropped, .ended⟩
  | .vanish, ⟨stage, .aborted⟩ => some ⟨stage, .ended⟩
  | _, _ => none

/-- A slot is handed out. -/
def takes : LaunchMove → Bool
  | .acquire => true
  | _ => false

/-- A slot is given back. -/
def gives : LaunchMove → Bool
  | .withdraw | .refuse | .fail | .release | .drop => true
  | _ => false

variable {m : LaunchMove} {l l' : Launch}

/-- A launch has what it was handed and has not given back. -/
theorem slots_next (next : m.next l = some l') :
    l.slots + m.takes.toNat = l'.slots + m.gives.toNat := by
  obtain ⟨stage, task⟩ := l
  cases m <;> cases stage <;> cases task <;> cases next <;> rfl

end LaunchMove

/-- All launches, by their numbers, and the slots that nobody has. -/
structure Slots where
  free : Nat
  launches : List Launch := []

inductive SlotEvent where
  | request
  | move (i : Nat) (m : LaunchMove)
  deriving DecidableEq, Repr

namespace SlotEvent

/-- A slot is handed out. -/
def takes : SlotEvent → Bool
  | .request => false
  | .move _ m => m.takes

/-- A slot is given back. -/
def gives : SlotEvent → Bool
  | .request => false
  | .move _ m => m.gives

end SlotEvent

namespace Slots

def holding (s : Slots) : Nat := s.launches.countP Launch.holds

def handles (s : Slots) : Nat := s.launches.countP Launch.handled

/-- How many tasks may be executing cycles. -/
def executing (s : Slots) : Nat := s.launches.countP Launch.executes

/-- A slot is only handed out when there is one. -/
inductive Step : Slots → SlotEvent → Slots → Prop where
  | request (s : Slots) : Step s .request { s with launches := s.launches ++ [{}] }
  | move {s : Slots} {i : Nat} {m : LaunchMove} {l l' : Launch} (here : s.launches[i]? = some l)
      (next : m.next l = some l') (room : m.takes.toNat ≤ s.free) :
      Step s (.move i m)
        { free := s.free - m.takes.toNat + m.gives.toNat, launches := s.launches.set i l' }

/-- Whatever happens, from the beginning on. -/
inductive Run (capacity : Nat) : List SlotEvent → Slots → Prop where
  | start : Run capacity [] { free := capacity }
  | step {events : List SlotEvent} {s s' : Slots} {e : SlotEvent} (run : Run capacity events s)
      (step : Step s e s') : Run capacity (events ++ [e]) s'

/-- How often a launch has been handed a slot. -/
def handed (i : Nat) (events : List SlotEvent) : Nat :=
  events.countP fun e => match e with
    | .move j m => j == i && m.takes
    | .request => false

/-- How often a launch, or its handle, has given a slot back. -/
def given (i : Nat) (events : List SlotEvent) : Nat :=
  events.countP fun e => match e with
    | .move j m => j == i && m.gives
    | .request => false

section Accounts

variable {capacity i : Nat} {events later : List SlotEvent} {s s' : Slots} {e : SlotEvent}
  {l : Launch}

theorem countP_set_add (p : Launch → Bool) {launches : List Launch} {l : Launch} (l' : Launch)
    (here : launches[i]? = some l) :
    (launches.set i l').countP p + (p l).toNat = launches.countP p + (p l').toNat := by
  obtain ⟨inside, rfl⟩ := List.getElem?_eq_some_iff.mp here
  have counted : (p launches[i]).toNat ≤ launches.countP p := by
    cases h : p launches[i] with
    | false => exact Nat.zero_le _
    | true => exact List.countP_pos_iff.mpr ⟨_, List.getElem_mem inside, h⟩
  rw [List.countP_set inside]
  cases h : p launches[i] <;> cases h' : p l' <;> simp_all

/-- A step moves slots between those that are free, launches and handles. -/
theorem Step.balance (step : Step s e s') :
    s'.free + s'.holding + s'.handles = s.free + s.holding + s.handles := by
  cases step with
  | request => simp [holding, handles, Launch.holds, Launch.handled]
  | @move i m l l' here next room =>
    have moved := LaunchMove.slots_next next
    have holds := countP_set_add Launch.holds l' here
    have handled := countP_set_add Launch.handled l' here
    simp only [Launch.slots, holding, handles] at moved ⊢
    omega

theorem Run.balance (run : Run capacity events s) : s.free + s.holding + s.handles = capacity := by
  induction run with
  | start => simp [holding, handles]
  | step _ step ih => exact step.balance.trans ih

theorem Step.free_eq (step : Step s e s') : s'.free + e.takes.toNat = s.free + e.gives.toNat := by
  cases step with
  | request => rfl
  | move here next room =>
    simp only [SlotEvent.takes, SlotEvent.gives]
    omega

/-- What is free is what there was, without what has been handed out and with what has been given
back. -/
theorem Run.free_eq (run : Run capacity events s) :
    s.free + events.countP SlotEvent.takes = capacity + events.countP SlotEvent.gives := by
  induction run with
  | start => rfl
  | @step events s s' e _ step ih =>
    have changed := step.free_eq
    rw [List.countP_append, List.countP_append, List.countP_singleton, List.countP_singleton]
    cases takes : e.takes <;> cases gives : e.gives <;> simp_all <;> omega

theorem handed_append (i : Nat) (events : List SlotEvent) (e : SlotEvent) :
    handed i (events ++ [e]) = handed i events + handed i [e] := by
  simp [handed]

theorem given_append (i : Nat) (events : List SlotEvent) (e : SlotEvent) :
    given i (events ++ [e]) = given i events + given i [e] := by
  simp [given]

theorem handed_move (i j : Nat) (m : LaunchMove) :
    handed i [.move j m] = if j = i then m.takes.toNat else 0 := by
  by_cases same : j = i <;> cases takes : m.takes <;> simp [handed, same, takes]

theorem given_move (i j : Nat) (m : LaunchMove) :
    given i [.move j m] = if j = i then m.gives.toNat else 0 := by
  by_cases same : j = i <;> cases gives : m.gives <;> simp [given, same, gives]

/-- How often a launch can have been handed a slot, by how far it has come. -/
def Fits (stage : LaunchStage) (handed : Nat) : Prop :=
  match stage with
  | .waiting => handed = 0
  | .done .cancelled => handed ≤ 1
  | _ => handed = 1

theorem fits_next {m : LaunchMove} {l l' : Launch} {n : Nat} (next : m.next l = some l')
    (fits : Fits l.stage n) : Fits l'.stage (n + m.takes.toNat) := by
  obtain ⟨stage, task⟩ := l
  have few (n : Nat) : (n = 0 ∨ n = 1) → n ≤ 1 := by omega
  cases m <;> cases stage <;> cases task <;> cases next <;>
    first
      | exact fits
      | exact congrArg (· + 1) fits
      | exact few _ (.inl fits)
      | exact few _ (.inr fits)

/-- What a launch has been handed, what it has given back, and what it still has. -/
structure Account (i : Nat) (events : List SlotEvent) (l : Launch) : Prop where
  fits : Fits l.stage (handed i events)
  settled : handed i events = l.slots + given i events

/-- Launches that have not been asked for have had no slot. -/
structure Accounts (events : List SlotEvent) (s : Slots) : Prop where
  known : ∀ i l, s.launches[i]? = some l → Account i events l
  unknown : ∀ i, s.launches.length ≤ i → handed i events = 0 ∧ given i events = 0

/-- A request changes nothing about anyone. -/
theorem handed_request (i : Nat) (events : List SlotEvent) :
    handed i (events ++ [.request]) = handed i events ∧
      given i (events ++ [.request]) = given i events := by
  rw [handed_append, given_append]
  exact ⟨rfl, rfl⟩

theorem handed_other {i j : Nat} (other : j ≠ i) (events : List SlotEvent) (m : LaunchMove) :
    handed i (events ++ [.move j m]) = handed i events ∧
      given i (events ++ [.move j m]) = given i events := by
  rw [handed_append, given_append, handed_move, given_move, if_neg other, if_neg other]
  exact ⟨rfl, rfl⟩

theorem Account.congr (account : Account i events l)
    (same : handed i later = handed i events ∧ given i later = given i events) :
    Account i later l :=
  ⟨by rw [same.1]; exact account.fits, by rw [same.1, same.2]; exact account.settled⟩

/-- A launch's own move is what its account has to follow. -/
theorem Account.move {m : LaunchMove} {l' : Launch} (account : Account i events l)
    (next : m.next l = some l') : Account i (events ++ [.move i m]) l' := by
  have moved := LaunchMove.slots_next next
  have settled := account.settled
  constructor
  · rw [handed_append, handed_move, if_pos rfl]
    exact fits_next next account.fits
  · rw [handed_append, handed_move, given_append, given_move, if_pos rfl, if_pos rfl]
    omega

theorem Accounts.request (accounts : Accounts events s) :
    Accounts (events ++ [.request]) { s with launches := s.launches ++ [{}] } where
  known i l here := by
    obtain old | new := Nat.lt_or_ge i s.launches.length
    · rw [List.getElem?_append_left old] at here
      exact (accounts.known i l here).congr (handed_request i events)
    · obtain ⟨unhanded, ungiven⟩ := accounts.unknown i new
      rw [List.getElem?_append_right new, List.getElem?_singleton] at here
      obtain ⟨-, fresh⟩ := Option.ite_none_right_eq_some.mp here
      obtain rfl := Option.some.inj fresh
      have start : Account i events {} := ⟨unhanded, by rw [unhanded, ungiven]; rfl⟩
      exact start.congr (handed_request i events)
  unknown i beyond := by
    rw [(handed_request i events).1, (handed_request i events).2]
    exact accounts.unknown i (by simp at beyond; omega)

theorem Step.accounts (step : Step s e s') (accounts : Accounts events s) :
    Accounts (events ++ [e]) s' := by
  cases step with
  | request => exact accounts.request
  | @move j m l l' here next room =>
    have inside := (List.getElem?_eq_some_iff.mp here).1
    constructor
    · intro i k there
      rw [List.getElem?_set] at there
      split at there
      · rename_i same
        subst same
        obtain rfl := Option.some.inj there
        exact (accounts.known j l here).move next
      · rename_i other
        exact (accounts.known i k there).congr (handed_other other events m)
    · intro i beyond
      rw [List.length_set] at beyond
      have other : j ≠ i := by omega
      rw [(handed_other other events m).1, (handed_other other events m).2]
      exact accounts.unknown i beyond

theorem Run.accounts (run : Run capacity events s) : Accounts events s := by
  induction run with
  | start => exact ⟨nofun, fun _ _ => ⟨rfl, rfl⟩⟩
  | step _ step ih => exact step.accounts ih

/-- A launch keeps a slot that it has been handed until it is over, and then it has given it
back. -/
theorem Run.account (run : Run capacity events s) (here : s.launches[i]? = some l) :
    match l.stage with
    | .done .cancelled => given i events = handed i events ∧ handed i events ≤ 1
    | .done _ => given i events = 1
    | _ => given i events = 0 := by
  obtain ⟨fits, settled⟩ := run.accounts.known i l here
  obtain ⟨stage, task⟩ := l
  cases stage with
  | done ending =>
    cases ending <;> simp_all [Fits, Launch.slots, Launch.holds, Launch.handled]
  | _ => simp_all [Fits, Launch.slots, Launch.holds, Launch.handled]

end Accounts

section Tasks

variable {capacity i : Nat} {events : List SlotEvent} {s s' : Slots} {e : SlotEvent} {l l' : Launch}
  {m : LaunchMove}

/-- A task that runs cycles has a launch with a slot behind it. -/
def Backed (l : Launch) : Prop := l.executes → l.holds || l.handled

theorem backed_next (next : m.next l = some l') (kept : m ≠ .drop) (backed : Backed l) :
    Backed l' := by
  obtain ⟨stage, task⟩ := l
  cases m <;> cases stage <;> cases task <;> cases next <;>
    simp_all [Backed, Launch.executes, Launch.holds, Launch.handled]

theorem Run.backed (run : Run capacity events s) (kept : ∀ i, .move i .drop ∉ events) :
    ∀ l ∈ s.launches, Backed l := by
  induction run with
  | start => nofun
  | @step events s s' e run step ih =>
    have before := ih fun i dropped => kept i (List.mem_append_left _ dropped)
    cases step with
    | request =>
      intro l hl
      obtain old | new := List.mem_append.mp hl
      · exact before l old
      · rw [List.mem_singleton.mp new]
        nofun
    | @move i m l l' here next room =>
      intro k hk
      obtain old | rfl := List.mem_or_eq_of_mem_set hk
      · exact before k old
      · refine backed_next next ?_ (before l (List.mem_of_getElem? here))
        rintro rfl
        exact kept i (by simp)

/-- No launch has a slot and a handle at once. -/
theorem countP_slots (launches : List Launch) :
    (launches.countP fun l => l.holds || l.handled) =
      launches.countP Launch.holds + launches.countP Launch.handled := by
  induction launches with
  | nil => rfl
  | cons l rest ih =>
    obtain ⟨stage, task⟩ := l
    rw [List.countP_cons, List.countP_cons, List.countP_cons, ih]
    cases stage <;> simp [Launch.holds, Launch.handled] <;> omega

/-- As long as no handle is dropped, no more tasks run cycles than there are slots. -/
theorem Run.executing_le (run : Run capacity events s) (kept : ∀ i, .move i .drop ∉ events) :
    s.executing ≤ capacity := by
  have backed := run.backed kept
  have each : s.executing ≤ s.launches.countP fun l => l.holds || l.handled :=
    List.countP_mono_left fun l hl executes => by simpa using backed l hl executes
  have apart := countP_slots s.launches
  have balance := run.balance
  rw [holding, handles] at balance
  omega

end Tasks

end Slots

end ScaleAdvisor
