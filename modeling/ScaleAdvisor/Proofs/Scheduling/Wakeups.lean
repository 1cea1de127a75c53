import Mathlib.Logic.Relation
import ScaleAdvisor.Proofs.View.Versions
import ScaleAdvisor.Scheduling.BinPack
import ScaleAdvisor.Scheduling.Loop

/-!
A scheduler loop among others who write to its view. A write takes effect first, and its
notification is sent at some later time; in between, and between any two calls of a cycle, others go
on. The loop reads what it is sent one by one, falls behind when there is too much of it, and throws
away all that it can once it has received anything.

* `Vigil.Step`, `Vigil.Begins`: what the loop and the others can do next;
* `Vigil.wakeful`: what the loop has received is older than the cycle that follows;
* `Vigil.reaches_start`, `Vigil.reaches_turn`: a scheduler loop that runs in one go is such a loop.
-/

namespace ScaleAdvisor

namespace Forest

/-- How many writes to a view have taken effect. -/
def writes (f : Forest) (v : ViewId) : Nat := (f.view v).changes.size

variable {f g : Forest} {v : ViewId}

theorem Deed.writes_le {clearing : Bool} (deed : Deed v clearing f g) (u : ViewId) :
    f.writes u ≤ g.writes u := by
  obtain ⟨kind, key, object, there, rfl⟩ | silent := deed.write_or_silent
  · by_cases same : u = v
    · subst same
      simp [writes, view_commit there]
    · exact Nat.le_of_eq
        (by rw [writes, writes, (confined_commit there kind key object).elsewhere same])
  · exact Nat.le_of_eq (by rw [writes, writes, silent.changes])

theorem Deeds.writes_le {clearing : Bool} (deeds : Deeds v clearing f g) (u : ViewId) :
    f.writes u ≤ g.writes u := by
  induction deeds with
  | refl => exact Nat.le_refl _
  | tail _ deed ih => exact Nat.le_trans ih (deed.writes_le u)

theorem Grown.writes_le {view : View} (grown : Grown f g view) (u : ViewId) :
    f.writes u ≤ g.writes u := by
  by_cases old : u < f.views.size
  · exact Nat.le_of_eq (by rw [writes, writes, grown.same old])
  · rw [writes, view_of_size_le (Nat.le_of_not_lt old)]
    exact Nat.zero_le _

/-- Writes do not come undone. -/
theorem writes_move_le (f : Forest) (m : Move) (u : ViewId) : f.writes u ≤ (f.move m).writes u := by
  cases m with
  | base name => exact (grown_newBase f name).writes_le u
  | sandbox name below =>
    rw [move]
    split
    · exact (grown_sandbox f name below).writes_le u
    · exact Nat.le_refl _
  | ask v op => exact (deeds_perform f v op).writes_le u

theorem writes_perform_le (f : Forest) (v : ViewId) (c : Call) :
    f.writes v ≤ (c.perform f v).1.writes v :=
  (deeds_run (.ask c) f v).writes_le v

end Forest

/-- What comes next in a subscription, and how much has then been received. -/
inductive Receipt where
  | change (seen : Nat)
  /-- Too much has been sent in the meantime; the oldest notification that is kept comes next. -/
  | lagged (seen : Nat)
  | nothing
  deriving DecidableEq, Repr

/-- What comes next after the first `seen` of the notifications. -/
def Receipt.next (sent seen : Nat) : Receipt :=
  if seen < sent - Watcher.kept then .lagged (sent - Watcher.kept)
  else if seen < sent then .change (seen + 1)
  else .nothing

/-- Where a scheduler loop is, and how many of the notifications it has received. -/
inductive Watch where
  | outside
  /-- It has not listed its view yet. -/
  | subscribed (seen : Nat)
  /-- A cycle comes next. -/
  | poised (seen : Nat) (memory : CycleMemory)
  | cycling (seen : Nat) (rest : Program (CycleMemory × CycleEnd))
  | waiting (seen : Nat) (memory : CycleMemory)
  /-- It has received something and throws away what else there is. -/
  | draining (seen : Nat) (memory : CycleMemory)
  | ended

namespace Watch

def seen? : Watch → Option Nat
  | .outside | .ended => none
  | .subscribed seen | .poised seen _ | .cycling seen _ | .waiting seen _
  | .draining seen _ => some seen

/-- What it has received, while it is in a cycle or has just been in one. -/
def cycled? : Watch → Option Nat
  | .cycling seen _ | .waiting seen _ => some seen
  | _ => none

/-- The loop is on its way to a cycle. -/
def alert : Watch → Bool
  | .poised _ _ | .draining _ _ => true
  | _ => false

end Watch

/-- A scheduler loop among others who write to its view. Writes to the view are known by their
numbers. -/
structure Vigil where
  forest : Forest
  /-- Writes that have taken effect and whose notifications are still to be sent. -/
  unsent : List Nat := []
  /-- The notifications that have been sent, in order. -/
  sent : List Nat := []
  loop : Watch := .outside

namespace Vigil

section Steps

variable (a : Algorithm) (v : ViewId)

/-- The forest has changed, and its new writes have not been reported. -/
def become (s : Vigil) (f : Forest) (loop : Watch) : Vigil where
  forest := f
  unsent := s.unsent ++ List.range' (s.forest.writes v) (f.writes v - s.forest.writes v)
  sent := s.sent
  loop

/-- Everything that may come next, other than a cycle. Whoever has made a write, the loop itself
included, sends its notification some time later. -/
inductive Step : Vigil → Vigil → Prop where
  | move (s : Vigil) (m : Move) : Step s (s.become v (s.forest.move m) s.loop)
  | send {s : Vigil} {i : Nat} (due : i ∈ s.unsent) :
      Step s { s with unsent := s.unsent.erase i, sent := s.sent ++ [i] }
  | subscribe {s : Vigil} (outside : s.loop = .outside) :
      Step s { s with loop := .subscribed s.sent.length }
  | ready {s : Vigil} {seen : Nat} {nodes : List Node} (subscribed : s.loop = .subscribed seen)
      (listed : s.forest.nodes v = .ok nodes) : Step s { s with loop := .poised seen {} }
  | refuse {s : Vigil} {seen : Nat} {e : ViewError} (subscribed : s.loop = .subscribed seen)
      (failed : s.forest.nodes v = .error e) : Step s { s with loop := .ended }
  | call {s : Vigil} {seen : Nat} {c : Call} {next : c.Answer → Program (CycleMemory × CycleEnd)}
      (cycling : s.loop = .cycling seen (.call c next)) :
      Step s (s.become v (c.perform s.forest v).1 (.cycling seen (next (c.perform s.forest v).2)))
  | finish {s : Vigil} {seen : Nat} {memory : CycleMemory} {ending : CycleEnd}
      (cycling : s.loop = .cycling seen (.done (memory, ending)))
      (goes : SchedulerLoop.phaseAfter ending = .running) :
      Step s { s with loop := .waiting seen memory }
  | die {s : Vigil} {seen : Nat} {memory : CycleMemory} {ending : CycleEnd}
      (cycling : s.loop = .cycling seen (.done (memory, ending)))
      (ends : SchedulerLoop.phaseAfter ending ≠ .running) : Step s { s with loop := .ended }
  | receive {s : Vigil} {seen n : Nat} {memory : CycleMemory}
      (waiting : s.loop = .waiting seen memory)
      (got : .next s.sent.length seen = Receipt.change n ∨
        .next s.sent.length seen = Receipt.lagged n) : Step s { s with loop := .draining n memory }
  | drain {s : Vigil} {seen n : Nat} {memory : CycleMemory}
      (draining : s.loop = .draining seen memory)
      (got : .next s.sent.length seen = Receipt.change n) :
      Step s { s with loop := .draining n memory }
  /-- A lag is an error too: it ends the draining, whatever is still there. -/
  | lag {s : Vigil} {seen n : Nat} {memory : CycleMemory}
      (draining : s.loop = .draining seen memory)
      (got : .next s.sent.length seen = Receipt.lagged n) :
      Step s { s with loop := .poised n memory }
  | drained {s : Vigil} {seen : Nat} {memory : CycleMemory}
      (draining : s.loop = .draining seen memory)
      (got : .next s.sent.length seen = Receipt.nothing) :
      Step s { s with loop := .poised seen memory }
  | resync {s : Vigil} {seen : Nat} {memory : CycleMemory}
      (waiting : s.loop = .waiting seen memory) : Step s { s with loop := .poised seen memory }
  /-- It is told to stop, or its token has ended. -/
  | leave {s : Vigil} {seen : Nat} {memory : CycleMemory}
      (waiting : s.loop = .waiting seen memory) : Step s { s with loop := .ended }

/-- A cycle begins, with all of its listings to come. -/
inductive Begins : Vigil → Vigil → Prop where
  | mk {s : Vigil} {seen : Nat} {memory : CycleMemory} (poised : s.loop = .poised seen memory) :
      Begins s { s with loop := .cycling seen (a.cycle memory) }

/-- What there may be in the end. -/
def Reaches : Vigil → Vigil → Prop := Relation.ReflTransGen fun s s' => Begins a s s' ∨ Step v s s'

/-- What there may be before another cycle begins. -/
def Within : Vigil → Vigil → Prop := Relation.ReflTransGen (Step v)

end Steps

section Invariants

variable {a : Algorithm} {v : ViewId} {s s' s₀ x : Vigil} {seen n k : Nat} {memory : CycleMemory}

theorem le_of_next_change {sent : Nat} (got : .next sent seen = Receipt.change n) :
    seen < n ∧ n ≤ sent := by
  grind [Receipt.next]

theorem le_of_next_lagged {sent : Nat} (got : .next sent seen = Receipt.lagged n) :
    seen < n ∧ n ≤ sent := by
  grind [Receipt.next]

theorem le_of_next_nothing {sent : Nat} (got : .next sent seen = Receipt.nothing) :
    sent ≤ seen := by
  grind [Receipt.next]

/-- No write is reported before it has taken effect, and nothing is received before it is sent. -/
structure Sound (v : ViewId) (s : Vigil) : Prop where
  sent : ∀ i ∈ s.sent, i < s.forest.writes v
  unsent : ∀ i ∈ s.unsent, i < s.forest.writes v
  seen : ∀ n ∈ s.loop.seen?, n ≤ s.sent.length

/-- A change of the forest, after which its new writes are still to be reported. -/
theorem Sound.become (sound : Sound v s) {f : Forest} (grows : s.forest.writes v ≤ f.writes v)
    (loop : Watch) (seen : ∀ n ∈ loop.seen?, n ≤ s.sent.length) :
    Sound v (s.become v f loop) where
  sent i hi := Nat.lt_of_lt_of_le (sound.sent i hi) grows
  unsent i hi := by
    obtain old | new := List.mem_append.mp hi
    · exact Nat.lt_of_lt_of_le (sound.unsent i old) grows
    · have := (List.mem_range'_1.mp new).2
      change i < f.writes v
      omega
  seen := seen

/-- Only the loop has moved. -/
theorem Sound.loop (sound : Sound v s) (loop : Watch) (seen : ∀ n ∈ loop.seen?, n ≤ s.sent.length) :
    Sound v { s with loop } :=
  ⟨sound.sent, sound.unsent, seen⟩

theorem Step.sound (step : Step v s s') (sound : Sound v s) : Sound v s' := by
  have received {loop : Watch} (h : s.loop = loop) (n : Nat) (hn : n ∈ loop.seen?) :
      n ≤ s.sent.length := sound.seen n (h ▸ hn)
  cases step with
  | move m => exact sound.become (Forest.writes_move_le _ m v) s.loop sound.seen
  | @send i due =>
    refine ⟨fun j hj => ?_, fun j hj => sound.unsent j (List.mem_of_mem_erase hj), fun n hn => ?_⟩
    · obtain old | new := List.mem_append.mp hj
      · exact sound.sent j old
      · rw [List.mem_singleton.mp new]
        exact sound.unsent i due
    · rw [List.length_append]
      exact Nat.le_add_right_of_le (sound.seen n hn)
  | subscribe outside =>
    refine sound.loop _ ?_
    rintro _ ⟨⟩
    exact Nat.le_refl _
  | ready h | drained h | finish h | resync h =>
    refine sound.loop _ ?_
    rintro _ ⟨⟩
    exact received h _ rfl
  | refuse | die | leave => exact sound.loop _ nofun
  | call h =>
    refine sound.become (Forest.writes_perform_le _ v _) _ ?_
    rintro _ ⟨⟩
    exact received h _ rfl
  | receive h got =>
    refine sound.loop _ ?_
    rintro _ ⟨⟩
    exact got.elim (fun got => (le_of_next_change got).2) fun got => (le_of_next_lagged got).2
  | drain h got =>
    refine sound.loop _ ?_
    rintro _ ⟨⟩
    exact (le_of_next_change got).2
  | lag h got =>
    refine sound.loop _ ?_
    rintro _ ⟨⟩
    exact (le_of_next_lagged got).2

theorem Begins.sound (begins : Begins a s s') (sound : Sound v s) : Sound v s' := by
  cases begins with
  | mk poised =>
    refine sound.loop _ ?_
    rintro _ ⟨⟩
    exact sound.seen _ (by rw [poised]; rfl)

theorem Reaches.sound (reaches : Reaches a v s s') (sound : Sound v s) : Sound v s' := by
  induction reaches with
  | refl => exact sound
  | tail _ next ih => exact next.elim (·.sound ih) (·.sound ih)

/-- What has been sent is not taken back. -/
theorem Step.sent_prefix (step : Step v s s') : s.sent <+: s'.sent := by
  cases step with
  | send due => exact List.prefix_append _ _
  | _ => exact List.prefix_refl _

/-- On its way to a cycle a loop does nothing else. -/
theorem Step.alert (step : Step v s s') (alert : s.loop.alert) : s'.loop.alert := by
  cases step with
  | move | send => exact alert
  | drain | lag | drained => rfl
  | subscribe h | ready h | refuse h | call h | finish h | die h | receive h | resync h | leave h =>
    rw [h] at alert
    cases alert

/-- Whoever has subscribed stays so until the loop ends. -/
theorem Step.subscribed (step : Step v s s') (inside : s.loop ≠ .outside) : s'.loop ≠ .outside := by
  cases step with
  | move | send => exact inside
  | _ => nofun

/-- A loop that has received more than before is on its way to a cycle. -/
theorem Step.alert_or_seen (step : Step v s s') (inside : s.loop ≠ .outside)
    (seen : s'.loop.seen? = some n) : s'.loop.alert ∨ s.loop.seen? = some n := by
  cases step with
  | move | send => exact .inr seen
  | subscribe h => exact absurd h inside
  | refuse | die | leave => cases seen
  | receive | drain | lag | drained | resync | ready => exact .inl rfl
  | finish h | call h =>
    rw [h]
    exact .inr seen

end Invariants

/-- All that a loop has received took effect before its last cycle began. -/
def Informed (a : Algorithm) (v : ViewId) (s₀ s : Vigil) (seen : Nat) : Prop :=
  ∃ b b', Reaches a v s₀ b ∧ Begins a b b' ∧ Within v b' s ∧
    ∀ i ∈ s.sent.take seen, i < b.forest.writes v

section Runs

variable {a : Algorithm} {v : ViewId} {s s' s₀ x : Vigil} {n k i : Nat}

theorem Informed.step (informed : Informed a v s₀ s n) (step : Step v s s')
    (received : n ≤ s.sent.length) : Informed a v s₀ s' n := by
  obtain ⟨b, b', before, begins, within, seen⟩ := informed
  obtain ⟨new, grown⟩ := step.sent_prefix
  refine ⟨b, b', before, begins, within.tail step, ?_⟩
  rwa [← grown, List.take_append_of_le_length received]

theorem cycled_le_seen (h : n ∈ s.loop.cycled?) : n ∈ s.loop.seen? := by
  revert h
  cases s.loop <;> simp [Watch.cycled?, Watch.seen?]

theorem Step.informed (step : Step v s s') (sound : Sound v s)
    (informed : ∀ n ∈ s.loop.cycled?, Informed a v s₀ s n) :
    ∀ n ∈ s'.loop.cycled?, Informed a v s₀ s' n := by
  have kept (n : Nat) (h : n ∈ s.loop.cycled?) : Informed a v s₀ s' n :=
    (informed n h).step step (sound.seen n (cycled_le_seen h))
  cases step with
  | move | send => exact kept
  | call h | finish h =>
    rintro _ ⟨⟩
    exact kept _ (by rw [h]; rfl)
  | _ => nofun

/-- A loop that is in a cycle, or waits for a reason for the next, knew at the beginning of the
cycle of all that it has received. -/
theorem Reaches.informed (reaches : Reaches a v s₀ s) (sound : Sound v s₀)
    (outside : s₀.loop = .outside) : ∀ n ∈ s.loop.cycled?, Informed a v s₀ s n := by
  induction reaches with
  | refl => simp [outside, Watch.cycled?]
  | @tail s s' reaches next ih =>
    have sound := Reaches.sound reaches sound
    obtain begins | step := next
    · rintro n h
      refine ⟨s, s', reaches, begins, .refl, fun i hi => sound.sent i ?_⟩
      cases begins with
      | mk poised => exact List.mem_of_mem_take hi
    · exact step.informed sound ih

/-- A cycle has begun since, when the write had taken effect. -/
def Followed (a : Algorithm) (v : ViewId) (x s : Vigil) (i : Nat) : Prop :=
  ∃ b b', Reaches a v x b ∧ Begins a b b' ∧ Reaches a v b' s ∧ i < b.forest.writes v

theorem Followed.next {i : Nat} (followed : Followed a v x s i)
    (next : Begins a s s' ∨ Step v s s') : Followed a v x s' i := by
  obtain ⟨b, b', before, begins, after, known⟩ := followed
  exact ⟨b, b', before, begins, after.tail next, known⟩

/-- What has been received since some moment leads to a cycle that knows of it. -/
theorem Reaches.followed (reaches : Reaches a v x s) (sound : Sound v x)
    (inside : x.loop ≠ .outside) (behind : ∀ n ∈ x.loop.seen?, n ≤ k) :
    s.loop ≠ .outside ∧ ∀ n ∈ s.loop.seen?, k < n → ∀ i ∈ s.sent[k]?,
      s.loop.alert ∨ Followed a v x s i := by
  induction reaches with
  | refl => exact ⟨inside, fun n seen past => absurd (behind n seen) (Nat.not_le_of_lt past)⟩
  | @tail s s' reaches next ih =>
    have sound := Reaches.sound reaches sound
    obtain ⟨inside, received⟩ := ih
    obtain begins | step := next
    · refine ⟨?_, fun n seen past i sent => ?_⟩
      · cases begins
        nofun
      · -- A cycle that begins knows of all that has been sent.
        refine .inr ⟨s, s', reaches, begins, .refl, sound.sent i ?_⟩
        cases begins
        exact List.mem_of_getElem? sent
    · refine ⟨step.subscribed inside, fun n seen past i sent => ?_⟩
      obtain alert | same := step.alert_or_seen inside seen
      · exact .inl alert
      · -- Nothing more has been received, so that the notification was there before the step.
        have there : k < s.sent.length := Nat.lt_of_lt_of_le past (sound.seen n same)
        obtain ⟨new, grown⟩ := step.sent_prefix
        rw [← grown, List.getElem?_append_left there] at sent
        obtain alert | followed := received n same past i sent
        · exact .inl (step.alert alert)
        · exact .inr (followed.next (.inr step))

theorem Within.alert (within : Within v x s) (alert : x.loop.alert) : s.loop.alert := by
  induction within with
  | refl => exact alert
  | tail _ step ih => exact step.alert ih

end Runs

/-- No change that a loop is told of is forgotten. -/
structure Wakeful (a : Algorithm) (v : ViewId) (s₀ : Vigil) : Prop where
  /-- When it waits and nothing is there to be received, every write whose notification has been
  sent, so also every one that was reported to it, took effect before the last cycle began. -/
  informed : ∀ s seen memory, Reaches a v s₀ s → s.loop = .waiting seen memory →
    .next s.sent.length seen = Receipt.nothing →
      ∃ b b', Reaches a v s₀ b ∧ Begins a b b' ∧ Within v b' s ∧ ∀ i ∈ s.sent, i < b.forest.writes v
  /-- A notification that it has received, thrown away or missed since some moment is followed by a
  cycle that begins with the write in effect, unless that cycle is what comes next. -/
  followed : ∀ x s k i, Reaches a v s₀ x → Reaches a v x s → (∃ n ∈ x.loop.seen?, n ≤ k) →
    (∃ n ∈ s.loop.seen?, k < n) → s.sent[k]? = some i → s.loop.alert ∨ Followed a v x s i
  /-- On its way to a cycle it neither waits nor ends. -/
  alert : ∀ x s, Reaches a v s₀ x → x.loop.alert → Within v x s → s.loop.alert

/-- However many others write to the view, and whatever they and the loop do in between. -/
theorem wakeful (a : Algorithm) {v : ViewId} {s₀ : Vigil} (sound : Sound v s₀)
    (outside : s₀.loop = .outside) : Wakeful a v s₀ where
  informed s seen memory reaches waiting nothing := by
    have received : s.sent.take seen = s.sent := List.take_of_length_le (le_of_next_nothing nothing)
    have informed := reaches.informed sound outside seen (by rw [waiting]; rfl)
    rwa [Informed, received] at informed
  followed x s k i before after behind past sent := by
    obtain ⟨m, seen, le⟩ := behind
    obtain ⟨n, seen', lt⟩ := past
    have inside : x.loop ≠ .outside := by
      rintro outside
      rw [outside] at seen
      cases seen
    have behind (n : Nat) (h : n ∈ x.loop.seen?) : n ≤ k := Option.mem_unique h seen ▸ le
    exact (after.followed (before.sound sound) inside behind).2 n seen' lt i sent
  alert x s _ alert within := within.alert alert

section AtOnce

variable {a : Algorithm} {v : ViewId} {f : Forest} {l : SchedulerLoop} {s : Vigil}
  {seen n now : Nat} {memory : CycleMemory} {tokens : TokenForest} {token : TokenId} {resync : Nat}

/-- All writes have been reported, in their order. -/
def settled (v : ViewId) (f : Forest) (loop : Watch) : Vigil :=
  { forest := f, sent := List.range (f.writes v), loop }

/-- A loop that runs in one go, between two of its moments. -/
def ofLoop (f : Forest) (l : SchedulerLoop) : Vigil :=
  settled l.view f (if l.isRunning then .waiting l.watcher.seen l.memory else .ended)

theorem sound_settled {loop : Watch} (seen : ∀ n ∈ loop.seen?, n ≤ f.writes v) :
    Sound v (settled v f loop) :=
  ⟨fun i hi => List.mem_range.mp hi, by simp [settled], by simpa [settled] using seen⟩

/-- Writes that have just taken effect are reported one after another. -/
theorem reaches_sendAll (a : Algorithm) (v : ViewId) (s : Vigil) :
    Reaches a v s { s with unsent := [], sent := s.sent ++ s.unsent } := by
  obtain ⟨f, unsent, sent, loop⟩ := s
  induction unsent generalizing sent with
  | nil =>
    rw [List.append_nil]
    exact .refl
  | cons i rest ih =>
    have next := ih (sent ++ [i])
    simp only [List.append_assoc, List.singleton_append] at next
    refine .head (.inr ?_) next
    have sends := Step.send (v := v) (s := ⟨f, i :: rest, sent, loop⟩) (List.mem_cons_self ..)
    simpa using sends

/-- A change of the forest whose new writes are reported at once. -/
theorem reaches_become {f g : Forest} {loop loop' : Watch} (grows : f.writes v ≤ g.writes v)
    (step : Step v (settled v f loop) ((settled v f loop).become v g loop')) :
    Reaches a v (settled v f loop) (settled v g loop') := by
  refine .head (.inr step) ?_
  have told : List.range (f.writes v) ++ List.range' (f.writes v) (g.writes v - f.writes v) =
      List.range (g.writes v) := by
    have all := List.range'_append_1 (s := 0) (m := f.writes v) (n := g.writes v - f.writes v)
    rwa [Nat.zero_add, Nat.add_sub_cancel' grows, ← List.range_eq_range',
      ← List.range_eq_range'] at all
  have sends := reaches_sendAll a v ((settled v f loop).become v g loop')
  rwa [become, settled, List.nil_append, told] at sends

/-- A program that makes all its calls in one go. -/
theorem reaches_run (p : Program (CycleMemory × CycleEnd)) (f : Forest) :
    Reaches a v (settled v f (.cycling seen p))
      (settled v (p.run f v).1 (.cycling seen (.done (p.run f v).2))) := by
  induction p generalizing f with
  | done r => exact .refl
  | call c next ih =>
    refine Relation.ReflTransGen.trans ?_ (ih (c.perform f v).2 (c.perform f v).1)
    exact reaches_become (Forest.writes_perform_le f v c) (.call rfl)

/-- A whole cycle, from its beginning on. -/
theorem reaches_runCycle (a : Algorithm) (f : Forest) (memory : CycleMemory) :
    Reaches a v (settled v f (.poised seen memory))
      (settled v (a.runCycle f v memory).1
        (if SchedulerLoop.phaseAfter (a.runCycle f v memory).2.2 = .running
          then .waiting seen (a.runCycle f v memory).2.1 else .ended)) := by
  refine .head (.inl (.mk rfl)) ((reaches_run (a.cycle memory) f).tail (.inr ?_))
  split
  · rename_i goes
    exact .finish rfl goes
  · rename_i ends
    exact .die rfl ends

/-- All that is there is thrown away. -/
theorem reaches_drained (a : Algorithm) (fresh : f.writes v - Watcher.kept ≤ seen)
    (known : seen ≤ f.writes v) :
    Reaches a v (settled v f (.draining seen memory))
      (settled v f (.poised (f.writes v) memory)) := by
  induction left : f.writes v - seen generalizing seen with
  | zero =>
    obtain rfl : seen = f.writes v := by omega
    refine .single (.inr (.drained rfl ?_))
    simp [settled, Receipt.next]
  | succ left ih =>
    have rest : Reaches a v (settled v f (.draining (seen + 1) memory))
        (settled v f (.poised (f.writes v) memory)) := ih (by omega) (by omega) (by omega)
    refine .head (.inr ?_) rest
    refine .drain rfl ?_
    rw [settled, List.length_range, Receipt.next, if_neg (by omega), if_pos (by omega)]

/-- A loop that waits for changes, and has some to receive, receives them all. -/
theorem reaches_poised (a : Algorithm) (unread : seen < f.writes v) :
    Reaches a v (settled v f (.waiting seen memory))
      (settled v f (.poised (f.writes v) memory)) := by
  by_cases late : seen < f.writes v - Watcher.kept
  · refine .head (.inr (.receive rfl (.inr ?_))) (reaches_drained a (Nat.le_refl _) (Nat.sub_le ..))
    rw [settled, List.length_range, Receipt.next, if_pos late]
  · have fresh : f.writes v - Watcher.kept ≤ seen + 1 := by omega
    refine .head (.inr (.receive rfl (.inl ?_))) (reaches_drained a fresh unread)
    rw [settled, List.length_range, Receipt.next, if_neg late, if_pos unread]

/-- What the loop has seen is a part of what its view has sent. -/
structure Watching (f : Forest) (l : SchedulerLoop) : Prop where
  view : l.watcher.view = l.view
  seen : l.watcher.seen ≤ f.writes l.view

theorem writes_runCycle_le (a : Algorithm) (f : Forest) (v : ViewId) (memory : CycleMemory) :
    f.writes v ≤ (a.runCycle f v memory).1.writes v :=
  (Forest.deeds_run (a.cycle memory) f v).writes_le v

theorem watching_cycle (a : Algorithm) (now : Nat) (f : Forest) (l : SchedulerLoop) :
    Watching (l.cycle a now f).1 (l.cycle a now f).2 :=
  ⟨rfl, writes_runCycle_le a f l.view l.memory⟩

theorem ofLoop_cycle (a : Algorithm) (now : Nat) (f : Forest) (l : SchedulerLoop) :
    ofLoop (l.cycle a now f).1 (l.cycle a now f).2 = settled l.view (a.runCycle f l.view l.memory).1
      (if SchedulerLoop.phaseAfter (a.runCycle f l.view l.memory).2.2 = .running
        then .waiting (f.writes l.view) (a.runCycle f l.view l.memory).2.1 else .ended) := by
  simp [ofLoop, SchedulerLoop.cycle, SchedulerLoop.isRunning, Watcher.subscribe, Forest.writes]

/-- A cycle, for whatever reason. -/
theorem reaches_cycle (watching : Watching f l) (running : l.isRunning) :
    Reaches a l.view (ofLoop f l) (ofLoop (l.cycle a now f).1 (l.cycle a now f).2) := by
  rw [ofLoop_cycle, ofLoop, if_pos running]
  refine Relation.ReflTransGen.trans ?_ (reaches_runCycle a f l.memory)
  obtain unread | all := Nat.lt_or_eq_of_le watching.seen
  · exact reaches_poised a unread
  · rw [← all]
    exact .single (.inr (.resync rfl))

/-- All that a loop does at one moment. -/
theorem reaches_settle (fuel : Nat) (watching : Watching f l) :
    Reaches a l.view (ofLoop f l)
      (ofLoop (l.settle a tokens now fuel f).1 (l.settle a tokens now fuel f).2) := by
  induction fuel generalizing f l with
  | zero => exact .refl
  | succ fuel ih =>
    rw [SchedulerLoop.settle]
    split
    · exact .refl
    · rename_i running
      split
      · refine .single (.inr ?_)
        rw [ofLoop, if_pos (by simpa using running)]
        exact .leave rfl
      · split
        · exact (reaches_cycle watching (by simpa using running)).trans
            (ih (watching_cycle a now f l))
        · exact .refl

theorem reaches_turn (watching : Watching f l) :
    Reaches a l.view (ofLoop f l)
      (ofLoop (l.turn a tokens now f).1 (l.turn a tokens now f).2) :=
  reaches_settle _ watching

/-- A loop that is started on a view that can be listed, until it waits. -/
theorem reaches_start {nodes : List Node} (listed : f.nodes v = .ok nodes) :
    Reaches a v (settled v f .outside)
      (ofLoop (SchedulerLoop.start a tokens now f v token resync).1
        (SchedulerLoop.start a tokens now f v token resync).2) := by
  let l : SchedulerLoop := { view := v, token, resync, watcher := .subscribe f v, due := now }
  have cycled :
    Reaches a v (settled v f .outside) (ofLoop (l.cycle a now f).1 (l.cycle a now f).2) := by
    rw [ofLoop_cycle]
    refine .head (.inr (.subscribe rfl)) (.head (.inr (.ready rfl listed)) ?_)
    rw [settled, List.length_range]
    exact reaches_runCycle a f {}
  exact cycled.trans (reaches_turn (watching_cycle a now f l))

/-- Something that others do, of which the watchers are told at once. -/
theorem reaches_move (a : Algorithm) (f : Forest) (l : SchedulerLoop) (m : Move) :
    Reaches a l.view (ofLoop f l) (ofLoop (f.move m) l) :=
  reaches_become (Forest.writes_move_le f m l.view) (.move _ m)

/-- A loop that has been started, and what has become of it and of its view after turns of the loop
and doings of others, in any order. -/
inductive Kept (a : Algorithm) (v : ViewId) (f₀ : Forest) : Forest → SchedulerLoop → Prop where
  | start {nodes : List Node} (tokens : TokenForest) (now : Nat) (token : TokenId) (resync : Nat)
      (listed : f₀.nodes v = .ok nodes) : Kept a v f₀
        (SchedulerLoop.start a tokens now f₀ v token resync).1
        (SchedulerLoop.start a tokens now f₀ v token resync).2
  | move {f : Forest} {l : SchedulerLoop} (m : Move) (kept : Kept a v f₀ f l) :
      Kept a v f₀ (f.move m) l
  | turn {f : Forest} {l : SchedulerLoop} (tokens : TokenForest) (now : Nat)
      (kept : Kept a v f₀ f l) : Kept a v f₀ (l.turn a tokens now f).1 (l.turn a tokens now f).2

theorem watching_settle (fuel : Nat) (watching : Watching f l) :
    Watching (l.settle a tokens now fuel f).1 (l.settle a tokens now fuel f).2 ∧
      (l.settle a tokens now fuel f).2.view = l.view := by
  induction fuel generalizing f l with
  | zero => exact ⟨watching, rfl⟩
  | succ fuel ih =>
    rw [SchedulerLoop.settle]
    split
    · exact ⟨watching, rfl⟩
    · split
      · exact ⟨⟨watching.view, watching.seen⟩, rfl⟩
      · split
        · exact ih (watching_cycle a now f l)
        · exact ⟨watching, rfl⟩

theorem Kept.watching {f₀ : Forest} (kept : Kept a v f₀ f l) : Watching f l ∧ l.view = v := by
  induction kept with
  | start tokens now token resync listed => exact watching_settle _ (watching_cycle a now f₀ _)
  | move m _ ih =>
    obtain ⟨watching, rfl⟩ := ih
    exact ⟨⟨watching.view, Nat.le_trans watching.seen (Forest.writes_move_le _ m _)⟩, rfl⟩
  | turn tokens now _ ih =>
    obtain ⟨watching, rfl⟩ := ih
    exact watching_settle _ watching

theorem Kept.reaches {f₀ : Forest} (kept : Kept a v f₀ f l) :
    Reaches a v (settled v f₀ .outside) (ofLoop f l) := by
  induction kept with
  | start tokens now token resync listed => exact reaches_start listed
  | move m kept ih =>
    obtain ⟨-, rfl⟩ := kept.watching
    exact ih.trans (reaches_move a _ _ m)
  | turn tokens now kept ih =>
    obtain ⟨watching, rfl⟩ := kept.watching
    exact ih.trans (reaches_turn watching)

/-- A loop that has nothing unread began its last cycle with every write to its view in effect. -/
theorem Kept.informed {f₀ : Forest} (kept : Kept a v f₀ f l) (running : l.isRunning)
    (quiet : l.watcher.unread f = false) : ∃ b b', Reaches a v (settled v f₀ .outside) b ∧
      Begins a b b' ∧ Within v b' (ofLoop f l) ∧ f.writes v ≤ b.forest.writes v := by
  obtain ⟨watching, rfl⟩ := kept.watching
  have waits : (ofLoop f l).loop = .waiting l.watcher.seen l.memory := by
    rw [ofLoop, if_pos running]
    rfl
  obtain ⟨b, b', before, begins, within, known⟩ := kept.reaches.informed (sound_settled nofun) rfl
    l.watcher.seen (by rw [waits]; rfl)
  refine ⟨b, b', before, begins, within, ?_⟩
  have all : f.writes l.view ≤ l.watcher.seen := by
    simpa [Watcher.unread, watching.view, Forest.writes] using quiet
  by_contra missing
  refine Nat.lt_irrefl _ (known (b.forest.writes l.view) ?_)
  rw [List.take_of_length_le (by simpa [ofLoop, settled] using all)]
  exact List.mem_range.mpr (Nat.lt_of_not_le missing)

end AtOnce

/-- Packing starts on an empty view; a node is added, and the loop has its turn. -/
def nodeAdded (o : ClusterObject) : Forest × SchedulerLoop :=
  let started := SchedulerLoop.start BinPack.algorithm {} 0 (Forest.replay ∅ [.base "base"]) 0 0 50
  started.2.turn BinPack.algorithm {} 0 (started.1.move (.ask 0 (.edit (.create o))))

theorem wakeful_nodeAdded : ∃ b b',
    Reaches BinPack.algorithm 0 (settled 0 (Forest.replay ∅ [.base "base"]) .outside) b ∧
      Begins BinPack.algorithm b b' ∧
      Within 0 b' (ofLoop (nodeAdded Forest.plainNode).1 (nodeAdded Forest.plainNode).2) ∧
      0 < b.forest.writes 0 := by
  have listed : (Forest.replay ∅ [.base "base"]).nodes 0 = .ok [] := by decide +kernel
  have kept : Kept BinPack.algorithm 0 (Forest.replay ∅ [.base "base"])
      (nodeAdded Forest.plainNode).1 (nodeAdded Forest.plainNode).2 :=
    .turn {} 0 (.move _ (.start {} 0 0 50 listed))
  have running : (nodeAdded Forest.plainNode).2.isRunning = true := by decide +kernel
  have wakes : Wakeful BinPack.algorithm 0 (settled 0 (Forest.replay ∅ [.base "base"]) .outside) :=
    wakeful BinPack.algorithm (sound_settled nofun) rfl
  obtain ⟨b, b', before, begins, within, known⟩ := wakes.informed _
    (nodeAdded Forest.plainNode).2.watcher.seen (nodeAdded Forest.plainNode).2.memory kept.reaches
    (by rw [ofLoop, if_pos running]; rfl) (by decide +kernel)
  exact ⟨b, b', before, begins, within, known 0 (by decide +kernel)⟩

end Vigil

end ScaleAdvisor
