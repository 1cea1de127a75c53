import Mathlib.Data.List.Basic
import ScaleAdvisor.Proofs.Simulation.Deadlines

/-!
Trees of tokens. Tokens are made one after another, some of them below others and some with a time
limit, while tokens are cancelled and the clock goes on. All that is true of them can be read off
what was done, in its order.

* `Played`: what can be done to tokens, and what has become of them;
* `Played.faithful`: every token is what it was made as, and is marked if it was cancelled itself;
* `Faithful.isCancelled_iff`: it is over if one in the line from it upwards was cancelled or is
  overdue;
* `Played.tree`: what cancellations and time limits do to a tree of tokens.
-/

namespace ScaleAdvisor

/-- Something done to tokens, or to the clock that they go by. -/
inductive TokenMove where
  | root
  | child (parent : TokenId)
  /-- A child that ends by itself after some milliseconds. -/
  | childWithTimeout (parent : TokenId) (timeout : Nat) (cause : String)
  | cancel (token : TokenId) (cause : String)
  /-- Some milliseconds pass. -/
  | wait (ms : Nat)

/-- Tokens at a time. -/
structure TokenClock where
  now : Nat := 0
  tokens : TokenForest := {}

namespace TokenMove

/-- The token that is spoken of. -/
def about : TokenMove → Option TokenId
  | .child parent | .childWithTimeout parent _ _ => some parent
  | .cancel token _ => some token
  | .root | .wait _ => none

def apply (s : TokenClock) : TokenMove → TokenClock
  | .root => { s with tokens := s.tokens.root.1 }
  | .child parent => { s with tokens := (s.tokens.child parent).1 }
  | .childWithTimeout parent timeout cause =>
    { s with tokens := (s.tokens.childWithDeadline parent ⟨s.now + timeout, cause⟩).1 }
  | .cancel token cause => { s with tokens := s.tokens.cancel token cause }
  | .wait ms => { s with now := s.now + ms }

end TokenMove

namespace TokenClock

def isCancelled (s : TokenClock) (t : TokenId) : Bool := s.tokens.isCancelled s.now t

def deadlineExpired (s : TokenClock) (t : TokenId) : Bool := s.tokens.deadlineExpired s.now t

end TokenClock

namespace Tokens

/-- What has been done from the beginning on, only ever to tokens that were there, and what has
become of them. -/
inductive Played : List TokenMove → TokenClock → Prop where
  | start : Played [] {}
  | move {moves : List TokenMove} {s : TokenClock} {m : TokenMove} (played : Played moves s)
      (known : ∀ t ∈ m.about, t < s.tokens.tokens.size) : Played (moves ++ [m]) (m.apply s)

/-- How a token was made. -/
structure Birth where
  parent : Option TokenId := none
  /-- The time set for its end. -/
  due : Option Nat := none

/-- The time that has passed. -/
def elapsed : List TokenMove → Nat
  | [] => 0
  | .wait ms :: moves => ms + elapsed moves
  | _ :: moves => elapsed moves

/-- How the tokens were made, in the order in which they were, given the time at the beginning. -/
def births (now : Nat) : List TokenMove → List Birth
  | [] => []
  | .root :: moves => {} :: births now moves
  | .child parent :: moves => { parent := some parent } :: births now moves
  | .childWithTimeout parent timeout _ :: moves =>
    { parent := some parent, due := some (now + timeout) } :: births now moves
  | .cancel _ _ :: moves => births now moves
  | .wait ms :: moves => births (now + ms) moves

def birth (moves : List TokenMove) (t : TokenId) : Birth := ((births 0 moves)[t]?).getD {}

/-- The token itself was cancelled. -/
def Struck (moves : List TokenMove) (t : TokenId) : Prop := ∃ cause, .cancel t cause ∈ moves

/-- The token's own time limit has been reached. -/
def Overdue (moves : List TokenMove) (t : TokenId) : Prop :=
  ∃ time ∈ (birth moves t).due, time ≤ elapsed moves

/-- The second token is the first, or its parent, or the parent of that, and so on. -/
inductive Line (moves : List TokenMove) : TokenId → TokenId → Prop where
  | self (t : TokenId) : Line moves t t
  | up {t p u : TokenId} (parent : (birth moves t).parent = some p) (higher : Line moves p u) :
      Line moves t u

/-- The second token is an ancestor of the first. -/
def Above (moves : List TokenMove) (t u : TokenId) : Prop :=
  ∃ p, (birth moves t).parent = some p ∧ Line moves p u

section History

variable {moves later : List TokenMove} {m : TokenMove} {t u w : TokenId}

theorem elapsed_append (moves later : List TokenMove) :
    elapsed (moves ++ later) = elapsed moves + elapsed later := by
  induction moves with
  | nil => simp [elapsed]
  | cons m moves ih => cases m <;> simp [elapsed, ih, Nat.add_assoc]

theorem births_append (now : Nat) (moves later : List TokenMove) :
    births now (moves ++ later) = births now moves ++ births (now + elapsed moves) later := by
  induction moves generalizing now with
  | nil => simp [births, elapsed]
  | cons m moves ih => cases m <;> simp [births, elapsed, ih, Nat.add_assoc]

/-- How a token was made is settled once it is there. -/
theorem birth_append (there : t < (births 0 moves).length) :
    birth (moves ++ later) t = birth moves t := by
  rw [birth, births_append, List.getElem?_append_left there, birth]

theorem birth_eq_default (missing : (births 0 moves).length ≤ t) : birth moves t = {} := by
  rw [birth, List.getElem?_eq_none missing, Option.getD_none]

/-- A move that makes no token changes none. -/
theorem births_append_nil (made : births (elapsed moves) [m] = []) :
    births 0 (moves ++ [m]) = births 0 moves := by
  rw [births_append, Nat.zero_add, made, List.append_nil]

theorem birth_append_nil (made : births (elapsed moves) [m] = []) (t : TokenId) :
    birth (moves ++ [m]) t = birth moves t := by
  rw [birth, births_append_nil made, birth]

/-- A move that makes a token adds a place to the end. -/
theorem birth_append_new {b : Birth} (made : births (elapsed moves) [m] = [b]) (t : TokenId) :
    birth (moves ++ [m]) t = if t = (births 0 moves).length then b else birth moves t := by
  rw [birth, births_append, Nat.zero_add, made, birth]
  split
  · rename_i here
    simp [here]
  · rename_i other
    obtain old | beyond := Nat.lt_or_gt_of_ne other
    · rw [List.getElem?_append_left old]
    · rw [List.getElem?_eq_none (by simp; omega), List.getElem?_eq_none (by omega)]

theorem struck_append : Struck (moves ++ later) t ↔ Struck moves t ∨ Struck later t := by
  simp [Struck, exists_or]

theorem struck_cancel {cause : String} : Struck [.cancel u cause] t ↔ t = u := by
  simp [Struck]

/-- What has been made with a parent or a time limit has been made. -/
theorem lt_length_of_birth (made : birth moves t ≠ {}) : t < (births 0 moves).length := by
  by_contra missing
  exact made (birth_eq_default (Nat.le_of_not_lt missing))

theorem birth_append_of_parent {p : TokenId} (parent : (birth moves t).parent = some p) :
    (birth (moves ++ later) t).parent = some p := by
  rw [birth_append (lt_length_of_birth _), parent]
  intro none
  simp [none] at parent

theorem Overdue.append (overdue : Overdue moves t) : Overdue (moves ++ later) t := by
  obtain ⟨time, due, passed⟩ := overdue
  refine ⟨time, ?_, by rw [elapsed_append]; omega⟩
  rw [birth_append (lt_length_of_birth _)]
  · exact due
  · intro none
    simp [none] at due

theorem Line.append (line : Line moves t u) : Line (moves ++ later) t u := by
  induction line with
  | self t => exact .self t
  | up parent _ ih => exact .up (birth_append_of_parent parent) ih

theorem Line.of_append_nil (made : births (elapsed moves) [m] = [])
    (line : Line (moves ++ [m]) t u) : Line moves t u := by
  induction line with
  | self t => exact .self t
  | up parent _ ih =>
    rw [birth_append_nil made] at parent
    exact .up parent ih

theorem Line.trans (first : Line moves t u) (second : Line moves u w) : Line moves t w := by
  induction first with
  | self t => exact second
  | up parent _ ih => exact .up parent (ih second)

end History

/-- The tokens are what they were made as. -/
structure Faithful (moves : List TokenMove) (s : TokenClock) : Prop where
  now : s.now = elapsed moves
  size : (births 0 moves).length = s.tokens.tokens.size
  earlier : ∀ t p, (birth moves t).parent = some p → p < t
  orphan : ∀ t, (birth moves t).parent = none → (s.tokens.token t).above = []
  above : ∀ t p, (birth moves t).parent = some p →
    (s.tokens.token t).above = p :: (s.tokens.token p).above
  due : ∀ t, (s.tokens.token t).deadline.map (·.time) = (birth moves t).due
  struck : ∀ t, (s.tokens.token t).cause.isSome ↔ Struck moves t
  known : ∀ t, Struck moves t → t < s.tokens.tokens.size

section Steps

variable {moves : List TokenMove} {s : TokenClock} {m : TokenMove}

theorem token_add (f : TokenForest) (new : CancelToken) (t : TokenId) :
    (f.add new).1.token t = if t = f.tokens.size then new else f.token t := by
  rw [TokenForest.token, TokenForest.add, Array.getElem?_push]
  split <;> rfl

theorem token_cancel (f : TokenForest) (t u : TokenId) (cause : String)
    (known : t < f.tokens.size) :
    (f.cancel t cause).token u =
      if u = t then { f.token t with cause := (f.token t).cause.or (some cause) }
        else f.token u := by
  rw [TokenForest.token, TokenForest.cancel, Array.getElem?_modify]
  by_cases same : t = u
  · subst same
    rw [if_pos rfl, if_pos rfl, TokenForest.token, Array.getElem?_eq_getElem known]
    rfl
  · rw [if_neg same, if_neg (Ne.symm same), TokenForest.token]

theorem Faithful.start : Faithful [] {} where
  now := rfl
  size := rfl
  earlier := by simp [birth, births]
  orphan := fun _ _ => rfl
  above := by simp [birth, births]
  due := fun _ => rfl
  struck := by simp [TokenForest.token, Struck]
  known := by simp [Struck]

/-- A parent is an older token. -/
theorem Faithful.parent_lt (faithful : Faithful moves s) {t p : TokenId}
    (parent : (birth moves t).parent = some p) : p < s.tokens.tokens.size := by
  have there : t < (births 0 moves).length :=
    lt_length_of_birth (by rintro none; simp [none] at parent)
  exact Nat.lt_trans (faithful.earlier t p parent) (faithful.size ▸ there)

/-- One more token is made. It is the newest, so that it is put above no other. -/
theorem Faithful.add (faithful : Faithful moves s) {b : Birth} {new : CancelToken}
    (made : births (elapsed moves) [m] = [b]) (still : elapsed [m] = 0)
    (unstruck : ∀ t, ¬ Struck [m] t)
    (orphan : b.parent = none → new.above = [])
    (above : ∀ p, b.parent = some p →
      p < s.tokens.tokens.size ∧ new.above = p :: (s.tokens.token p).above)
    (due : new.deadline.map (·.time) = b.due) (uncancelled : new.cause = none) :
    Faithful (moves ++ [m]) { s with tokens := (s.tokens.add new).1 } where
  now := by rw [elapsed_append, still, Nat.add_zero, faithful.now]
  size := by
    rw [births_append, Nat.zero_add, made, List.length_append, faithful.size]
    exact (Array.size_push _).symm
  earlier t p := by
    rw [birth_append_new made, faithful.size]
    split
    · rename_i here
      exact fun parent => here ▸ (above p parent).1
    · exact faithful.earlier t p
  orphan t := by
    rw [birth_append_new made, faithful.size, token_add]
    split
    · exact orphan
    · exact faithful.orphan t
  above t p := by
    rw [birth_append_new made, faithful.size, token_add]
    split
    · intro parent
      rw [(above p parent).2, token_add, if_neg (Nat.ne_of_lt (above p parent).1)]
    · intro parent
      rw [faithful.above t p parent, token_add, if_neg (Nat.ne_of_lt (faithful.parent_lt parent))]
  due t := by
    rw [birth_append_new made, faithful.size, token_add]
    split
    · exact due
    · exact faithful.due t
  struck t := by
    rw [struck_append, or_iff_left (unstruck t), token_add]
    split
    · rename_i here
      refine iff_of_false (by simp [uncancelled]) fun struck => ?_
      exact Nat.lt_irrefl _ (here ▸ faithful.known t struck)
    · exact faithful.struck t
  known t struck := by
    rw [struck_append, or_iff_left (unstruck t)] at struck
    refine Nat.lt_of_lt_of_eq (Nat.lt_succ_of_lt (faithful.known t struck)) ?_
    exact (Array.size_push _).symm

/-- Where a token stands, and when it ends by itself, a cancellation leaves alone. -/
theorem token_cancel_keeps (f : TokenForest) (t u : TokenId) (cause : String)
    (known : t < f.tokens.size) :
    ((f.cancel t cause).token u).above = (f.token u).above ∧
      ((f.cancel t cause).token u).deadline = (f.token u).deadline := by
  rw [token_cancel f t u cause known]
  split
  · rename_i here
    rw [here]
    exact ⟨rfl, rfl⟩
  · exact ⟨rfl, rfl⟩

theorem Faithful.cancel (faithful : Faithful moves s) {t : TokenId} (cause : String)
    (there : t < s.tokens.tokens.size) :
    Faithful (moves ++ [.cancel t cause]) { s with tokens := s.tokens.cancel t cause } where
  now := by
    rw [elapsed_append, faithful.now]
    rfl
  size := by
    rw [births_append_nil rfl, faithful.size]
    exact Array.size_modify.symm
  earlier u p := by
    rw [birth_append_nil rfl]
    exact faithful.earlier u p
  orphan u := by
    rw [birth_append_nil rfl, (token_cancel_keeps _ _ u cause there).1]
    exact faithful.orphan u
  above u p := by
    rw [birth_append_nil rfl, (token_cancel_keeps _ _ u cause there).1,
      (token_cancel_keeps _ _ p cause there).1]
    exact faithful.above u p
  due u := by
    rw [birth_append_nil rfl, (token_cancel_keeps _ _ u cause there).2]
    exact faithful.due u
  struck u := by
    rw [struck_append, struck_cancel, token_cancel _ _ _ _ there]
    split
    · rename_i here
      exact iff_of_true (by simp) (.inr here)
    · rename_i other
      rw [or_iff_left other, faithful.struck]
  known u struck := by
    refine Nat.lt_of_lt_of_eq ?_ Array.size_modify.symm
    obtain before | rfl := (struck_append.trans (or_congr_right struck_cancel)).mp struck
    · exact faithful.known u before
    · exact there

/-- Time passes. -/
theorem Faithful.wait (faithful : Faithful moves s) (ms : Nat) :
    Faithful (moves ++ [.wait ms]) { s with now := s.now + ms } where
  now := by
    rw [elapsed_append, faithful.now]
    rfl
  size := by rw [births_append_nil rfl, faithful.size]
  earlier t p := by
    rw [birth_append_nil rfl]
    exact faithful.earlier t p
  orphan t := by
    rw [birth_append_nil rfl]
    exact faithful.orphan t
  above t p := by
    rw [birth_append_nil rfl]
    exact faithful.above t p
  due t := by
    rw [birth_append_nil rfl]
    exact faithful.due t
  struck t := by
    rw [struck_append, or_iff_left (by simp [Struck])]
    exact faithful.struck t
  known t struck := by
    rw [struck_append, or_iff_left (by simp [Struck])] at struck
    exact faithful.known t struck

theorem Faithful.move (faithful : Faithful moves s)
    (known : ∀ t ∈ m.about, t < s.tokens.tokens.size) : Faithful (moves ++ [m]) (m.apply s) := by
  cases m with
  | root =>
    exact faithful.add (b := {}) rfl rfl (by simp [Struck]) (fun _ => rfl) nofun rfl rfl
  | child parent =>
    refine faithful.add (b := { parent }) rfl rfl (by simp [Struck]) nofun ?_ rfl rfl
    rintro _ ⟨⟩
    exact ⟨known parent rfl, rfl⟩
  | childWithTimeout parent timeout cause =>
    refine faithful.add (b := { parent, due := some (elapsed moves + timeout) }) rfl rfl
      (by simp [Struck]) nofun ?_ (by rw [← faithful.now]; rfl) rfl
    rintro _ ⟨⟩
    exact ⟨known parent rfl, rfl⟩
  | cancel token cause => exact faithful.cancel cause (known token rfl)
  | wait ms => exact faithful.wait ms

theorem Played.faithful (played : Played moves s) : Faithful moves s := by
  induction played with
  | start => exact .start
  | move _ known ih => exact ih.move known

end Steps

/-- A line of tokens has a cause if its first has one of its own, or those above it have, or the
first is overdue. -/
theorem isSome_causeAt_cons (now : Nat) (t : CancelToken) (above : List CancelToken) :
    (CancelToken.causeAt now (t :: above)).isSome ↔
      t.cause.isSome ∨ (CancelToken.causeAt now above).isSome ∨
        ∃ time ∈ t.deadline.map (·.time), time ≤ now := by
  rw [CancelToken.causeAt]
  cases t.cause with
  | some cause => simp
  | none =>
    cases CancelToken.causeAt now above with
    | some cause => simp
    | none => cases t.deadline <;> simp [Deadline.causeAt]

section Tree

variable {moves : List TokenMove} {s : TokenClock} {t u c : TokenId}

theorem Faithful.overdue_iff (faithful : Faithful moves s) :
    (∃ time ∈ (s.tokens.token t).deadline.map (·.time), time ≤ s.now) ↔ Overdue moves t := by
  rw [faithful.due, faithful.now, Overdue]

/-- The tokens above a token have a cause just when its parent is cancelled. -/
theorem Faithful.above_iff (faithful : Faithful moves s) :
    (CancelToken.causeAt s.now ((s.tokens.token t).above.map s.tokens.token)).isSome ↔
      ∃ p, (birth moves t).parent = some p ∧ s.isCancelled p := by
  cases parent : (birth moves t).parent with
  | none => simp [faithful.orphan t parent, CancelToken.causeAt]
  | some p =>
    rw [faithful.above t p parent]
    simp [TokenClock.isCancelled, TokenForest.isCancelled, TokenForest.cause, TokenForest.line]

/-- A token is over by itself, with its parent, or by its time limit. -/
theorem Faithful.isCancelled_iff_or (faithful : Faithful moves s) :
    s.isCancelled t ↔
      Struck moves t ∨ (∃ p, (birth moves t).parent = some p ∧ s.isCancelled p) ∨
      Overdue moves t := by
  rw [← faithful.above_iff, ← faithful.overdue_iff, ← faithful.struck, ← isSome_causeAt_cons]
  rfl

/-- A token is over if one in its line was cancelled or is overdue. -/
theorem Faithful.isCancelled_iff (faithful : Faithful moves s) :
    s.isCancelled t ↔ ∃ u, Line moves t u ∧ (Struck moves u ∨ Overdue moves u) := by
  constructor
  · -- Parents are made before their children, so that going up comes to an end.
    induction t using Nat.strongRecOn with
    | ind t ih =>
      intro cancelled
      obtain struck | ⟨p, parent, higher⟩ | overdue := faithful.isCancelled_iff_or.mp cancelled
      · exact ⟨t, .self t, .inl struck⟩
      · obtain ⟨u, line, ended⟩ := ih p (faithful.earlier t p parent) higher
        exact ⟨u, .up parent line, ended⟩
      · exact ⟨t, .self t, .inr overdue⟩
  · rintro ⟨u, line, ended⟩
    induction line with
    | self t => exact faithful.isCancelled_iff_or.mpr (ended.imp id .inr)
    | up parent _ ih => exact faithful.isCancelled_iff_or.mpr (.inr (.inl ⟨_, parent, ih ended⟩))

/-- Whoever is below a token that is over is over too. -/
theorem Faithful.isCancelled_of_line (faithful : Faithful moves s) (line : Line moves t u)
    (cancelled : s.isCancelled u) : s.isCancelled t := by
  obtain ⟨w, higher, ended⟩ := faithful.isCancelled_iff.mp cancelled
  exact faithful.isCancelled_iff.mpr ⟨w, line.trans higher, ended⟩

/-- The parent goes on just when all ancestors do. -/
theorem Faithful.above_going_iff (faithful : Faithful moves s) :
    (¬ ∃ p, (birth moves t).parent = some p ∧ s.isCancelled p) ↔
      ∀ u, Above moves t u → ¬ s.isCancelled u := by
  constructor
  · rintro going u ⟨p, parent, higher⟩ cancelled
    exact going ⟨p, parent, faithful.isCancelled_of_line higher cancelled⟩
  · rintro going ⟨p, parent, cancelled⟩
    exact going p ⟨p, parent, .self p⟩ cancelled

theorem Faithful.deadlineExpired_iff (faithful : Faithful moves s) :
    s.deadlineExpired t ↔
      Overdue moves t ∧ ¬ Struck moves t ∧ ∀ u, Above moves t u → ¬ s.isCancelled u := by
  rw [← faithful.above_going_iff, ← faithful.above_iff, ← faithful.overdue_iff, ← faithful.struck,
    TokenClock.deadlineExpired, TokenForest.deadlineExpired]
  cases (s.tokens.token t).cause <;>
    cases CancelToken.causeAt s.now ((s.tokens.token t).above.map s.tokens.token) <;>
    cases (s.tokens.token t).deadline <;> simp

/-- What was over stays over. -/
theorem Faithful.isCancelled_append (faithful : Faithful moves s) {later : List TokenMove}
    {s' : TokenClock} (faithful' : Faithful (moves ++ later) s') (cancelled : s.isCancelled t) :
    s'.isCancelled t := by
  obtain ⟨u, line, ended⟩ := faithful.isCancelled_iff.mp cancelled
  refine faithful'.isCancelled_iff.mpr ⟨u, line.append, ended.imp (fun struck => ?_) (·.append)⟩
  exact struck_append.mpr (.inl struck)

/-- To cancel a token ends it and all below it, and nothing else. -/
theorem Faithful.isCancelled_cancel_iff (faithful : Faithful moves s) (cause : String)
    (known : t < s.tokens.tokens.size) :
    ((TokenMove.cancel t cause).apply s).isCancelled u ↔ s.isCancelled u ∨ Line moves u t := by
  have faithful' := faithful.cancel cause known
  constructor
  · intro cancelled
    obtain ⟨w, line, ended⟩ := faithful'.isCancelled_iff.mp cancelled
    have before : Line moves u w := line.of_append_nil rfl
    obtain struck | overdue := ended
    · obtain earlier | rfl := (struck_append.trans (or_congr_right struck_cancel)).mp struck
      · exact .inl (faithful.isCancelled_iff.mpr ⟨w, before, .inl earlier⟩)
      · exact .inr before
    · rw [Overdue, birth_append_nil rfl, elapsed_append] at overdue
      exact .inl (faithful.isCancelled_iff.mpr ⟨w, before, .inr overdue⟩)
  · rintro (cancelled | line)
    · exact faithful.isCancelled_append faithful' cancelled
    · refine faithful'.isCancelled_iff.mpr ⟨t, line.append, .inl (struck_append.mpr (.inr ?_))⟩
      exact struck_cancel.mpr rfl

/-- A token with a time limit that nobody has cancelled is over by its parent or by its limit
alone. -/
theorem Faithful.expired_or_parent (faithful : Faithful moves s) {time : Nat}
    (timed : birth moves t = { parent := some c, due := some time }) (unstruck : ¬ Struck moves t)
    (cancelled : s.isCancelled t) : s.isCancelled c ∨ s.deadlineExpired t := by
  rw [or_iff_not_imp_left]
  intro going
  have parent : (birth moves t).parent = some c := by rw [timed]
  have above : ¬ ∃ p, (birth moves t).parent = some p ∧ s.isCancelled p := by
    rintro ⟨p, own, ended⟩
    rw [parent, Option.some.injEq] at own
    exact going (own ▸ ended)
  obtain struck | higher | overdue := faithful.isCancelled_iff_or.mp cancelled
  · exact absurd struck unstruck
  · exact absurd higher above
  · exact faithful.deadlineExpired_iff.mpr
      ⟨overdue, unstruck, faithful.above_going_iff.mp above⟩

end Tree

section Poll

variable {rules : SimulationRules} {pass nextPoll : Nat} {f : Forest} {x : Timeline}
  {sim : Simulation} {token : TokenId} {loop : LoopId} {p : SimulationProgress}

theorem verdict_ne_waiting {cause : Option String} {expired : Bool} (p : SimulationProgress)
    (ended : cause.isSome ∨ expired) : p.verdict cause expired ≠ .waiting := by
  unfold SimulationProgress.verdict
  split
  · nofun
  · cases cause with
    | some cause => nofun
    | none =>
      obtain some | rfl := ended
      · simp at some
      · nofun

/-- A simulation that begins is given a token with a time limit below that of the whole run. -/
theorem begin_eq {f' : Forest} {version : Nat}
    (created : f.create sim.view (.node (sim.node pass)) = .ok (f', version)) :
    ∃ cause, sim.begin rules pass f x =
      (f', { x with tokens :=
        ((TokenMove.childWithTimeout rules.outer rules.timeout cause).apply
          ⟨x.now, x.tokens⟩).tokens },
        { sim with stage := .queued x.tokens.tokens.size }) := by
  refine ⟨(SimulationError.simulationTimeout sim.name).message, ?_⟩
  rw [Simulation.begin, created]
  rfl

/-- A simulation whose time is over has ended once it has read its events. -/
theorem isFinished_look
    (ended : x.tokens.isCancelled x.now rules.outer ∨ x.tokens.deadlineExpired x.now token) :
    (sim.look rules pass token loop p nextPoll f x).2.isFinished := by
  rw [Simulation.look]
  cases f.eventsFrom sim.view p.cursor with
  | error e => rfl
  | ok events =>
    have decided := verdict_ne_waiting (p.read events) ended
    dsimp only
    split
    · contradiction
    · exact Simulation.isFinished_conclude _ _ _ _ decided

/-- A simulation ends at the moment at which its token is over. -/
theorem isFinished_watch (stage : sim.stage = .watching token loop p nextPoll)
    (cancelled : x.tokens.isCancelled x.now token)
    (ended : x.tokens.isCancelled x.now rules.outer ∨ x.tokens.deadlineExpired x.now token) :
    (sim.watch rules pass f x).2.isFinished := by
  rw [Simulation.watch, stage]
  dsimp only
  rw [if_pos cancelled]
  split
  · exact isFinished_look ended
  · exact isFinished_look ended

end Poll

/-- What cancellations and time limits do to a tree of tokens. -/
structure Tree (moves : List TokenMove) (s : TokenClock) : Prop where
  cancelled_iff : ∀ t, s.isCancelled t ↔ ∃ u, Line moves t u ∧ (Struck moves u ∨ Overdue moves u)
  stays : ∀ later s', Played (moves ++ later) s' → ∀ t, s.isCancelled t → s'.isCancelled t
  cancel_iff : ∀ t < s.tokens.tokens.size, ∀ cause u,
    ((TokenMove.cancel t cause).apply s).isCancelled u ↔ s.isCancelled u ∨ Line moves u t
  expired_iff : ∀ t, s.deadlineExpired t ↔
    Overdue moves t ∧ ¬ Struck moves t ∧ ∀ u, Above moves t u → ¬ s.isCancelled u
  /-- A token made for a run ends with what it was made below, or by its time limit alone. -/
  run_over : ∀ c t time, birth moves t = { parent := some c, due := some time } → ¬ Struck moves t →
    s.isCancelled t → s.isCancelled c ∨ s.deadlineExpired t
  /-- And at that moment a simulation that has been given the token ends, whatever it has read. -/
  poll_ends : ∀ c t time, birth moves t = { parent := some c, due := some time } →
    ¬ Struck moves t → s.isCancelled t →
      ∀ (rules : SimulationRules) pass f (x : Timeline) (sim : Simulation) loop p nextPoll,
      rules.outer = c → x.now = s.now → x.tokens = s.tokens →
      sim.stage = .watching t loop p nextPoll → (sim.watch rules pass f x).2.isFinished

/-- Whatever tokens are made, one below the other, cancelled and left to their time limits. -/
theorem Played.tree {moves : List TokenMove} {s : TokenClock} (played : Played moves s) :
    Tree moves s where
  cancelled_iff _ := played.faithful.isCancelled_iff
  stays _ _ played' _ := played.faithful.isCancelled_append played'.faithful
  cancel_iff _ known cause _ := played.faithful.isCancelled_cancel_iff cause known
  expired_iff _ := played.faithful.deadlineExpired_iff
  run_over _ _ _ := played.faithful.expired_or_parent
  poll_ends := by
    intro c t time timed unstruck cancelled rules pass f x sim loop p nextPoll outer now
      tokens stage
    have ended := played.faithful.expired_or_parent timed unstruck cancelled
    refine isFinished_watch stage ?_ ?_
    · rw [now, tokens]
      exact cancelled
    · rw [now, tokens, outer]
      exact ended

/-- A run with a time limit and a part of it, at the moment at which the limit is reached. -/
theorem tree_of_run :
    ∃ s, Tree [.root, .childWithTimeout 0 5 "timeout", .child 1, .wait 5] s ∧
      s.isCancelled 2 ∧ s.deadlineExpired 1 ∧ ¬ s.isCancelled 0 := by
  have played :
    Played ([] ++ [.root] ++ [.childWithTimeout 0 5 "timeout"] ++ [.child 1] ++ [.wait 5]) _ :=
    .move (.move (.move (.move .start (by decide)) (by decide)) (by decide)) (by decide)
  exact ⟨_, Played.tree played, by decide, by decide, by decide⟩

end Tokens

end ScaleAdvisor
