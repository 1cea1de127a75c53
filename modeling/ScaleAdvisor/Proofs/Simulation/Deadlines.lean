import Mathlib.Data.List.Basic
import ScaleAdvisor.Simulation.Run

/-!
Deadlines of simulations. A simulation that has begun has a token below that of the whole run, with
a deadline of its own. New tokens and a cancellation of the whole run change nothing about that.

* `Timed`: a token that ends with the whole run, or at a set time if that is earlier;
* `Timed.expires`: while it has not ended, the clock has a moment to go to.
-/

namespace ScaleAdvisor

namespace CancelToken

/-- While no token of a line is cancelled, no deadline in it is over. -/
theorem lt_of_causeAt_eq_none {now : Nat} {line : List CancelToken}
    (going : causeAt now line = none) :
    ∀ time ∈ line.filterMap fun t => t.deadline.map (·.time), now < time := by
  induction line with
  | nil => simp
  | cons t above ih =>
    rw [causeAt] at going
    split at going
    · simp at going
    · split at going
      · simp at going
      · rename_i quiet
        intro time htime
        obtain ⟨t', ht', own⟩ := List.mem_filterMap.mp htime
        obtain rfl | ht' := List.mem_cons.mp ht'
        · obtain ⟨d, hd, rfl⟩ := Option.map_eq_some_iff.mp own
          rw [hd, Option.bind_some, Deadline.causeAt] at going
          split at going
          · simp at going
          · omega
        · exact ih quiet time (List.mem_filterMap.mpr ⟨t', ht', own⟩)

end CancelToken

namespace Simulation

/-- A token that ends with another one, or at a set time if that is earlier. -/
structure Timed (tokens : TokenForest) (outer : TokenId) (limit : Nat) (token : TokenId) :
    Prop where
  later : outer < token
  known : token < tokens.tokens.size
  above : (tokens.token token).above = outer :: (tokens.token outer).above
  uncancelled : (tokens.token token).cause = none
  deadline : ((tokens.token token).deadline.map (·.time)) = some limit

section Timed

variable {tokens tokens' : TokenForest} {outer token : TokenId} {limit now : Nat}

theorem Timed.cause_eq_none_iff (timed : Timed tokens outer limit token) :
    tokens.cause now token = none ↔ tokens.cause now outer = none ∧ now < limit := by
  obtain ⟨d, hd, rfl⟩ := Option.map_eq_some_iff.mp timed.deadline
  rw [TokenForest.cause, TokenForest.line, timed.above, List.map_cons, CancelToken.causeAt,
    timed.uncancelled, TokenForest.cause, TokenForest.line]
  dsimp only
  split
  · rename_i cancelled
    simp [cancelled]
  · rename_i going
    rw [going, hd, Option.bind_some, Deadline.causeAt]
    split <;> simp <;> omega

/-- The token is over by its deadline alone just when the other one goes on. -/
theorem Timed.deadlineExpired_eq (timed : Timed tokens outer limit token)
    (going : tokens.cause now outer = none) :
    tokens.deadlineExpired now token = decide (limit ≤ now) := by
  obtain ⟨d, hd, rfl⟩ := Option.map_eq_some_iff.mp timed.deadline
  have above : CancelToken.causeAt now ((tokens.token token).above.map tokens.token) = none := by
    rw [timed.above]
    exact going
  rw [TokenForest.deadlineExpired, timed.uncancelled, above, hd]
  rfl

/-- The token has an end to wait for. -/
theorem Timed.expires (timed : Timed tokens outer limit token)
    (going : tokens.cause now token = none) : ∃ time, tokens.expiry token = some time ∧ now < time ∧
    time ≤ limit := by
  have ends : limit ∈ (tokens.line token).filterMap fun t => t.deadline.map (·.time) :=
    List.mem_filterMap.mpr ⟨tokens.token token, by simp [TokenForest.line], timed.deadline⟩
  obtain ⟨time, first⟩ := Option.isSome_iff_exists.mp (List.isSome_min?_of_mem ends)
  obtain ⟨listed, least⟩ := List.min?_eq_some_iff.mp first
  exact ⟨time, first, CancelToken.lt_of_causeAt_eq_none going time listed, least limit ends⟩

/-- What is set about tokens below `outer` stays. -/
structure Keeps (outer : TokenId) (tokens tokens' : TokenForest) : Prop where
  size : tokens.tokens.size ≤ tokens'.tokens.size
  timed : ∀ limit token, Timed tokens outer limit token → Timed tokens' outer limit token

theorem Keeps.refl (outer : TokenId) (tokens : TokenForest) : Keeps outer tokens tokens :=
  ⟨Nat.le_refl _, fun _ _ timed => timed⟩

theorem Keeps.trans {tokens'' : TokenForest} (first : Keeps outer tokens tokens')
    (second : Keeps outer tokens' tokens'') : Keeps outer tokens tokens'' :=
  ⟨Nat.le_trans first.size second.size,
    fun limit token timed => second.timed limit token (first.timed limit token timed)⟩

/-- A change that keeps the places of tokens, what is above `outer`, and everything about later
ones. -/
theorem Keeps.of_token (size : tokens.tokens.size ≤ tokens'.tokens.size)
    (above : outer < tokens.tokens.size → (tokens'.token outer).above = (tokens.token outer).above)
    (later : ∀ token, outer < token → token < tokens.tokens.size →
      tokens'.token token = tokens.token token) :
    Keeps outer tokens tokens' where
  size := size
  timed := fun limit token timed => by
    have same := later token timed.later timed.known
    refine ⟨timed.later, Nat.lt_of_lt_of_le timed.known size, ?_, ?_, ?_⟩
    · rw [same, above (Nat.lt_trans timed.later timed.known), timed.above]
    · rw [same, timed.uncancelled]
    · rw [same, timed.deadline]

theorem token_add_of_lt (tokens : TokenForest) (t : CancelToken)
    (known : token < tokens.tokens.size) : (tokens.add t).1.token token = tokens.token token := by
  rw [TokenForest.token, TokenForest.token, TokenForest.add, Array.getElem?_push,
    if_neg (Nat.ne_of_lt known)]

/-- A token with a deadline is put below `outer`. -/
theorem keeps_childWithDeadline (known : outer < tokens.tokens.size) (d : Deadline) :
    Keeps outer tokens (tokens.childWithDeadline outer d).1 ∧
      Timed (tokens.childWithDeadline outer d).1 outer d.time tokens.tokens.size := by
  have new : (tokens.childWithDeadline outer d).1.token tokens.tokens.size =
      { above := outer :: (tokens.token outer).above, deadline := some d } := by
    rw [TokenForest.token, TokenForest.childWithDeadline, TokenForest.add, Array.getElem?_push,
      if_pos rfl, Option.getD_some]
  have size : (tokens.childWithDeadline outer d).1.tokens.size = tokens.tokens.size + 1 :=
    Array.size_push _
  have old {token : TokenId} (known : token < tokens.tokens.size) :
      (tokens.childWithDeadline outer d).1.token token = tokens.token token :=
    token_add_of_lt tokens _ known
  refine ⟨.of_token (by omega) (fun _ => by rw [old known]) fun token _ known => old known, ?_⟩
  exact ⟨known, Nat.lt_of_lt_of_eq (by omega) size.symm, by rw [new, old known], by rw [new],
    by rw [new]; rfl⟩

/-- `outer` is cancelled. -/
theorem keeps_cancel (outer : TokenId) (tokens : TokenForest) (cause : String) :
    Keeps outer tokens (tokens.cancel outer cause) := by
  refine .of_token (Nat.le_of_eq Array.size_modify.symm) ?_ ?_
  · intro known
    rw [TokenForest.token, TokenForest.cancel, Array.getElem?_modify, if_pos rfl, TokenForest.token]
    cases tokens.tokens[outer]? <;> rfl
  · intro token later _
    rw [TokenForest.token, TokenForest.cancel, Array.getElem?_modify, if_neg (Nat.ne_of_lt later),
      TokenForest.token]

end Timed

/-- The token of a simulation that has begun and is not over. -/
def token? (s : Simulation) : Option TokenId :=
  match s.stage with
  | .queued token => some token
  | .watching token _ _ _ => some token
  | _ => none

/-- The simulation is over, or has a token that ends at `limit` or earlier. -/
def Limited (tokens : TokenForest) (outer : TokenId) (limit : Nat) (s : Simulation) : Prop :=
  s.isFinished = false → ∃ token, s.token? = some token ∧ Timed tokens outer limit token

/-- The simulation is over, or its token will end at `limit` or earlier, but has not ended yet. -/
def Going (tokens : TokenForest) (outer : TokenId) (limit now : Nat) (s : Simulation) : Prop :=
  s.isFinished = false →
    ∃ token, s.token? = some token ∧ Timed tokens outer limit token ∧ tokens.cause now token = none

theorem Limited.keep {tokens tokens' : TokenForest} {outer : TokenId} {limit : Nat} {s : Simulation}
    (limited : Limited tokens outer limit s) (keeps : Keeps outer tokens tokens') :
    Limited tokens' outer limit s := by
  intro ongoing
  obtain ⟨token, own, timed⟩ := limited ongoing
  exact ⟨token, own, keeps.timed limit token timed⟩

section Advance

variable {rules : SimulationRules} {pass limit now : Nat} {s : Simulation} {f : Forest}
  {t : Timeline} {tokens : TokenForest} {outer token : TokenId}

theorem Limited.of_finished (finished : s.isFinished = true) : Limited tokens outer limit s := by
  intro ongoing
  simp [finished] at ongoing

theorem Going.of_finished (finished : s.isFinished = true) : Going tokens outer limit now s := by
  intro ongoing
  simp [finished] at ongoing

theorem isFinished_conclude (pass : Nat) (f : Forest) (s : Simulation) (p : SimulationProgress)
    {verdict : Verdict} (decided : verdict ≠ .waiting) :
    (s.conclude pass f p verdict).isFinished = true := by
  cases verdict with
  | waiting => exact absurd rfl decided
  | settled =>
    rw [conclude]
    split <;> rfl
  | cancelled cause => rfl
  | timedOut => rfl

/-- Only a simulation that has time waits on. -/
theorem going_of_waiting {p : SimulationProgress} (timed : Timed t.tokens rules.outer limit token)
    (waiting :
      p.verdict (t.tokens.cause t.now rules.outer) (t.tokens.deadlineExpired t.now token) =
        .waiting) :
    t.tokens.cause t.now token = none := by
  unfold SimulationProgress.verdict at waiting
  refine timed.cause_eq_none_iff.mpr ?_
  split at waiting
  · simp at waiting
  · split at waiting
    · simp at waiting
    · rename_i going
      refine ⟨going, Nat.lt_of_not_le ?_⟩
      intro late
      rw [timed.deadlineExpired_eq going, if_pos (by simpa using late)] at waiting
      simp at waiting

theorem look_going (timed : Timed t.tokens rules.outer limit token) (loop : LoopId)
    (p : SimulationProgress) (nextPoll : Nat) :
    Going t.tokens rules.outer limit t.now (s.look rules pass token loop p nextPoll f t).2 := by
  rw [look]
  dsimp only
  cases f.eventsFrom s.view p.cursor with
  | error e => exact .of_finished rfl
  | ok events =>
    dsimp only
    by_cases waiting : (p.read events).verdict (t.tokens.cause t.now rules.outer)
        (t.tokens.deadlineExpired t.now token) = .waiting
    · rw [waiting]
      exact fun _ => ⟨token, rfl, timed, going_of_waiting timed waiting⟩
    · split
      · contradiction
      · exact .of_finished (isFinished_conclude _ _ _ _ waiting)

/-- A simulation that watches a loop looks at its log at the latest when its token has ended. -/
theorem watch_going (limited : Limited t.tokens rules.outer limit s)
    (waits : ∀ token, s.stage = .queued token → t.tokens.cause t.now token = none) :
    Going t.tokens rules.outer limit t.now (s.watch rules pass f t).2 := by
  rw [watch]
  cases stage : s.stage with
  | pending =>
    obtain ⟨token, own, -⟩ := limited (by simp [isFinished, stage])
    simp [token?, stage] at own
  | finished result => exact .of_finished (by simp [isFinished, stage])
  | queued token =>
    intro ongoing
    obtain ⟨other, own, timed⟩ := limited ongoing
    obtain rfl : token = other := by simpa [token?, stage] using own
    exact ⟨token, own, timed, waits token stage⟩
  | watching token loop p nextPoll =>
    obtain ⟨other, own, timed⟩ := limited (by simp [isFinished, stage])
    obtain rfl : token = other := by simpa [token?, stage] using own
    dsimp only
    split
    · exact look_going timed loop p _
    · split
      · exact look_going timed loop p _
      · rename_i going
        exact fun _ => ⟨token, own, timed, by simpa [TokenForest.isCancelled] using going⟩

/-- After its moment a simulation is over or has time left. -/
theorem advance_going (limited : Limited t.tokens rules.outer limit s) :
    Going t.tokens rules.outer limit t.now (s.advance rules pass f t).2.2 := by
  rw [advance]
  cases stage : s.stage with
  | pending => exact watch_going limited (by simp [stage])
  | finished result => exact watch_going limited (by simp [stage])
  | watching token loop p nextPoll => exact watch_going limited (by simp [stage])
  | queued token =>
    dsimp only
    rw [enter]
    split
    · exact watch_going (.of_finished rfl) nofun
    · exact watch_going (.of_finished rfl) nofun
    · rename_i going
      split
      · refine watch_going limited ?_
        intro other same
        obtain rfl : token = other := by simpa [stage] using same
        exact going
      · split
        · exact watch_going (.of_finished rfl) nofun
        · refine watch_going (fun _ => ⟨token, rfl, ?_⟩) nofun
          obtain ⟨other, own, timed⟩ := limited (by simp [isFinished, stage])
          obtain rfl : token = other := by simpa [token?, stage] using own
          exact timed

end Advance

end Simulation

end ScaleAdvisor
