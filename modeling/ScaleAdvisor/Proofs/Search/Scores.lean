import ScaleAdvisor.Advice.Pass
import ScaleAdvisor.Proofs.Entries

/-!
What can win a pass. A score is that of an outcome, and says of it what the search goes by; the
scores that tie for the win are among those of the pass.

* `score_eq_ok`: a score keeps the name, the placement and the leftovers of its outcome;
* `Pass.mem_scores_iff`: a pass has the scores of the simulations that got anywhere;
* `Pass.mem_scores_of_mem_ties`: none but these can win.
-/

namespace ScaleAdvisor

theorem toOption_eq_some_iff {ε α : Type} {x : Except ε α} {a : α} :
    x.toOption = some a ↔ x = .ok a := by
  cases x <;> simp [Except.toOption]

section Scores

variable {F : Type} [Quantity F]

theorem score_eq_ok {strategy : ScoringStrategy} {prices : PriceTable F} {table : WeightTable F}
    {o : Outcome} {x : NodeScore F} (h : score strategy prices table o = .ok x) :
    x.name = o.name ∧ x.placement = o.placement ∧ x.unscheduled = o.unscheduled := by
  rw [score] at h
  split at h
  · simp at h
  · cases h
    exact ⟨rfl, rfl, rfl⟩

omit [Quantity F] in
theorem mem_bestValued {p : Preference} {scores : List (NodeScore F)} {x : NodeScore F}
    (h : x ∈ bestValued p scores) : x ∈ scores := by
  rw [bestValued] at h
  split at h
  · simp at h
  · exact (List.mem_filter.mp h).1

theorem mem_of_mem_finalTies {s : Selector} {p : Preference} {scores ties : List (NodeScore F)}
    (h : finalTies s p scores = .ok ties) {x : NodeScore F} (hx : x ∈ ties) : x ∈ scores := by
  rcases scores with _ | ⟨only, _ | ⟨second, rest⟩⟩
  · simp [finalTies] at h
  · cases h
    exact hx
  · simp only [finalTies] at h
    split at h
    · simp at h
    · cases h
      exact mem_bestValued (List.mem_filter.mp hx).1

namespace Pass

variable {p : Pass} {scoring : Scoring F} {x : NodeScore F}

theorem mem_scores_iff : x ∈ p.scores scoring ↔ ∃ s ∈ p.simulations, ∃ o, s.outcome? = some o ∧
    (o.converged = true ∨ o.boundWorkloads ≠ 0) ∧
    score scoring.strategy scoring.prices scoring.weights o = .ok x := by
  simp only [scores, outcomes, List.mem_filterMap, List.mem_filter, Bool.or_eq_true, bne_iff_ne,
    toOption_eq_some_iff]
  constructor
  · rintro ⟨o, ⟨⟨s, hs, succeeded⟩, counts⟩, scored⟩
    exact ⟨s, hs, o, succeeded, counts, scored⟩
  · rintro ⟨s, hs, o, succeeded, counts, scored⟩
    exact ⟨o, ⟨⟨s, hs, succeeded⟩, counts⟩, scored⟩

theorem mem_scores_of_mem_ties {ties : List (NodeScore F)} (h : p.ties scoring = .ok ties)
    (hx : x ∈ ties) :
    x ∈ p.scores scoring := by
  rw [Pass.ties] at h
  split at h
  · cases h
    simp at hx
  · split at h
    · rename_i found
      cases h
      exact mem_of_mem_finalTies found hx
    · simp at h

theorem error_of_ties {e : SimulationError} (h : p.ties scoring = .error e) :
    e ≠ .noScalingAdvice := by
  rw [Pass.ties] at h
  split at h
  · simp at h
  · split at h
    · simp at h
    · cases h
      simp

theorem simulation?_eq (names : (p.simulations.map (·.name)).Nodup) {s : Simulation}
    (hs : s ∈ p.simulations) : p.simulation? s.name = some s :=
  (find?_key_eq_some_iff names).mpr ⟨hs, rfl⟩

end Pass

end Scores

end ScaleAdvisor
