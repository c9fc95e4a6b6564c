import Mathlib

/-! Spans of time, some of them not ended yet, and how long at least one of them was running. -/

namespace AtrexAgent.Occupancy

open MeasureTheory

/-- The times up to a horizon at which a span is running. -/
def covered (spans : List (ℚ × Option ℚ)) (horizon : ℚ) : Set ℝ :=
  { x | x ≤ horizon ∧ ∃ span ∈ spans, (span.1 : ℝ) < x ∧ ∀ ended ∈ span.2, x ≤ (ended : ℝ) }

/-- How long at least one span was running up to a horizon. -/
noncomputable def occupied (spans : List (ℚ × Option ℚ)) (horizon : ℚ) : ℝ :=
  (volume (covered spans horizon)).toReal

variable {spans : List (ℚ × Option ℚ)} {horizon now later : ℚ}

@[simp] theorem covered_nil : covered [] horizon = ∅ := by simp [covered]

theorem covered_cons (span : ℚ × Option ℚ) :
    covered (span :: spans) horizon =
      Set.Ioc (span.1 : ℝ) (min horizon (span.2.getD horizon) : ℚ) ∪ covered spans horizon := by
  ext x
  rcases span with ⟨started, _ | ended⟩ <;> simp [covered] <;> grind

theorem covered_measurable : MeasurableSet (covered spans horizon) := by
  induction spans with
  | nil => simp
  | cons span spans ih =>
      rw [covered_cons]
      exact measurableSet_Ioc.union ih

theorem covered_finite : volume (covered spans horizon) ≠ ⊤ := by
  induction spans with
  | nil => simp
  | cons span spans ih =>
      rw [covered_cons]
      exact measure_union_ne_top (by simp) ih

@[simp] theorem occupied_nil : occupied [] horizon = 0 := by simp [occupied]

/-- A span that starts later takes no time up to the horizon. -/
theorem occupied_started (after : horizon ≤ later) :
    occupied (spans ++ [(later, none)]) horizon = occupied spans horizon := by
  have same : covered (spans ++ [(later, none)]) horizon = covered spans horizon := by
    ext x
    have bound : (horizon : ℝ) ≤ later := by exact_mod_cast after
    simp only [covered, Set.mem_ofPred_eq, List.mem_append, List.mem_singleton]
    constructor
    · rintro ⟨early, span, member | rfl, started, ended⟩
      · exact ⟨early, span, member, started, ended⟩
      · exact absurd (started.trans_le early) (not_lt.mpr bound)
    · rintro ⟨early, span, member, running⟩
      exact ⟨early, span, .inl member, running⟩
  rw [occupied, same, occupied]

/-- Nor does the end of a span that ends later. -/
theorem occupied_ended {i : Nat} {started : ℚ} (running : spans[i]? = some (started, none))
    (after : horizon ≤ later) :
    occupied (spans.set i (started, some later)) horizon = occupied spans horizon := by
  have same : covered (spans.set i (started, some later)) horizon = covered spans horizon := by
    ext x
    have bound : (horizon : ℝ) ≤ later := by exact_mod_cast after
    obtain ⟨inside, found⟩ := List.getElem?_eq_some_iff.mp running
    simp only [covered, Set.mem_ofPred_eq]
    constructor
    · rintro ⟨early, span, member, before, ended⟩
      rcases List.mem_or_eq_of_mem_set member with member | rfl
      · exact ⟨early, span, member, before, ended⟩
      · exact ⟨early, (started, none), List.mem_of_getElem? running, before, by simp⟩
    · rintro ⟨early, span, member, before, ended⟩
      obtain ⟨j, within, rfl⟩ := List.mem_iff_getElem.mp member
      by_cases here : i = j
      · subst here
        refine ⟨early, (started, some later), List.mem_set inside _, ?_, ?_⟩
        · rw [found] at before
          exact before
        · simpa using early.trans bound
      · refine ⟨early, spans[j], ?_, before, ended⟩
        exact List.mem_iff_getElem.mpr ⟨j, by simpa using within, List.getElem_set_ne here _⟩
  rw [occupied, same, occupied]

/-- While none is running, no time is added. -/
theorem occupied_idle (past : ∀ span ∈ spans, ∃ ended, span.2 = some ended ∧ ended ≤ now)
    (after : now ≤ later) : occupied spans later = occupied spans now := by
  have same : covered spans later = covered spans now := by
    ext x
    have bound : (now : ℝ) ≤ later := by exact_mod_cast after
    simp only [covered, Set.mem_ofPred_eq]
    constructor
    · rintro ⟨early, span, member, before, ends⟩
      obtain ⟨ended, same, reached⟩ := past span member
      have reached : (ended : ℝ) ≤ now := by exact_mod_cast reached
      exact ⟨(ends ended same).trans reached, span, member, before, ends⟩
    · rintro ⟨early, running⟩
      exact ⟨early.trans bound, running⟩
  rw [occupied, same, occupied]

/-- While one is running, all the time is added. -/
theorem occupied_busy {started : ℚ} (running : (started, none) ∈ spans) (before : started ≤ now)
    (after : now ≤ later) : occupied spans later = occupied spans now + (later - now) := by
  have bound : (now : ℝ) ≤ later := by exact_mod_cast after
  have before : (started : ℝ) ≤ now := by exact_mod_cast before
  have parts : covered spans later = covered spans now ∪ Set.Ioc (now : ℝ) later := by
    ext x
    simp only [covered, Set.mem_ofPred_eq, Set.mem_union, Set.mem_Ioc]
    constructor
    · rintro ⟨early, covers⟩
      rcases le_or_gt x now with past | future
      · exact .inl ⟨past, covers⟩
      · exact .inr ⟨future, early⟩
    · rintro (⟨early, covers⟩ | ⟨future, early⟩)
      · exact ⟨early.trans bound, covers⟩
      · exact ⟨early, _, running, before.trans_lt future, by simp⟩
  have apart : Disjoint (covered spans now) (Set.Ioc (now : ℝ) later) := by
    rw [Set.disjoint_left]
    intro x past future
    exact absurd past.1 (not_le.mpr future.1)
  rw [occupied, parts, measure_union apart measurableSet_Ioc,
    ENNReal.toReal_add covered_finite (by simp), ← occupied, Real.volume_Ioc,
    ENNReal.toReal_ofReal (sub_nonneg.mpr bound)]

end AtrexAgent.Occupancy
