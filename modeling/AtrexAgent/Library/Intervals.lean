import Mathlib

/-! Half-open intervals: overlap of two of them while one slides, and the measure of what several of them cover. -/

namespace AtrexAgent.Intervals

/-! ### Sliding -/

section Sliding

/-- `left_start < right_end and right_start < left_end` -/
def Overlaps {K : Type} [LT K] (leftStart leftEnd rightStart rightEnd : K) : Prop :=
  leftStart < rightEnd ∧ rightStart < leftEnd

instance {K : Type} [LT K] [DecidableLT K] (leftStart leftEnd rightStart rightEnd : K) :
    Decidable (Overlaps leftStart leftEnd rightStart rightEnd) := inferInstanceAs (Decidable (_ ∧ _))

variable {K : Type} [Field K] [LinearOrder K] [IsStrictOrderedRing K] {start stop low high upper : K}

/-- An interval that slides by at most `upper` meets a window on its way where its envelope does. -/
theorem exists_offset (window : start < stop) (range : low ≤ high) (nonneg : 0 ≤ upper) :
    (∃ d, 0 ≤ d ∧ d ≤ upper ∧ Overlaps start stop (low + d) (high + d)) ↔ Overlaps start stop low (high + upper) := by
  constructor
  · intro ⟨d, forward, within, before, after⟩
    exact ⟨by linarith, by linarith⟩
  · intro ⟨before, after⟩
    by_cases already : start < high
    · exact ⟨0, le_rfl, nonneg, by simpa using already, by simpa using after⟩
    · -- It has to slide past the window's start, and stops there or halfway to its end.
      have least : 0 ≤ start - high := by linarith
      refine ⟨min upper ((start - high + (stop - low)) / 2), le_min nonneg (by linarith), min_le_left _ _, ?_, ?_⟩
      · have past : start - high < min upper ((start - high + (stop - low)) / 2) := lt_min (by linarith) (by linarith)
        linarith
      · have short := min_le_right upper ((start - high + (stop - low)) / 2)
        linarith

/-- It meets the window all the way where it does at both ends. -/
theorem forall_offset (nonneg : 0 ≤ upper) :
    (∀ d, 0 ≤ d → d ≤ upper → Overlaps start stop (low + d) (high + d)) ↔ low + upper < stop ∧ start < high := by
  constructor
  · intro always
    have last := always upper nonneg le_rfl
    have first := always 0 le_rfl nonneg
    exact ⟨last.2, by simpa using first.1⟩
  · intro ⟨after, before⟩ d forward within
    exact ⟨by linarith, by linarith⟩

end Sliding

/-! ### Covering -/

section Covering

open MeasureTheory

/-- What intervals of whole ticks cover. -/
def cover (intervals : List (ℕ × ℕ)) : Set ℝ := ⋃ interval ∈ intervals, Set.Ico (interval.1 : ℝ) interval.2

@[simp] theorem cover_nil : cover [] = ∅ := by simp [cover]

@[simp] theorem cover_cons (interval : ℕ × ℕ) (intervals : List (ℕ × ℕ)) :
    cover (interval :: intervals) = Set.Ico (interval.1 : ℝ) interval.2 ∪ cover intervals := by
  simp [cover, Set.iUnion_or, Set.iUnion_union_distrib]

theorem mem_cover {intervals : List (ℕ × ℕ)} {x : ℝ} :
    x ∈ cover intervals ↔ ∃ interval ∈ intervals, (interval.1 : ℝ) ≤ x ∧ x < interval.2 := by
  simp only [cover, Set.mem_iUnion, Set.mem_Ico, exists_prop]

theorem cover_perm {intervals others : List (ℕ × ℕ)} (perm : intervals.Perm others) : cover intervals = cover others := by
  ext x
  simp only [mem_cover, perm.mem_iff]

theorem measurable_cover (intervals : List (ℕ × ℕ)) : MeasurableSet (cover intervals) :=
  MeasurableSet.biUnion (Set.to_countable _) fun _ _ => measurableSet_Ico

theorem cover_finite (intervals : List (ℕ × ℕ)) : volume (cover intervals) ≠ ⊤ := by
  induction intervals with
  | nil => simp
  | cons interval intervals ih =>
      rw [cover_cons]
      exact ((measure_union_le _ _).trans_lt (ENNReal.add_lt_top.mpr ⟨by simp, ih.lt_top⟩)).ne

/-- Intervals cover at most the sum of their lengths. -/
theorem cover_le_sum (intervals : List (ℕ × ℕ)) :
    volume.real (cover intervals) ≤ ((intervals.map fun interval => interval.2 - interval.1).sum : ℕ) := by
  induction intervals with
  | nil => simp
  | cons interval intervals ih =>
      rw [cover_cons, List.map_cons, List.sum_cons, Nat.cast_add]
      have length : volume.real (Set.Ico (interval.1 : ℝ) interval.2) ≤ ((interval.2 - interval.1 : ℕ) : ℝ) := by
        rw [Real.volume_real_Ico]
        have whole : interval.2 ≤ interval.2 - interval.1 + interval.1 := by omega
        have whole' : (interval.2 : ℝ) ≤ (interval.2 - interval.1 : ℕ) + interval.1 := by exact_mod_cast whole
        exact max_le (by linarith) (Nat.cast_nonneg _)
      exact (measureReal_union_le _ _).trans (add_le_add length ih)

/-- The length of a union, of intervals in the order of their starts: the current one grows, or is counted and left. -/
def scanUnion (start stop total : ℕ) : List (ℕ × ℕ) → ℕ
  | [] => total + stop - start
  | (nextStart, nextStop) :: rest =>
      if nextStart ≤ stop then scanUnion start (max stop nextStop) total rest
      else scanUnion nextStart nextStop (total + (stop - start)) rest

theorem scanUnion_measure {start stop : ℕ} (total : ℕ) {rest : List (ℕ × ℕ)} (ordered : start ≤ stop)
    (later : ∀ interval ∈ rest, start ≤ interval.1 ∧ interval.1 ≤ interval.2) (sorted : rest.Pairwise fun a b => a.1 ≤ b.1) :
    (scanUnion start stop total rest : ℝ) = total + volume.real (Set.Ico (start : ℝ) stop ∪ cover rest) := by
  induction rest generalizing start stop total with
  | nil =>
      have length : volume.real (Set.Ico (start : ℝ) stop) = stop - start := by
        rw [Real.volume_real_Ico_of_le (by exact_mod_cast ordered)]
      rw [scanUnion, cover_nil, Set.union_empty, length, Nat.cast_sub (by omega)]
      push_cast
      ring
  | cons interval rest ih =>
      obtain ⟨nextStart, nextStop⟩ := interval
      obtain ⟨first, wide⟩ := later _ List.mem_cons_self
      rw [List.pairwise_cons] at sorted
      have rest_later : ∀ interval ∈ rest, nextStart ≤ interval.1 ∧ interval.1 ≤ interval.2 := fun interval member =>
        ⟨sorted.1 interval member, (later interval (List.mem_cons_of_mem _ member)).2⟩
      rw [scanUnion, cover_cons, ← Set.union_assoc]
      split
      · rename_i touching
        have merged : Set.Ico (start : ℝ) stop ∪ Set.Ico (nextStart : ℝ) nextStop = Set.Ico (start : ℝ) (max stop nextStop : ℕ) := by
          rw [Set.Ico_union_Ico' (by exact_mod_cast touching) (by exact_mod_cast first.trans wide),
            min_eq_left (by exact_mod_cast first), Nat.cast_max]
        rw [ih total (ordered.trans (le_max_left _ _))
          (fun interval member => ⟨first.trans (rest_later interval member).1, (rest_later interval member).2⟩) sorted.2, merged]
      · rename_i apart
        have separate : Disjoint (Set.Ico (start : ℝ) stop) (Set.Ico (nextStart : ℝ) nextStop ∪ cover rest) := by
          rw [Set.disjoint_left]
          intro x inside beyond
          have past : (nextStart : ℝ) ≤ x := by
            rcases beyond with next | further
            · exact next.1
            · obtain ⟨interval, member, at_least, -⟩ := mem_cover.mp further
              exact le_trans (by exact_mod_cast (rest_later interval member).1) at_least
          have before : (stop : ℝ) < nextStart := by exact_mod_cast Nat.lt_of_not_le apart
          linarith [inside.2]
        have length : volume.real (Set.Ico (start : ℝ) stop) = stop - start := by
          rw [Real.volume_real_Ico_of_le (by exact_mod_cast ordered)]
        rw [ih _ wide rest_later sorted.2, Set.union_assoc, measureReal_union separate (measurableSet_Ico.union (measurable_cover rest))
          (by simp) ((measure_union_lt_top (by simp) (cover_finite rest).lt_top).ne), length, Nat.cast_add, Nat.cast_sub ordered]
        ring

end Covering

end AtrexAgent.Intervals
