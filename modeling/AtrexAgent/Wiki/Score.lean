import Mathlib.Tactic

/-! How the outcomes of a record move its score: the feedback term, over exact rationals. -/

namespace AtrexAgent.WikiScore

def FEEDBACK_BAND : ℚ := 0.35

def CONFIDENCE_N : ℚ := 8.0

def clamp (value low high : ℚ) : ℚ := max low (min high value)

/-- What the corpus says of a record, as far as it sets the neutral point. -/
structure Prior where
  corpusLadderRatio : Option ℚ
  corpusKeptRatio : Option ℚ

/-- The outcomes among the counters of a record; `None` reads as 0. -/
structure Counters where
  verifiedEffective : Option ℚ
  verifiedIneffective : Option ℚ

def Counters.good (counters : Counters) : ℚ := counters.verifiedEffective.getD 0

def Counters.bad (counters : Counters) : ℚ := counters.verifiedIneffective.getD 0

/-- One more outcome that was the right call. -/
def Counters.succeed (counters : Counters) : Counters := { counters with verifiedEffective := some (counters.good + 1) }

def Counters.fail (counters : Counters) : Counters := { counters with verifiedIneffective := some (counters.bad + 1) }

def referenceRate (prior : Prior) (recordType : String) : Option ℚ :=
  match prior.corpusLadderRatio.or prior.corpusKeptRatio with
  | none => none
  | some reference => if recordType = "anti-strategy" then some (1 - reference) else some reference

/-- The neutral point for the outcomes. -/
def reference (baseRate : Option ℚ) : ℚ :=
  match baseRate with
  | none => 0.5
  | some rate => clamp rate 0.05 0.95

def feedbackTerm (counters : Counters) (_recordType : String) (baseRate : Option ℚ) : ℚ × ℚ :=
  let good := counters.good
  let bad := counters.bad
  let n := good + bad
  if n ≤ 0 then (0, 0)
  else
    let posterior := (good + 1.0) / (n + 2.0)
    let reference := reference baseRate
    let room := if posterior ≥ reference then 1.0 - reference else reference
    let signed := (posterior - reference) / max room 1e-6
    (clamp signed (-1.0) 1.0, clamp (n / CONFIDENCE_N) 0.0 1.0)

/-- `adjust` of `compute`. -/
def adjust (counters : Counters) (recordType : String) (baseRate : Option ℚ) : ℚ :=
  FEEDBACK_BAND * (feedbackTerm counters recordType baseRate).1 * (feedbackTerm counters recordType baseRate).2

/-! ### Deviation from a reference -/

section Deviation

variable {K : Type*} [Field K] [LinearOrder K] {r p q k m : K}

/-- How far a rate lies from a reference, as a share of the room on its side. -/
def deviation (r p : K) : K := (p - r) / if p ≥ r then 1 - r else r

theorem deviation_above (above : r ≤ p) : deviation r p = (p - r) / (1 - r) := by
  rw [deviation, if_pos above]

theorem deviation_below (below : p < r) : deviation r p = (p - r) / r := by
  rw [deviation, if_neg (not_le.mpr below)]

variable [IsStrictOrderedRing K]

theorem deviation_nonneg (below_one : r < 1) (above : r ≤ p) : 0 ≤ deviation r p := by
  rw [deviation_above above]
  exact div_nonneg (sub_nonneg.mpr above) (sub_nonneg.mpr below_one.le)

theorem deviation_neg (positive : 0 < r) (below : p < r) : deviation r p < 0 := by
  rw [deviation_below below]
  exact div_neg_of_neg_of_pos (sub_neg.mpr below) positive

theorem deviation_mem (positive : 0 < r) (below_one : r < 1) (low : 0 ≤ p) (high : p ≤ 1) :
    -1 ≤ deviation r p ∧ deviation r p ≤ 1 := by
  rcases le_or_gt r p with above | below
  · refine ⟨(neg_nonpos.mpr zero_le_one).trans (deviation_nonneg below_one above), ?_⟩
    rw [deviation_above above, div_le_one (sub_pos.mpr below_one)]
    linarith
  · refine ⟨?_, (deviation_neg positive below).le.trans zero_le_one⟩
    rw [deviation_below below, le_div_iff₀ positive]
    linarith

/-- The rate of the opposite outcome deviates the other way. -/
theorem deviation_opposite : deviation (1 - r) (1 - p) = -deviation r p := by
  rcases lt_trichotomy r p with above | rfl | below
  · rw [deviation_above above.le, deviation_below (by linarith), ← neg_div]
    congr 1
    ring
  · simp [deviation]
  · rw [deviation_below below, deviation_above (by linarith), ← neg_div, sub_sub_cancel]
    congr 1
    ring

/-- A rate that rises while its weight grows: only where it stays below the reference may the product fall. -/
theorem weighted_deviation_le_iff (positive : 0 < r) (below_one : r < 1) (rises : p ≤ q) (weight : 0 ≤ k)
    (grows : k ≤ m) :
    k * deviation r p ≤ m * deviation r q ↔ m * (r - q) ≤ k * (r - p) := by
  rcases le_or_gt r q with above | below
  · have shifted : m * (r - q) ≤ k * (r - q) := mul_le_mul_of_nonpos_right grows (sub_nonpos.mpr above)
    have risen : k * (r - q) ≤ k * (r - p) := mul_le_mul_of_nonneg_left (by linarith) weight
    have no_less : k * deviation r p ≤ m * deviation r q := by
      have later := deviation_nonneg below_one above
      rcases le_or_gt r p with before | before
      · have more : deviation r p ≤ deviation r q := by
          rw [deviation_above before, deviation_above above]
          exact div_le_div_of_nonneg_right (by linarith) (by linarith)
        exact mul_le_mul grows more (deviation_nonneg below_one before) (weight.trans grows)
      · calc k * deviation r p ≤ 0 := mul_nonpos_of_nonneg_of_nonpos weight (deviation_neg positive before).le
          _ ≤ m * deviation r q := mul_nonneg (weight.trans grows) later
    exact ⟨fun _ => shifted.trans risen, fun _ => no_less⟩
  · rw [deviation_below below, deviation_below (rises.trans_lt below), ← mul_div_assoc, ← mul_div_assoc,
      div_le_div_iff_of_pos_right positive]
    constructor <;> intro le <;> linarith

end Deviation

/-! ### Outcomes -/

theorem clamp_of_mem {value low high : ℚ} (low_le : low ≤ value) (le_high : value ≤ high) :
    clamp value low high = value := by
  rw [clamp, min_eq_right le_high, max_eq_right low_le]

theorem reference_mem (baseRate : Option ℚ) : 0.05 ≤ reference baseRate ∧ reference baseRate ≤ 0.95 := by
  cases baseRate with
  | none => constructor <;> norm_num [reference]
  | some rate => exact ⟨le_max_left _ _, max_le (by norm_num) (min_le_left _ _)⟩

/-- The posterior of Beta(1,1) after some outcomes. -/
def posterior (gained lost : ℚ) : ℚ := (gained + 1.0) / (gained + lost + 2.0)

theorem posterior_eq (gained lost : ℚ) : posterior gained lost = (gained + 1) / (gained + lost + 2) := by
  norm_num [posterior]

theorem posterior_pos {gained lost : ℚ} (gained_nonneg : 0 ≤ gained) (lost_nonneg : 0 ≤ lost) :
    0 < posterior gained lost := by
  rw [posterior_eq]
  positivity

theorem posterior_opposite {gained lost : ℚ} (gained_nonneg : 0 ≤ gained) (lost_nonneg : 0 ≤ lost) :
    posterior lost gained = 1 - posterior gained lost := by
  have some : gained + lost + 2 ≠ 0 := by positivity
  rw [posterior_eq, posterior_eq, add_comm lost gained]
  field_simp
  ring

theorem posterior_le_one {gained lost : ℚ} (gained_nonneg : 0 ≤ gained) (lost_nonneg : 0 ≤ lost) :
    posterior gained lost ≤ 1 := by
  have other := posterior_pos lost_nonneg gained_nonneg
  rw [posterior_opposite gained_nonneg lost_nonneg] at other
  linarith

theorem posterior_rises {gained lost : ℚ} (gained_nonneg : 0 ≤ gained) (lost_nonneg : 0 ≤ lost) :
    posterior gained lost ≤ posterior (gained + 1) lost := by
  rw [posterior_eq, posterior_eq, div_le_div_iff₀ (by positivity) (by positivity)]
  nlinarith

/-- The confidence after some outcomes, in outcomes. -/
def weight (n : ℚ) : ℚ := min n CONFIDENCE_N

/-- The adjustment is the deviation of the posterior, weighted; no outcome at all weighs nothing. -/
theorem adjust_eq (counters : Counters) (recordType : String) (baseRate : Option ℚ) (good_nonneg : 0 ≤ counters.good)
    (bad_nonneg : 0 ≤ counters.bad) :
    adjust counters recordType baseRate = FEEDBACK_BAND / CONFIDENCE_N *
      (weight (counters.good + counters.bad) *
        deviation (reference baseRate) (posterior counters.good counters.bad)) := by
  obtain ⟨low, high⟩ := reference_mem baseRate
  have bounds := deviation_mem (by linarith) (by linarith) (posterior_pos good_nonneg bad_nonneg).le
    (posterior_le_one good_nonneg bad_nonneg) (r := reference baseRate)
  have one : (1.0 : ℚ) = 1 := by norm_num
  have zero : (0.0 : ℚ) = 0 := by norm_num
  have two : (2.0 : ℚ) = 2 := by norm_num
  have eight : 0 < CONFIDENCE_N := by norm_num [CONFIDENCE_N]
  simp only [adjust, feedbackTerm, one, zero, two, ← posterior_eq]
  split
  · rename_i none_yet
    have none_at_all : counters.good + counters.bad = 0 := le_antisymm none_yet (add_nonneg good_nonneg bad_nonneg)
    rw [none_at_all, weight, min_eq_left eight.le]
    simp
  · have confidence : clamp ((counters.good + counters.bad) / CONFIDENCE_N) 0 1 =
        weight (counters.good + counters.bad) / CONFIDENCE_N := by
      rw [clamp, weight, ← div_self eight.ne', min_div_div_right eight.le, min_comm, max_eq_right]
      exact div_nonneg (le_min (add_nonneg good_nonneg bad_nonneg) eight.le) eight.le
    have room : (1e-6 : ℚ) ≤ if posterior counters.good counters.bad ≥ reference baseRate then 1 - reference baseRate
        else reference baseRate := by
      split <;> linarith
    rw [max_eq_left room, ← deviation, confidence, clamp_of_mem bounds.1 bounds.2]
    ring

/-- Where one more outcome of the kind that is gained moves the adjustment its way, or leaves it. -/
def Steady (reference gained lost : ℚ) : Prop :=
  let n := gained + lost
  (lost + 1) * (weight (n + 1) * (n + 2.0) - weight n * (n + 3.0)) ≤
    (1 - reference) * (weight (n + 1) - weight n) * ((n + 2.0) * (n + 3.0))

theorem steady_iff {reference gained lost : ℚ} (gained_nonneg : 0 ≤ gained) (lost_nonneg : 0 ≤ lost) :
    Steady reference gained lost ↔
      weight (gained + lost + 1) * (reference - posterior (gained + 1) lost) ≤
        weight (gained + lost) * (reference - posterior gained lost) := by
  have before : 0 < gained + lost + 2 := by positivity
  have after : 0 < gained + lost + 3 := by positivity
  have later : posterior (gained + 1) lost * (gained + lost + 3) = gained + 2 := by
    rw [posterior_eq, add_right_comm gained 1 lost]
    field_simp
    ring
  have now : posterior gained lost * (gained + lost + 2) = gained + 1 := by
    rw [posterior_eq]
    field_simp
  have left : weight (gained + lost + 1) * (reference - posterior (gained + 1) lost) *
      ((gained + lost + 2) * (gained + lost + 3)) = weight (gained + lost + 1) *
        (reference * (gained + lost + 3) - (gained + 2)) * (gained + lost + 2) := by
    rw [← later]
    ring
  have right : weight (gained + lost) * (reference - posterior gained lost) *
      ((gained + lost + 2) * (gained + lost + 3)) = weight (gained + lost) *
        (reference * (gained + lost + 2) - (gained + 1)) * (gained + lost + 3) := by
    rw [← now]
    ring
  rw [← mul_le_mul_iff_of_pos_right (mul_pos before after), left, right]
  norm_num [Steady]
  constructor <;> intro le <;> linarith

theorem adjust_rises_iff (counters : Counters) (recordType : String) (baseRate : Option ℚ)
    (good_nonneg : 0 ≤ counters.good) (bad_nonneg : 0 ≤ counters.bad) :
    adjust counters recordType baseRate ≤ adjust counters.succeed recordType baseRate ↔
      Steady (reference baseRate) counters.good counters.bad := by
  obtain ⟨low, high⟩ := reference_mem baseRate
  have band : 0 < FEEDBACK_BAND / CONFIDENCE_N := by norm_num [FEEDBACK_BAND, CONFIDENCE_N]
  have weight_nonneg : 0 ≤ weight (counters.good + counters.bad) :=
    le_min (add_nonneg good_nonneg bad_nonneg) (by norm_num [CONFIDENCE_N])
  have grows : weight (counters.good + counters.bad) ≤ weight (counters.good + counters.bad + 1) :=
    min_le_min_right _ (by linarith)
  have more : counters.succeed.good + counters.succeed.bad = counters.good + counters.bad + 1 := by
    simp only [Counters.succeed, Counters.good, Counters.bad, Option.getD_some]
    ring
  have rises := posterior_rises good_nonneg bad_nonneg
  rw [adjust_eq counters recordType baseRate good_nonneg bad_nonneg,
    adjust_eq counters.succeed recordType baseRate (add_nonneg good_nonneg zero_le_one) bad_nonneg, more,
    mul_le_mul_iff_of_pos_left band, steady_iff good_nonneg bad_nonneg]
  exact weighted_deviation_le_iff (by linarith) (by linarith) rises weight_nonneg grows

theorem adjust_falls_iff (counters : Counters) (recordType : String) (baseRate : Option ℚ)
    (good_nonneg : 0 ≤ counters.good) (bad_nonneg : 0 ≤ counters.bad) :
    adjust counters.fail recordType baseRate ≤ adjust counters recordType baseRate ↔
      Steady (1 - reference baseRate) counters.bad counters.good := by
  obtain ⟨low, high⟩ := reference_mem baseRate
  have band : 0 < FEEDBACK_BAND / CONFIDENCE_N := by norm_num [FEEDBACK_BAND, CONFIDENCE_N]
  have weight_nonneg : 0 ≤ weight (counters.bad + counters.good) :=
    le_min (add_nonneg bad_nonneg good_nonneg) (by norm_num [CONFIDENCE_N])
  have grows : weight (counters.bad + counters.good) ≤ weight (counters.bad + counters.good + 1) :=
    min_le_min_right _ (by linarith)
  have more : counters.fail.good + counters.fail.bad = counters.bad + counters.good + 1 := by
    simp only [Counters.fail, Counters.good, Counters.bad, Option.getD_some]
    ring
  have rises := posterior_rises bad_nonneg good_nonneg
  have opposite : posterior (counters.bad + 1) counters.good = 1 - posterior counters.good (counters.bad + 1) :=
    posterior_opposite good_nonneg (add_nonneg bad_nonneg zero_le_one)
  have turned := weighted_deviation_le_iff (sub_pos.mpr (by linarith : reference baseRate < 1)) (by linarith)
    rises weight_nonneg grows
  rw [posterior_opposite good_nonneg bad_nonneg, opposite, deviation_opposite, deviation_opposite, mul_neg, mul_neg,
    neg_le_neg_iff] at turned
  rw [adjust_eq counters recordType baseRate good_nonneg bad_nonneg,
    adjust_eq counters.fail recordType baseRate good_nonneg (add_nonneg bad_nonneg zero_le_one), more,
    add_comm counters.good, mul_le_mul_iff_of_pos_left band, steady_iff bad_nonneg good_nonneg, opposite,
    posterior_opposite good_nonneg bad_nonneg]
  exact turned

theorem adjust_mem (counters : Counters) (recordType : String) (baseRate : Option ℚ) (good_nonneg : 0 ≤ counters.good)
    (bad_nonneg : 0 ≤ counters.bad) :
    -FEEDBACK_BAND ≤ adjust counters recordType baseRate ∧ adjust counters recordType baseRate ≤ FEEDBACK_BAND := by
  obtain ⟨low, high⟩ := reference_mem baseRate
  obtain ⟨lower, upper⟩ := deviation_mem (by linarith) (by linarith) (posterior_pos good_nonneg bad_nonneg).le
    (posterior_le_one good_nonneg bad_nonneg) (r := reference baseRate)
  have eight : 0 < CONFIDENCE_N := by norm_num [CONFIDENCE_N]
  have band : 0 ≤ FEEDBACK_BAND := by norm_num [FEEDBACK_BAND]
  have share : 0 ≤ weight (counters.good + counters.bad) / CONFIDENCE_N :=
    div_nonneg (le_min (add_nonneg good_nonneg bad_nonneg) eight.le) eight.le
  have share_le : weight (counters.good + counters.bad) / CONFIDENCE_N ≤ 1 := by
    rw [div_le_one eight]
    exact min_le_right _ _
  have same : adjust counters recordType baseRate = FEEDBACK_BAND * (weight (counters.good + counters.bad) / CONFIDENCE_N *
      deviation (reference baseRate) (posterior counters.good counters.bad)) := by
    rw [adjust_eq counters recordType baseRate good_nonneg bad_nonneg]
    ring
  rw [same, ← abs_le, abs_mul, abs_mul, abs_of_nonneg band, abs_of_nonneg share]
  exact mul_le_of_le_one_right band (mul_le_one₀ share_le (abs_nonneg _) (abs_le.mpr ⟨lower, upper⟩))

/-- With whole counters: from eight outcomes on, or where the neutral point leaves room for the shift of the posterior. -/
theorem steady_whole (reference : ℚ) (gained lost : ℕ) : Steady reference gained lost ↔ 8 ≤ gained + lost ∨
    2 * (lost + 1 : ℚ) ≤ (1 - reference) * ((gained + lost + 2) * (gained + lost + 3)) := by
  rcases Nat.lt_or_ge (gained + lost) 8 with few | many
  · have below : (gained + lost + 1 : ℚ) ≤ 8 := by exact_mod_cast few
    have now : weight (gained + lost) = gained + lost := min_eq_left (by norm_num [CONFIDENCE_N]; linarith)
    have later : weight (gained + lost + 1) = gained + lost + 1 := min_eq_left (by norm_num [CONFIDENCE_N]; linarith)
    rw [or_iff_right (by omega)]
    norm_num [Steady, now, later]
    constructor <;> intro le <;> linarith
  · have above : (8 : ℚ) ≤ gained + lost := by exact_mod_cast many
    have now : weight (gained + lost) = 8 := by
      rw [weight, min_eq_right] <;> norm_num [CONFIDENCE_N, above]
    have later : weight (gained + lost + 1) = 8 := by
      rw [weight, min_eq_right] <;> norm_num [CONFIDENCE_N]
      linarith
    simp only [many, true_or, iff_true, Steady, now, later]
    norm_num
    nlinarith [(Nat.cast_nonneg lost : (0 : ℚ) ≤ lost)]

/-- With no base rate the outcomes move the adjustment their way. -/
theorem steady_unrated (gained lost : ℕ) : Steady (reference none) gained lost := by
  rw [steady_whole]
  right
  norm_num [reference]
  nlinarith [(Nat.cast_nonneg lost : (0 : ℚ) ≤ lost), (Nat.cast_nonneg gained : (0 : ℚ) ≤ gained)]

/-- The same outcomes, read for a warning and with their kinds swapped, move the score the other way. -/
theorem anti_strategy_mirrors (prior : Prior) (counters : Counters) (recordType : String)
    (other : recordType ≠ "anti-strategy") (good_nonneg : 0 ≤ counters.good) (bad_nonneg : 0 ≤ counters.bad) :
    adjust counters "anti-strategy" (referenceRate prior "anti-strategy") =
      -adjust ⟨counters.verifiedIneffective, counters.verifiedEffective⟩ recordType (referenceRate prior recordType) := by
  have mirrored : reference (referenceRate prior "anti-strategy") = 1 - reference (referenceRate prior recordType) := by
    unfold referenceRate
    cases prior.corpusLadderRatio.or prior.corpusKeptRatio with
    | none => norm_num [reference]
    | some rate =>
        simp only [if_neg other, ite_true, reference, clamp, ← max_sub_sub_left, ← min_sub_sub_left]
        norm_num
        rw [max_min_distrib_left]
        norm_num
  have swapped := adjust_eq ⟨counters.verifiedIneffective, counters.verifiedEffective⟩ recordType
    (referenceRate prior recordType) bad_nonneg good_nonneg
  rw [adjust_eq counters "anti-strategy" _ good_nonneg bad_nonneg, mirrored, swapped, ← mul_neg, ← mul_neg,
    ← deviation_opposite]
  change _ = FEEDBACK_BAND / CONFIDENCE_N * (weight (counters.bad + counters.good) *
    deviation _ (1 - posterior counters.bad counters.good))
  rw [posterior_opposite good_nonneg bad_nonneg, sub_sub_cancel, add_comm]

/-- The adjustment stays in its band, and one more outcome moves it the outcome's way exactly where the evidence is
steady. -/
theorem outcomes_move_adjustment (counters : Counters) (recordType : String) (baseRate : Option ℚ)
    (good_nonneg : 0 ≤ counters.good) (bad_nonneg : 0 ≤ counters.bad) :
    (-FEEDBACK_BAND ≤ adjust counters recordType baseRate ∧ adjust counters recordType baseRate ≤ FEEDBACK_BAND) ∧
      (adjust counters recordType baseRate ≤ adjust counters.succeed recordType baseRate ↔
        Steady (reference baseRate) counters.good counters.bad) ∧
      (adjust counters.fail recordType baseRate ≤ adjust counters recordType baseRate ↔
        Steady (1 - reference baseRate) counters.bad counters.good) :=
  ⟨adjust_mem counters recordType baseRate good_nonneg bad_nonneg,
    adjust_rises_iff counters recordType baseRate good_nonneg bad_nonneg,
    adjust_falls_iff counters recordType baseRate good_nonneg bad_nonneg⟩

theorem outcomes_move_adjustment_mixed :
    (-FEEDBACK_BAND ≤ adjust ⟨some 3, some 1⟩ "strategy" (some 0.16) ∧
        adjust ⟨some 3, some 1⟩ "strategy" (some 0.16) ≤ FEEDBACK_BAND) ∧
      (adjust ⟨some 3, some 1⟩ "strategy" (some 0.16) ≤
          adjust (Counters.succeed ⟨some 3, some 1⟩) "strategy" (some 0.16) ↔
        Steady (reference (some 0.16)) 3 1) ∧
      (adjust (Counters.fail ⟨some 3, some 1⟩) "strategy" (some 0.16) ≤
          adjust ⟨some 3, some 1⟩ "strategy" (some 0.16) ↔
        Steady (1 - reference (some 0.16)) 1 3) :=
  outcomes_move_adjustment ⟨some 3, some 1⟩ "strategy" (some 0.16) (by norm_num [Counters.good])
    (by norm_num [Counters.bad])

/-- A lever that nearly always works: its first success lowers the adjustment. -/
theorem success_lowers_adjustment : ¬ ∀ (counters : Counters) (recordType : String) (baseRate : Option ℚ),
    (∀ rate ∈ baseRate, 0 ≤ rate ∧ rate ≤ 1) → 0 ≤ counters.good → 0 ≤ counters.bad →
      (-FEEDBACK_BAND ≤ adjust counters recordType baseRate ∧ adjust counters recordType baseRate ≤ FEEDBACK_BAND) ∧
        adjust counters recordType baseRate ≤ adjust counters.succeed recordType baseRate ∧
        adjust counters.fail recordType baseRate ≤ adjust counters recordType baseRate := by
  intro always
  have rate : ∀ rate ∈ some (0.95 : ℚ), 0 ≤ rate ∧ rate ≤ 1 := by
    intro rate member
    cases member
    norm_num
  have rises := (always ⟨none, none⟩ "strategy" (some 0.95) rate le_rfl le_rfl).2.1
  have before : adjust ⟨none, none⟩ "strategy" (some 0.95) = 0 := by
    norm_num [adjust, feedbackTerm, Counters.good, Counters.bad]
  have after : adjust (Counters.succeed ⟨none, none⟩) "strategy" (some 0.95) = -119 / 9120 := by
    norm_num [adjust, feedbackTerm, Counters.succeed, Counters.good, Counters.bad, reference, clamp, FEEDBACK_BAND,
      CONFIDENCE_N]
  rw [before, after] at rises
  norm_num at rises

end AtrexAgent.WikiScore
