import Mathlib
import AtrexAgent.Evaluation.Abba
import AtrexAgent.Library.Traversal

/-! When the gate passes a payload, and what its runs then are. -/

namespace AtrexAgent.Evaluation

open AtrexAgent.Json

noncomputable section

open scoped Classical

/-! ### The runs of a side -/

theorem mem_rowsOfSide (rows : List Dict) (side : Revision) (row : Dict) :
    row ∈ rowsOfSide rows side ↔ row ∈ rows ∧ get row "revision" = .str side.name := by
  simp [rowsOfSide]

theorem name_injective (side other : Revision) (same : side.name = other.name) :
    side = other := by
  cases side <;> cases other <;> simp [Revision.name] at same ⊢

theorem rowsOfSide_length (rows : List Dict) (schedule : List Step) (side : Revision)
    (scheduled : Scheduled rows schedule) :
    (rowsOfSide rows side).length =
      (schedule.filter fun step => step.revision = side).length := by
  induction scheduled with
  | nil => rfl
  | @cons row step rows schedule executes _ ih =>
      unfold rowsOfSide at ih ⊢
      have revision := executes.1
      by_cases same : step.revision = side
      · have here : get row "revision" = .str side.name := by rw [revision, same]
        rw [List.filter_cons_of_pos (by simpa using here),
          List.filter_cons_of_pos (by simpa using same), List.length_cons, ih, List.length_cons]
      · have elsewhere : ¬ get row "revision" = .str side.name := by
          intro here
          rw [revision] at here
          injection here with names
          exact same (name_injective _ _ names)
        rw [List.filter_cons_of_neg (by simpa using elsewhere),
          List.filter_cons_of_neg (by simpa using same), ih]

/-- Every repeat runs each side once. -/
theorem schedule_side_length (repeats : Nat) (side : Revision) :
    ((verificationSchedule repeats).filter fun step => step.revision = side).length =
      max 1 repeats := by
  unfold verificationSchedule
  generalize max 1 repeats = n
  induction n with
  | zero => rfl
  | succ n ih =>
      rw [List.range_succ, List.flatMap_append, List.filter_append, List.length_append, ih]
      congr 1
      rw [List.flatMap_singleton]
      by_cases even : n % 2 = 0 <;> cases side <;> simp [even]

theorem row_has_side (rows : List Dict) (schedule : List Step)
    (scheduled : Scheduled rows schedule) (row : Dict) (member : row ∈ rows) :
    ∃ side, row ∈ rowsOfSide rows side := by
  obtain ⟨step, _, executes⟩ := forall₂_mem_left scheduled row member
  exact ⟨step.revision, (mem_rowsOfSide rows step.revision row).mpr ⟨member, executes.1⟩⟩

/-! ### The latency of a run -/

/-- The gate counts a run with this latency. -/
structure Counts (row : Dict) (latency : ℝ) : Prop where
  exit : Equals (get row "exit_code") 0
  reads : ∃ result, get row "result" = .obj result ∧ get result "all_pass" = .bool true ∧
    (∀ b, get result "latency_us_geomean" ≠ .bool b) ∧
    (number (latencyValue result)).bind Number.positive = some latency

/-- The run passed with a positive finite latency, a number of its result. -/
structure Passed (row : Dict) (latency : ℝ) : Prop where
  exit : Equals (get row "exit_code") 0
  reads : ∃ result, get row "result" = .obj result ∧ get result "all_pass" = .bool true ∧
    positiveNumber (latencyValue result) = some latency

/-- The run has no numeric GeoMean, and `true` for the latency below `performance`. -/
def BooleanLatency (row : Dict) : Prop :=
  ∃ result performance, get row "result" = .obj result ∧
    number (get result "latency_us_geomean") = none ∧
    get result "performance" = .obj performance ∧ get performance "latency_us" = .bool true

theorem gateLatency_eq_some (row : Dict) (latency : ℝ) :
    gateLatency row = some latency ↔ Counts row latency := by
  constructor
  · intro read
    unfold gateLatency at read
    split at read
    · rename_i result here
      split at read
      · cases read
      · rename_i no_bool
        split at read
        · rename_i ran
          have passes : Truthy (get result "all_pass") := by simp [ran.2, Truthy]
          simp only [resultLatency, if_pos passes] at read
          exact ⟨ran.1, result, here, ran.2, no_bool, read⟩
        · cases read
    · cases read
  · rintro ⟨exit, result, here, passes, no_bool, read⟩
    have ran : Equals (get row "exit_code") 0 ∧ get result "all_pass" = .bool true :=
      ⟨exit, passes⟩
    have truthy : Truthy (get result "all_pass") := by simp [passes, Truthy]
    unfold gateLatency
    rw [here]
    dsimp only
    split
    · rename_i b boolean
      exact absurd boolean (no_bool b)
    · simpa only [if_pos ran, resultLatency, if_pos truthy] using read

theorem positiveNumber_eq_some (value : Value) (x : ℝ) :
    positiveNumber value = some x ↔
      (∀ b, value ≠ .bool b) ∧ (number value).bind Number.positive = some x := by
  cases value <;> simp [positiveNumber]

/-- What the gate counts passed, unless its latency is a Boolean. -/
theorem passed_iff (row : Dict) (latency : ℝ) (counts : Counts row latency) :
    (∃ x, Passed row x) ↔ ¬ BooleanLatency row := by
  obtain ⟨exit, result, here, passes, no_bool, read⟩ := counts
  constructor
  · rintro ⟨x, -, result', here', -, positive⟩ ⟨result'', performance, here'', missing, below,
      boolean⟩
    rw [here] at here' here''
    cases here'
    cases here''
    have value : latencyValue result = .bool true := by
      simp [latencyValue, missing, below, boolean]
    exact ((positiveNumber_eq_some _ _).mp positive).1 true value
  · intro numeric
    refine ⟨latency, exit, result, here, passes, (positiveNumber_eq_some _ _).mpr ⟨?_, read⟩⟩
    intro b value
    have is_true : b = true := by
      by_contra is_false
      simp [value, number, Number.positive, Bool.eq_false_of_not_eq_true is_false] at read
    subst is_true
    apply numeric
    unfold latencyValue at value
    split at value
    · exact absurd value (no_bool true)
    · rename_i missing below
      exact ⟨result, _, here, missing, below, value⟩
    · cases value

/-! ### When the gate passes -/

/-- The percentage by which the candidate's aggregate is below the incumbent's. -/
def improvement (rows : List Dict) (latency : Dict → ℝ) : ℝ :=
  let candidate := expMean ((rowsOfSide rows .candidate).map latency)
  let incumbent := expMean ((rowsOfSide rows .incumbent).map latency)
  (incumbent - candidate) / incumbent * (100 : ℕ)

theorem positive_of_read (value : Value) (x : ℝ)
    (read : (number value).bind Number.positive = some x) : 0 < x := by
  obtain ⟨y, _, positive⟩ := Option.bind_eq_some_iff.mp read
  cases y with
  | finite z =>
      simp only [Number.positive] at positive
      split at positive
      · rename_i above
        cases positive
        exact above
      · cases positive
  | nan => cases positive
  | inf negative => cases positive

theorem positive_finite (x : ℝ) (positive : 0 < x) : Number.positive (.finite x) = some x := by
  simp [Number.positive, positive]

theorem geomean_of_positive (values : List ℝ) (some_value : values ≠ [])
    (positive : ∀ x ∈ values, 0 < x) : geomean (values.map .finite) = some (expMean values) := by
  have all : (values.map Number.finite).mapM Number.positive = some values := by
    rw [mapM_some_iff, List.forall₂_map_left_iff, List.forall₂_same]
    intro x member
    exact positive_finite x (positive x member)
  unfold geomean
  rw [all]
  cases values with
  | nil => exact absurd rfl some_value
  | cons x rest => rfl

theorem sideLatencies_eq_map (rows : List Dict) (side : Revision) (latency : Dict → ℝ)
    (counts : ∀ row ∈ rows, Counts row (latency row)) :
    sideLatencies rows side = (rowsOfSide rows side).map latency := by
  have here : ∀ row ∈ rowsOfSide rows side, gateLatency row = (some ∘ latency) row := by
    intro row member
    exact (gateLatency_eq_some row (latency row)).mpr
      (counts row ((mem_rowsOfSide rows side row).mp member).1)
  unfold sideLatencies
  rw [List.filterMap_congr here, List.filterMap_eq_map]

/-- The gate counts every run, and the improvement it computes from the two sides is
above the minimum by more than rounding. -/
structure Admissible (payload : Value) (rows : List Dict) (repeats : Nat) (minPct : ℝ) :
    Prop where
  minimum : 0 ≤ minPct
  payload : ∃ d, payload = .obj d ∧ rowsOf d = some rows ∧ ¬ Truthy (get d "error")
  scheduled : Scheduled rows (verificationSchedule repeats)
  sides : ∀ side, (rowsOfSide rows side).length = repeats
  improves : ∃ latency, (∀ row ∈ rows, Counts row (latency row)) ∧
    improvement rows latency > minPct ∧ ¬ IsClose (improvement rows latency) minPct

theorem sides_counted (rows : List Dict) (repeats : Nat)
    (scheduled : Scheduled rows (verificationSchedule repeats))
    (lengths : ∀ side, (sideLatencies rows side).length = repeats)
    (some_latency : sideLatencies rows .candidate ≠ []) :
    (∀ side, (rowsOfSide rows side).length = repeats) ∧
      ∀ row ∈ rows, Counts row ((gateLatency row).getD 0) := by
  have runs : ∀ side, (rowsOfSide rows side).length = max 1 repeats := by
    intro side
    rw [rowsOfSide_length rows _ side scheduled, schedule_side_length]
  have repeated : 0 < repeats := by
    rw [← lengths .candidate]
    exact List.length_pos_of_ne_nil some_latency
  have sides : ∀ side, (rowsOfSide rows side).length = repeats := by
    intro side
    rw [runs side]
    omega
  constructor
  · exact sides
  · intro row member
    obtain ⟨side, here⟩ := row_has_side rows _ scheduled row member
    have all : (List.filterMap gateLatency (rowsOfSide rows side)).length =
        (rowsOfSide rows side).length := by
      rw [sides side]
      exact lengths side
    have read := List.filterMap_length_eq_length.mp all row here
    obtain ⟨x, latency⟩ := Option.isSome_iff_exists.mp read
    rw [latency]
    exact (gateLatency_eq_some row x).mp latency

def Passes (payload : Value) (repeats : Nat) (minPct : ℝ) (verdict : VerificationResult) : Prop :=
  scoreVerificationPayload payload (verificationSchedule repeats) repeats minPct = .ok verdict ∧
    verdict.gate = .pass

theorem sideLatencies_positive (rows : List Dict) (side : Revision) :
    ∀ x ∈ sideLatencies rows side, 0 < x := by
  intro x member
  obtain ⟨row, _, read⟩ := List.mem_filterMap.mp member
  obtain ⟨_, _, _, _, _, read⟩ := (gateLatency_eq_some row x).mp read
  exact positive_of_read _ x read

theorem geomean_side (rows : List Dict) (side : Revision) :
    geomean ((sideLatencies rows side).map .finite) =
      if sideLatencies rows side = [] then none else some (expMean (sideLatencies rows side)) := by
  split
  · rename_i empty
    rw [empty]
    rfl
  · rename_i some_latency
    exact geomean_of_positive _ some_latency (sideLatencies_positive rows side)

theorem admissible_of_passes (payload : Value) (repeats : Nat) (minPct : ℝ)
    (verdict : VerificationResult) (passes : Passes payload repeats minPct verdict) :
    ∃ rows, Admissible payload rows repeats minPct ∧
      ∀ latency, (∀ row ∈ rows, Counts row (latency row)) →
        verdict.improvementPct = some (improvement rows latency) := by
  obtain ⟨scored, gate⟩ := passes
  unfold scoreVerificationPayload at scored
  split at scored
  · cases scored
  rename_i minimum
  split at scored
  case h_2 =>
    cases scored
    cases gate
  rename_i d
  split at scored
  case h_1 =>
    cases scored
    cases gate
  rename_i rows here
  split at scored
  · cases scored
    cases gate
  rename_i complete
  push Not at complete
  obtain ⟨no_error, scheduled⟩ := complete
  dsimp only at scored
  rw [geomean_side, geomean_side] at scored
  by_cases no_candidate : sideLatencies rows .candidate = []
  · rw [if_pos no_candidate] at scored
    cases scored
    cases gate
  by_cases no_incumbent : sideLatencies rows .incumbent = []
  · rw [if_neg no_candidate, if_pos no_incumbent] at scored
    cases scored
    cases gate
  rw [if_neg no_candidate, if_neg no_incumbent] at scored
  dsimp only at scored
  split at scored
  · cases scored
    cases gate
  rename_i complete
  push Not at complete
  have lengths : ∀ side, (sideLatencies rows side).length = repeats := by
    intro side
    cases side with
    | incumbent => exact complete.2
    | candidate => exact complete.1
  obtain ⟨sides, counts⟩ := sides_counted rows repeats scheduled lengths no_candidate
  have aggregates : ∀ latency, (∀ row ∈ rows, Counts row (latency row)) →
      (expMean (sideLatencies rows .incumbent) - expMean (sideLatencies rows .candidate)) /
        expMean (sideLatencies rows .incumbent) * 100 = improvement rows latency := by
    intro latency reads
    rw [sideLatencies_eq_map rows .incumbent latency reads,
      sideLatencies_eq_map rows .candidate latency reads]
    rfl
  split at scored
  · rename_i above
    cases scored
    refine ⟨rows, ⟨not_lt.mp minimum, ⟨d, rfl, here, no_error⟩, scheduled, sides,
      _, counts, ?_⟩, ?_⟩
    · rw [aggregates _ counts] at above
      exact above
    · intro latency reads
      exact congrArg some (aggregates latency reads)
  · cases scored
    cases gate

theorem passes_of_admissible (payload : Value) (rows : List Dict) (repeats : Nat) (minPct : ℝ)
    (admissible : Admissible payload rows repeats minPct) :
    ∃ verdict, Passes payload repeats minPct verdict := by
  obtain ⟨minimum, ⟨d, rfl, here, no_error⟩, scheduled, sides, latency, counts, above⟩ := admissible
  have lengths : ∀ side, (sideLatencies rows side).length = repeats := by
    intro side
    rw [sideLatencies_eq_map rows side latency counts, List.length_map, sides side]
  have repeated : repeats ≠ 0 := by
    intro none_repeated
    have runs := rowsOfSide_length rows _ .candidate scheduled
    rw [schedule_side_length, sides] at runs
    omega
  have some_latency : ∀ side, sideLatencies rows side ≠ [] := by
    intro side empty
    have length := lengths side
    rw [empty] at length
    exact repeated length.symm
  refine ⟨⟨.pass, some (expMean (sideLatencies rows .candidate)),
    some (expMean (sideLatencies rows .incumbent)), some (improvement rows latency), ""⟩, ?_, rfl⟩
  unfold scoreVerificationPayload
  rw [if_neg (not_lt.mpr minimum)]
  simp only [here]
  rw [if_neg (by simp [no_error, scheduled])]
  rw [geomean_side, geomean_side, if_neg (some_latency _), if_neg (some_latency _)]
  dsimp only
  rw [if_neg (by simp [lengths])]
  have aggregates : (expMean (sideLatencies rows .incumbent) -
      expMean (sideLatencies rows .candidate)) / expMean (sideLatencies rows .incumbent) * 100 =
        improvement rows latency := by
    rw [sideLatencies_eq_map rows .incumbent latency counts,
      sideLatencies_eq_map rows .candidate latency counts]
    rfl
  rw [aggregates, if_pos above]
  rfl

end

end AtrexAgent.Evaluation
