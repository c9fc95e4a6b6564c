import Mathlib
import AtrexAgent.Evaluation.Gate
import AtrexAgent.Evaluation.Merge

/-! Soundness of the gate: what a payload that passes contains, and that the agent is
shown two correct sides for it. -/

namespace AtrexAgent.Evaluation

open AtrexAgent.Json

noncomputable section

open scoped Classical

/-! ### The projection of measured runs -/

theorem meanOfRepeats_isSome (repeats : Nat) (values : List (Option ℝ))
    (length : values.length = repeats) (all : ∀ value ∈ values, value.isSome) :
    (meanOfRepeats repeats values).isSome := by
  have complete : (values.filterMap id).length = repeats := by
    rw [← length]
    exact List.filterMap_length_eq_length.mpr all
  unfold meanOfRepeats
  rw [if_pos complete]
  rfl

theorem sideByShape_keys (results : List Dict) (repeats : Nat) (shapeIds : List String)
    (length : results.length = repeats) (measured : ∀ result ∈ results, Measured result shapeIds)
    (key : String) :
    key ∈ (sideByShape results repeats shapeIds).map Prod.fst ↔ key ∈ shapeIds := by
  have each : ∀ shapeId ∈ shapeIds, (meanOfRepeats repeats (results.filterMap fun result =>
      (dictOf (get result "latency_us_by_shape")).map fun d =>
        positiveNumber (get d shapeId))).isSome := by
    intro shapeId member
    apply meanOfRepeats_isSome
    · rw [← length, List.filterMap_length_eq_length]
      intro result given
      obtain ⟨d, latencies, _⟩ := (measured result given).shapes
      simp [latencies, dictOf]
    · intro value present
      obtain ⟨result, given, here⟩ := List.mem_filterMap.mp present
      obtain ⟨d, latencies, positive⟩ := (measured result given).shapes
      rw [latencies] at here
      cases here
      exact positive shapeId member
  unfold sideByShape
  simp only [List.mem_map, List.mem_filterMap]
  constructor
  · rintro ⟨item, ⟨shapeId, member, here⟩, rfl⟩
    obtain ⟨mean, _, rfl⟩ := Option.map_eq_some_iff.mp here
    exact member
  · intro member
    obtain ⟨mean, here⟩ := Option.isSome_iff_exists.mp (each key member)
    exact ⟨(key, mean), ⟨key, member, by rw [here]; rfl⟩, rfl⟩

section Sides

variable {compare : Value → Value → Except Error Bool}

theorem side_correct (rows : List Dict) (side : Revision) (repeats : Nat)
    (shapeIds : List String) (length : (rowsOfSide rows side).length = repeats)
    (passed : ∀ row ∈ rows, ∃ result, successful row = some result ∧ Measured result shapeIds)
    (metrics : SideMetrics)
    (shown : abbaSideMetrics compare rows side repeats shapeIds = .ok metrics) :
    metrics.correct := by
  unfold abbaSideMetrics at shown
  obtain ⟨maxAbs, _, shown⟩ := (bind_ok_iff _ _ _).mp shown
  obtain ⟨maxRel, _, shown⟩ := (bind_ok_iff _ _ _).mp shown
  cases shown
  have count : ((rowsOfSide rows side).filterMap successful).length = repeats := by
    rw [← length, List.filterMap_length_eq_length]
    intro row member
    obtain ⟨result, here, _⟩ := passed row ((mem_rowsOfSide rows side row).mp member).1
    simp [here]
  have measured : ∀ result ∈ (rowsOfSide rows side).filterMap successful,
      Measured result shapeIds := by
    intro result member
    obtain ⟨row, given, here⟩ := List.mem_filterMap.mp member
    obtain ⟨result', here', measured⟩ := passed row ((mem_rowsOfSide rows side row).mp given).1
    rw [here] at here'
    cases here'
    exact measured
  refine ⟨count, fun key => sideByShape_keys _ repeats shapeIds count measured key, ?_⟩
  apply meanOfRepeats_isSome
  · rw [List.length_map, count]
  · intro value member
    obtain ⟨result, given, rfl⟩ := List.mem_map.mp member
    exact (measured result given).geomean

/-- The errors of a result are numbers, where it has any. -/
def NumericErrors (result : Dict) : Prop :=
  ∀ key ∈ ["max_abs_err", "max_rel_err"],
    Truthy (get result key) → (number (get result key)).isSome

theorem foldlM_greater (values : List Value) (best : Value) (here : (number best).isSome)
    (all : ∀ value ∈ values, (number value).isSome) :
    ∃ worst, values.foldlM (fun best error => do
      if ← greater compare error best then pure error else pure best) best =
        (.ok worst : Except Error Value) := by
  induction values generalizing best with
  | nil => exact ⟨best, rfl⟩
  | cons value rest ih =>
      obtain ⟨x, first⟩ := Option.isSome_iff_exists.mp here
      obtain ⟨y, second⟩ := Option.isSome_iff_exists.mp (all value List.mem_cons_self)
      have later := fun value member => all value (List.mem_cons_of_mem _ member)
      have ordered : greater compare value best = .ok (decide (x.Less y)) := by
        simp [greater, first, second, pure, Except.pure]
      rw [List.foldlM_cons, ordered]
      by_cases less : x.Less y
      · obtain ⟨worst, done⟩ := ih value (by rw [second]; rfl) later
        refine ⟨worst, ?_⟩
        rw [← done, decide_eq_true less]
        rfl
      · obtain ⟨worst, done⟩ := ih best here later
        refine ⟨worst, ?_⟩
        rw [← done, decide_eq_false less]
        rfl

theorem worstError_ok (key : String) (results : List Dict)
    (numeric : ∀ result ∈ results, Truthy (get result key) → (number (get result key)).isSome) :
    ∃ worst, worstError compare key results = .ok worst := by
  have all : ∀ value ∈ results.map (fun result =>
      if Truthy (get result key) then get result key else .int 0), (number value).isSome := by
    intro value member
    obtain ⟨result, given, rfl⟩ := List.mem_map.mp member
    split
    · rename_i truthy
      exact numeric result given truthy
    · rfl
  unfold worstError
  cases here : results.map fun result =>
      if Truthy (get result key) then get result key else .int 0 with
  | nil => exact ⟨_, rfl⟩
  | cons first rest =>
      rw [here] at all
      exact foldlM_greater rest first (all first List.mem_cons_self)
        fun value member => all value (List.mem_cons_of_mem _ member)

theorem abbaSideMetrics_ok (rows : List Dict) (side : Revision) (repeats : Nat)
    (shapeIds : List String)
    (numeric : ∀ row ∈ rows, ∀ result, successful row = some result → NumericErrors result) :
    ∃ metrics, abbaSideMetrics compare rows side repeats shapeIds = .ok metrics := by
  have each : ∀ key ∈ ["max_abs_err", "max_rel_err"],
      ∃ worst, worstError compare key ((rowsOfSide rows side).filterMap successful) = .ok worst := by
    intro key member
    apply worstError_ok
    intro result given
    obtain ⟨row, present, here⟩ := List.mem_filterMap.mp given
    exact numeric row ((mem_rowsOfSide rows side row).mp present).1 result here key member
  obtain ⟨maxAbs, absolute⟩ := each "max_abs_err" (by simp)
  obtain ⟨maxRel, relative⟩ := each "max_rel_err" (by simp)
  unfold abbaSideMetrics
  dsimp only
  rw [absolute, relative]
  exact ⟨_, rfl⟩

theorem shown_correct (payload : Dict) (rows : List Dict) (schedule : List Step)
    (repeats : Nat) (shapeIds : List String) (here : rowsOf payload = some rows)
    (sides : ∀ side, (rowsOfSide rows side).length = repeats)
    (passed : ∀ row ∈ rows, ∃ result, successful row = some result ∧ Measured result shapeIds)
    (shown : PublicResult)
    (done : agentAbbaPublicResult compare payload schedule shapeIds repeats = .ok shown) :
    shown.baseline.correct ∧ shown.candidate.correct := by
  unfold agentAbbaPublicResult at done
  rw [here] at done
  dsimp only at done
  split at done
  · cases done
  obtain ⟨baseline, first, done⟩ := (bind_ok_iff _ _ _).mp done
  obtain ⟨candidate, second, done⟩ := (bind_ok_iff _ _ _).mp done
  cases done
  exact ⟨side_correct rows .incumbent repeats shapeIds (sides _) passed baseline first,
    side_correct rows .candidate repeats shapeIds (sides _) passed candidate second⟩

theorem shown_ok (payload : Dict) (rows : List Dict) (schedule : List Step) (repeats : Nat)
    (shapeIds : List String) (here : rowsOf payload = some rows)
    (scheduled : Scheduled rows schedule)
    (numeric : ∀ row ∈ rows, ∀ result, successful row = some result → NumericErrors result) :
    ∃ shown, agentAbbaPublicResult compare payload schedule shapeIds repeats = .ok shown := by
  obtain ⟨baseline, first⟩ := abbaSideMetrics_ok rows .incumbent repeats
    shapeIds numeric
  obtain ⟨candidate, second⟩ := abbaSideMetrics_ok rows .candidate repeats
    shapeIds numeric
  unfold agentAbbaPublicResult
  rw [here]
  dsimp only
  rw [if_neg (not_not.mpr scheduled), first, second]
  exact ⟨_, rfl⟩

end Sides

/-! ### Validated batches -/

section Batches

variable {deviceFailure : Value → Prop} {readFloat : String → Option Number}

theorem validateBatch_ok (payload : Dict) (schedule : List Step) (shapeIds : List String)
    (valid : validateBatch deviceFailure (.obj payload) schedule shapeIds = .ok payload) :
    ∃ rows, rowsOf payload = some rows ∧ ∀ row ∈ rows, validRow row shapeIds = .ok () := by
  unfold validateBatch at valid
  dsimp only at valid
  split at valid
  · cases valid
  split at valid
  · cases valid
  split at valid
  · cases valid
  rename_i rows here
  split at valid
  · cases valid
  obtain ⟨_, each, _⟩ := (bind_ok_iff _ _ _).mp valid
  exact ⟨rows, here, (forM_ok_iff _ _).mp each⟩

theorem successful_eq_some (row result : Dict) :
    successful row = some result ↔ get row "result" = .obj result ∧
      Equals (get row "exit_code") 0 ∧ get result "all_pass" = .bool true := by
  unfold successful
  split
  · rename_i d here
    rw [Option.ite_none_right_eq_some]
    constructor
    · rintro ⟨ran, same⟩
      cases same
      exact ⟨here, ran⟩
    · rintro ⟨same, ran⟩
      rw [here] at same
      cases same
      exact ⟨ran, rfl⟩
  · rename_i other
    constructor
    · intro nothing
      cases nothing
    · rintro ⟨same, _⟩
      exact absurd same (other result)

theorem counts_successful (row : Dict) (latency : ℝ) (counts : Counts row latency) :
    ∃ result, successful row = some result := by
  obtain ⟨exit, result, here, passes, _, _⟩ := counts
  exact ⟨result, (successful_eq_some row result).mpr ⟨here, exit, passes⟩⟩

/-- The errors of all runs of a payload that passed are numbers. -/
def PayloadNumeric (payload : Dict) : Prop :=
  ∀ rows, rowsOf payload = some rows → ∀ row ∈ rows, ∀ result, successful row = some result →
    NumericErrors result

theorem mergedRun_numeric (step : Step) (rows : List (Dict × Dict)) (shapeIds : List String)
    (row result merged : Dict) (latencies : List (String × Number))
    (run : MergedRun readFloat step rows shapeIds row result merged latencies) :
    NumericErrors result := by
  obtain ⟨x, _, absolute⟩ := run.merges.maxAbs
  obtain ⟨y, _, relative⟩ := run.merges.maxRel
  intro key member _
  simp only [List.mem_cons, List.not_mem_nil, or_false] at member
  rcases member with rfl | rfl
  · rw [run.other _ (by decide), absolute]
    rfl
  · rw [run.other _ (by decide), relative]
    rfl

/-- A run of the merge of validated batches that passes is measured on every shape. -/
theorem merged_rows (payloads : List Dict) (batches : List (List String))
    (schedule : List Step) (shapeIds : List String) (merged : Dict) (some_shape : shapeIds ≠ [])
    (covered : ∀ shapeId ∈ shapeIds, ∃ batch ∈ batches, shapeId ∈ batch)
    (valid : List.Forall₂ (fun payload batch =>
      validateBatch deviceFailure (.obj payload) schedule batch = .ok payload) payloads batches)
    (done : mergeAbbaBatchPayloads readFloat payloads schedule shapeIds = .ok merged) :
    ∃ rows, rowsOf merged = some rows ∧
      (∀ row ∈ rows, ∀ result, successful row = some result → Measured result shapeIds) ∧
      ((∀ payload ∈ payloads, PayloadNumeric payload) → PayloadNumeric merged) := by
  by_cases single : ∃ payload, payloads = [payload]
  · obtain ⟨payload, rfl⟩ := single
    rw [List.forall₂_cons_left_iff] at valid
    obtain ⟨batch, rest, valid, nothing, rfl⟩ := valid
    cases nothing
    cases done
    obtain ⟨rows, here, each⟩ := validateBatch_ok _ _ _ valid
    refine ⟨rows, here, ?_, fun numeric => numeric _ List.mem_cons_self⟩
    intro row member result ran
    obtain ⟨same, _, passes⟩ := (successful_eq_some row result).mp ran
    obtain ⟨⟨d, latencies, positive⟩, geomean⟩ :=
      (validRow_passing row result batch (each row member) same passes).2
    refine ⟨⟨d, latencies, ?_⟩, geomean⟩
    intro shapeId wanted
    obtain ⟨batch', only, inside⟩ := covered shapeId wanted
    rw [List.mem_singleton] at only
    subst only
    exact positive shapeId inside
  · push Not at single
    obtain ⟨pairs, rows, read, here, _, runs⟩ := mergeAbba_ok payloads schedule shapeIds merged
      single done
    have validated : ∀ item ∈ pairs, ∃ batch, ∀ pair ∈ item,
        validRow pair.1 batch = .ok () ∧ get pair.1 "result" = .obj pair.2 := by
      intro item member
      obtain ⟨payload, given, entered⟩ := forall₂_mem_right read item member
      obtain ⟨batch, _, checked⟩ := forall₂_mem_left valid payload given
      obtain ⟨rows, listed, each⟩ := validateBatch_ok _ _ _ checked
      obtain ⟨listed', _, results⟩ := batchRows_ok _ _ _ entered
      rw [listed] at listed'
      cases listed'
      exact ⟨batch, fun pair inside => ⟨each pair.1 (List.mem_map_of_mem inside),
        results pair inside⟩⟩
    refine ⟨rows, here, ?_, ?_⟩
    · intro row member result ran
      obtain ⟨item, _, result', parts, latencies, run⟩ := forall₂_mem_right runs row member
      obtain ⟨same, _, passes⟩ := (successful_eq_some row result).mp ran
      rw [run.holds] at same
      cases same
      apply mergedRun_measured _ _ _ _ _ _ _ run some_shape ?_ passes
      intro pair inside all_pass
      obtain ⟨item', present, entry⟩ := List.mem_filterMap.mp inside
      obtain ⟨batch, each⟩ := validated item' present
      obtain ⟨checked, holds⟩ := each pair (List.mem_of_getElem? entry)
      exact (validRow_passing pair.1 pair.2 batch checked holds all_pass).1
    · intro _ rows' here' row member result ran
      rw [here] at here'
      cases here'
      obtain ⟨item, _, result', parts, latencies, run⟩ := forall₂_mem_right runs row member
      obtain ⟨same, _, _⟩ := (successful_eq_some row result).mp ran
      rw [run.holds] at same
      cases same
      exact mergedRun_numeric _ _ _ _ _ _ _ run

end Batches

/-! ### The gate -/

/-- What a pass stands for: the schedule run in order, every run passed with a positive
finite latency, each side as often as scheduled, and a reduction above the minimum. -/
structure Sound (rows : List Dict) (repeats : Nat) (minPct : ℝ) (verdict : VerificationResult) :
    Prop where
  scheduled : Scheduled rows (verificationSchedule repeats)
  sides : ∀ side, (rowsOfSide rows side).length = repeats
  improves : ∃ latency, (∀ row ∈ rows, Passed row (latency row)) ∧
    verdict.improvementPct = some (improvement rows latency) ∧ minPct < improvement rows latency

def PassesSoundly (payload : Value) (repeats : Nat) (minPct : ℝ) : Prop :=
  ∀ verdict, Passes payload repeats minPct verdict →
    ∃ d rows, payload = .obj d ∧ rowsOf d = some rows ∧ Sound rows repeats minPct verdict

theorem passed_latency (row : Dict) (latency x : ℝ) (counts : Counts row latency)
    (passed : Passed row x) : Passed row latency := by
  obtain ⟨_, result, here, passes, read⟩ := passed
  obtain ⟨exit, result', here', _, _, read'⟩ := counts
  rw [here] at here'
  cases here'
  obtain ⟨no_bool, _⟩ := (positiveNumber_eq_some _ _).mp read
  exact ⟨exit, result, here, passes, (positiveNumber_eq_some _ _).mpr ⟨no_bool, read'⟩⟩

theorem passesSoundly_iff (payload : Value) (repeats : Nat) (minPct : ℝ) :
    PassesSoundly payload repeats minPct ↔
      ∀ rows, Admissible payload rows repeats minPct → ∀ row ∈ rows, ¬ BooleanLatency row := by
  constructor
  · intro sound rows admissible row member
    obtain ⟨verdict, passes⟩ := passes_of_admissible payload rows repeats minPct admissible
    obtain ⟨d, rows', same, here, _, _, latency, passed, _⟩ := sound verdict passes
    obtain ⟨_, ⟨d', same', here', _⟩, _, _, counted, counts, _⟩ := admissible
    rw [same] at same'
    cases same'
    rw [here] at here'
    cases here'
    exact (passed_iff row _ (counts row member)).mp ⟨_, passed row member⟩
  · intro numeric verdict passes
    obtain ⟨rows, admissible, computed⟩ := admissible_of_passes payload repeats minPct verdict passes
    have no_boolean := numeric rows admissible
    obtain ⟨_, ⟨d, same, here, _⟩, scheduled, sides, latency, counts, above, _⟩ := admissible
    refine ⟨d, rows, same, here, scheduled, sides, latency, ?_, computed latency counts, above⟩
    intro row member
    obtain ⟨x, passed⟩ := (passed_iff row _ (counts row member)).mpr (no_boolean row member)
    exact passed_latency row _ x (counts row member) passed

theorem shown_of_passes {deviceFailure : Value → Prop} {readFloat : String → Option Number}
    {compare : Value → Value → Except Error Bool} (payloads : List Dict)
    (batches : List (List String)) (shapeIds : List String) (repeats : Nat) (minPct : ℝ)
    (merged : Dict) (verdict : VerificationResult) (some_shape : shapeIds ≠ [])
    (covered : ∀ shapeId ∈ shapeIds, ∃ batch ∈ batches, shapeId ∈ batch)
    (valid : List.Forall₂ (fun payload batch => validateBatch deviceFailure (.obj payload)
      (verificationSchedule repeats) batch = .ok payload) payloads batches)
    (done : mergeAbbaBatchPayloads readFloat payloads (verificationSchedule repeats) shapeIds =
      .ok merged)
    (passes : Passes (.obj merged) repeats minPct verdict) :
    (∀ shown, agentAbbaPublicResult compare merged (verificationSchedule repeats) shapeIds repeats =
      .ok shown → shown.baseline.correct ∧ shown.candidate.correct) ∧
    ((∀ payload ∈ payloads, PayloadNumeric payload) →
      ∃ shown, agentAbbaPublicResult compare merged (verificationSchedule repeats) shapeIds repeats =
        .ok shown) := by
  obtain ⟨rows, here, measured, numeric⟩ := merged_rows payloads batches _ shapeIds merged
    some_shape covered valid done
  obtain ⟨rows', admissible, _⟩ := admissible_of_passes _ repeats minPct verdict passes
  obtain ⟨_, ⟨d, same, here', _⟩, scheduled, sides, latency, counts, _⟩ := admissible
  cases same
  rw [here] at here'
  cases here'
  constructor
  · intro shown done
    apply shown_correct merged rows _ repeats shapeIds here sides ?_ shown done
    intro row member
    obtain ⟨result, ran⟩ := counts_successful row _ (counts row member)
    exact ⟨result, ran, measured row member result ran⟩
  · intro each
    exact shown_ok merged rows _ repeats shapeIds here scheduled
      (fun row member result ran => numeric each rows here row member result ran)

theorem verificationSchedule_one :
    verificationSchedule 1 = [⟨.incumbent, 0⟩, ⟨.candidate, 0⟩] := by
  simp [verificationSchedule, List.range_succ]

theorem expMean_singleton (x : ℝ) (positive : 0 < x) : expMean [x] = x := by
  simp [expMean, Real.exp_log positive]

/-- A payload passes for a sound reason unless the gate admits a run whose latency is a
Boolean; of merged batches that validate, both sides are shown correct. -/
theorem gate_is_sound (deviceFailure : Value → Prop) (readFloat : String → Option Number)
    (compare : Value → Value → Except Error Bool) :
    (∀ payload repeats minPct, PassesSoundly payload repeats minPct ↔
      ∀ rows, Admissible payload rows repeats minPct → ∀ row ∈ rows, ¬ BooleanLatency row) ∧
    ∀ (payloads : List Dict) (batches : List (List String)) (shapeIds : List String)
      (repeats : Nat) (minPct : ℝ) (merged : Dict) (verdict : VerificationResult),
      shapeIds ≠ [] → (∀ shapeId ∈ shapeIds, ∃ batch ∈ batches, shapeId ∈ batch) →
      List.Forall₂ (fun payload batch => validateBatch deviceFailure (.obj payload)
        (verificationSchedule repeats) batch = .ok payload) payloads batches →
      mergeAbbaBatchPayloads readFloat payloads (verificationSchedule repeats) shapeIds =
        .ok merged →
      Passes (.obj merged) repeats minPct verdict →
      (∀ shown, agentAbbaPublicResult compare merged (verificationSchedule repeats) shapeIds
        repeats = .ok shown → shown.baseline.correct ∧ shown.candidate.correct) ∧
      ((∀ payload ∈ payloads, PayloadNumeric payload) →
        ∃ shown, agentAbbaPublicResult compare merged (verificationSchedule repeats) shapeIds
          repeats = .ok shown) := by
  constructor
  · exact passesSoundly_iff
  · intro payloads batches shapeIds repeats minPct merged verdict some_shape covered valid done
      passes
    exact shown_of_passes payloads batches shapeIds repeats minPct merged verdict some_shape
      covered valid done passes

/-- The incumbent's run reports `true` for its latency. -/
def booleanRun : Dict :=
  [("revision", .str "incumbent"), ("repeat", .int 0), ("exit_code", .int 0),
    ("result", .obj [("all_pass", .bool true),
      ("performance", .obj [("latency_us", .bool true)])])]

def measuredRun : Dict :=
  [("revision", .str "candidate"), ("repeat", .int 0), ("exit_code", .int 0),
    ("result", .obj [("all_pass", .bool true),
      ("latency_us_geomean", .float (.finite (1 / (2 : ℕ))))])]

def booleanPayload : Value :=
  .obj [("schema_version", .int 1), ("runs", .arr [.obj booleanRun, .obj measuredRun])]

theorem boolean_latency_passes : ¬ PassesSoundly booleanPayload 1 0 := by
  rw [passesSoundly_iff]
  push Not
  refine ⟨[booleanRun, measuredRun], ?_, booleanRun, by simp, ?_⟩
  · have counts : Counts booleanRun 1 := by
      constructor
      · simp [booleanRun, Equals]
      · refine ⟨_, by simp [booleanRun]; rfl, ?_⟩
        simp [Json.get, latencyValue, number, Number.positive]
    have counts' : Counts measuredRun (1 / 2) := by
      constructor
      · simp [measuredRun, Equals]
      · refine ⟨_, by simp [measuredRun]; rfl, ?_⟩
        simp [Json.get, latencyValue, number, Number.positive]
    have sides : rowsOfSide [booleanRun, measuredRun] .incumbent = [booleanRun] ∧
        rowsOfSide [booleanRun, measuredRun] .candidate = [measuredRun] := by
      simp [rowsOfSide, booleanRun, measuredRun, Revision.name]
    let latency : Dict → ℝ := fun row => if get row "revision" = .str "incumbent" then 1 else 1 / 2
    have reads : latency booleanRun = 1 ∧ latency measuredRun = 1 / 2 := by
      simp [latency, booleanRun, measuredRun]
    have half : improvement [booleanRun, measuredRun] latency = 50 := by
      unfold improvement
      rw [sides.1, sides.2, List.map_singleton, List.map_singleton, reads.1, reads.2,
        expMean_singleton _ one_pos, expMean_singleton _ one_half_pos]
      norm_num
    refine ⟨le_refl 0, ⟨_, rfl, ?_, ?_⟩, ?_, ?_, latency, ?_, ?_, ?_⟩
    · simp [rowsOf, dictOf]
    · simp [Truthy, Json.get]
    · rw [verificationSchedule_one]
      simp [Scheduled, Executes, booleanRun, measuredRun, Revision.name, Equals]
    · intro side
      cases side with
      | incumbent => rw [sides.1]; rfl
      | candidate => rw [sides.2]; rfl
    · intro row member
      simp only [List.mem_cons, List.not_mem_nil, or_false] at member
      rcases member with rfl | rfl
      · rw [reads.1]
        exact counts
      · rw [reads.2]
        exact counts'
    · rw [half]
      norm_num
    · rw [half]
      norm_num [IsClose]
  · refine ⟨_, _, by simp [booleanRun]; rfl, ?_, by simp; rfl, ?_⟩
    · simp [Json.get, number]
    · simp

end

end AtrexAgent.Evaluation
