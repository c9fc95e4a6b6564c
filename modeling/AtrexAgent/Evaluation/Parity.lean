import Mathlib
import AtrexAgent.Evaluation.Gate

/-! The exception for a conversion: a candidate that is not faster passes where it is within a tolerance of
the incumbent. -/

namespace AtrexAgent.Evaluation

open AtrexAgent.Json

noncomputable section

open scoped Classical

structure VerificationRun where
  revision : Value
  repetition : Value
  exitCode : Value
  result : Value

def verificationRun (row : Dict) : VerificationRun where
  revision := get row "revision"
  repetition := get row "repeat"
  exitCode := (find? row "exit_code").getD (.int (-1))
  result := get row "result"

/-- The `runs` of the verdict on a payload. -/
def verificationRuns (payload : Value) (schedule : List Step) : List VerificationRun :=
  match payload with
  | .obj d =>
      match rowsOf d with
      | none => []
      | some rows =>
          if Truthy (get d "error") ∨ ¬ Scheduled rows schedule then [] else rows.map verificationRun
  | _ => []

/-- `CONVERT_PERF_TOL` -/
def convertPerfTol : ℝ := 0.05

/-- `_conversion_parity_passes` -/
def ConversionParityPasses (verification : VerificationResult) (runs : List VerificationRun) : Prop :=
  match verification.candidate, verification.incumbent with
  | some candidate, some incumbent =>
      if candidate > incumbent * (1 + convertPerfTol) then False
      else runs ≠ [] ∧ ∀ run ∈ runs, Equals run.exitCode 0 ∧
        ∃ result, run.result = .obj result ∧ Truthy (get result "all_pass")
  | _, _ => False

/-- The verdict on a candidate, where a conversion may be pending. -/
def conversionVerdict (conversionPending : Bool) (verification : VerificationResult)
    (runs : List VerificationRun) : VerificationResult :=
  if conversionPending ∧ verification.gate ≠ .pass ∧ ConversionParityPasses verification runs then
    { verification with gate := .pass, error := "" }
  else verification

/-- The payload is no pass, and the exception makes it one. -/
def Upgraded (payload : Value) (schedule : List Step) (repeats : Nat) (minPct : ℝ)
    (verdict : VerificationResult) : Prop :=
  scoreVerificationPayload payload schedule repeats minPct = .ok verdict ∧ verdict.gate ≠ .pass ∧
    (conversionVerdict true verdict (verificationRuns payload schedule)).gate = .pass

/-- The runs are the schedule in order, all of them passed, each side has the latency of every run that is
scheduled for it, and the candidate is within the tolerance. -/
structure AtParity (rows : List Dict) (schedule : List Step) (verdict : VerificationResult) : Prop where
  scheduled : Scheduled rows schedule
  passed : ∀ row ∈ rows, Equals (get row "exit_code") 0 ∧
    ∃ result, get row "result" = .obj result ∧ get result "all_pass" = .bool true
  sides : ∀ side, (sideLatencies rows side).length = (schedule.filter fun step => step.revision = side).length ∧
    ∀ latency ∈ sideLatencies rows side, 0 < latency
  within : ∃ candidate incumbent, verdict.candidate = some candidate ∧ verdict.incumbent = some incumbent ∧
    candidate = expMean (sideLatencies rows .candidate) ∧ incumbent = expMean (sideLatencies rows .incumbent) ∧
    candidate ≤ incumbent * (1 + convertPerfTol)

/-- The exception waives only the threshold. -/
def WaivesOnlyTheThreshold (payload : Value) (schedule : List Step) (repeats : Nat) (minPct : ℝ) : Prop :=
  ∀ verdict, Upgraded payload schedule repeats minPct verdict →
    ∃ d rows, payload = .obj d ∧ rowsOf d = some rows ∧ AtParity rows schedule verdict

/-! ### The payloads that the exception is for -/

/-- A payload that is no pass and whose runs all look passed, with a latency for each side within the tolerance. -/
structure Excepted (payload : Value) (rows : List Dict) (schedule : List Step) (repeats : Nat) (minPct : ℝ) :
    Prop where
  minimum : 0 ≤ minPct
  payload : ∃ d, payload = .obj d ∧ rowsOf d = some rows ∧ ¬ Truthy (get d "error")
  scheduled : Scheduled rows schedule
  ran : ∀ row ∈ rows, Equals (get row "exit_code") 0 ∧
    ∃ result, get row "result" = .obj result ∧ Truthy (get result "all_pass")
  measured : ∀ side, sideLatencies rows side ≠ []
  within : expMean (sideLatencies rows .candidate) ≤ expMean (sideLatencies rows .incumbent) * (1 + convertPerfTol)
  refused : (∀ side, (sideLatencies rows side).length = repeats) →
    let improvement := (expMean (sideLatencies rows .incumbent) - expMean (sideLatencies rows .candidate)) /
      expMean (sideLatencies rows .incumbent) * 100
    improvement > minPct → IsClose improvement minPct

/-- The verdict on runs that follow the schedule. -/
def verdictOf (rows : List Dict) (repeats : Nat) (minPct : ℝ) : VerificationResult :=
  match geomean ((sideLatencies rows .candidate).map .finite),
    geomean ((sideLatencies rows .incumbent).map .finite) with
  | some c, some i =>
      if (sideLatencies rows .candidate).length ≠ repeats ∨ (sideLatencies rows .incumbent).length ≠ repeats then
        ⟨.fail, some c, some i, none, "Not every ABBA run passed with a valid GeoMean latency"⟩
      else if (i - c) / i * (100 : ℕ) > minPct ∧ ¬ IsClose ((i - c) / i * (100 : ℕ)) minPct then
        ⟨.pass, some c, some i, some ((i - c) / i * (100 : ℕ)), ""⟩
      else ⟨.fail, some c, some i, some ((i - c) / i * (100 : ℕ)), "GeoMean latency reduction did not exceed the minimum"⟩
  | c, i => ⟨.fail, c, i, none, "Not every ABBA run passed with a valid GeoMean latency"⟩

section Payload

variable {payload : Value} {d : Dict} {rows : List Dict} {schedule : List Step} {repeats : Nat} {minPct : ℝ}
  {verdict : VerificationResult}

theorem score_of_rows (minimum : 0 ≤ minPct) (here : rowsOf d = some rows) (no_error : ¬ Truthy (get d "error"))
    (scheduled : Scheduled rows schedule) :
    scoreVerificationPayload (.obj d) schedule repeats minPct = .ok (verdictOf rows repeats minPct) := by
  have complete : ¬ (Truthy (get d "error") ∨ ¬ Scheduled rows schedule) := by simp [no_error, scheduled]
  simp only [scoreVerificationPayload, not_lt.mpr minimum, ite_false, here, complete, verdictOf, Nat.cast_ofNat]
  cases geomean ((sideLatencies rows .candidate).map .finite) with
  | none => rfl
  | some c =>
      cases geomean ((sideLatencies rows .incumbent).map .finite) with
      | none => rfl
      | some i =>
          dsimp only
          split
          · rfl
          · split <;> rfl

/-- A verdict that is given is an incomplete schedule, or on runs that follow it. -/
theorem scored_cases (scored : scoreVerificationPayload payload schedule repeats minPct = .ok verdict) :
    0 ≤ minPct ∧ (verdict = incompleteSchedule ∨ ∃ d rows, payload = .obj d ∧ rowsOf d = some rows ∧
      ¬ Truthy (get d "error") ∧ Scheduled rows schedule ∧ verdict = verdictOf rows repeats minPct) := by
  by_cases minimum : minPct < 0
  · simp only [scoreVerificationPayload, minimum, ite_true] at scored
    cases scored
  refine ⟨not_lt.mp minimum, ?_⟩
  cases payload with
  | obj d =>
      cases here : rowsOf d with
      | none =>
          simp only [scoreVerificationPayload, minimum, ite_false, here] at scored
          cases scored
          exact .inl rfl
      | some rows =>
          by_cases complete : ¬ Truthy (get d "error") ∧ Scheduled rows schedule
          · rw [score_of_rows (not_lt.mp minimum) here complete.1 complete.2] at scored
            cases scored
            exact .inr ⟨d, rows, rfl, here, complete.1, complete.2, rfl⟩
          · have refused : Truthy (get d "error") ∨ ¬ Scheduled rows schedule := by tauto
            simp only [scoreVerificationPayload, minimum, ite_false, here, refused, ite_true] at scored
            cases scored
            exact .inl rfl
  | _ =>
      simp only [scoreVerificationPayload, minimum, ite_false] at scored
      cases scored
      exact .inl rfl

theorem verdictOf_measured (measured : ∀ side, sideLatencies rows side ≠ []) :
    verdictOf rows repeats minPct =
      let c := expMean (sideLatencies rows .candidate)
      let i := expMean (sideLatencies rows .incumbent)
      if ¬ ∀ side, (sideLatencies rows side).length = repeats then
        ⟨.fail, some c, some i, none, "Not every ABBA run passed with a valid GeoMean latency"⟩
      else if (i - c) / i * (100 : ℕ) > minPct ∧ ¬ IsClose ((i - c) / i * (100 : ℕ)) minPct then
        ⟨.pass, some c, some i, some ((i - c) / i * (100 : ℕ)), ""⟩
      else ⟨.fail, some c, some i, some ((i - c) / i * (100 : ℕ)),
        "GeoMean latency reduction did not exceed the minimum"⟩ := by
  have lengths : ((sideLatencies rows .candidate).length ≠ repeats ∨
      (sideLatencies rows .incumbent).length ≠ repeats) ↔
        ¬ ∀ side, (sideLatencies rows side).length = repeats := by
    constructor
    · intro short all
      exact short.elim (fun one => one (all _)) fun other => other (all _)
    · intro short
      by_contra both
      push Not at both
      exact short fun side => by cases side; exacts [both.2, both.1]
  simp only [verdictOf, geomean_side, measured, ite_false, lengths]

theorem verdictOf_sides (repeats : Nat) (minPct : ℝ) (measured : ∀ side, sideLatencies rows side ≠ []) :
    (verdictOf rows repeats minPct).candidate = some (expMean (sideLatencies rows .candidate)) ∧
      (verdictOf rows repeats minPct).incumbent = some (expMean (sideLatencies rows .incumbent)) := by
  rw [verdictOf_measured measured]
  dsimp only
  split
  · exact ⟨rfl, rfl⟩
  · split <;> exact ⟨rfl, rfl⟩

/-- When the verdict is a pass, the threshold included. -/
theorem verdictOf_pass (measured : ∀ side, sideLatencies rows side ≠ []) :
    (verdictOf rows repeats minPct).gate = .pass ↔ (∀ side, (sideLatencies rows side).length = repeats) ∧
      let improvement := (expMean (sideLatencies rows .incumbent) - expMean (sideLatencies rows .candidate)) /
        expMean (sideLatencies rows .incumbent) * 100
      improvement > minPct ∧ ¬ IsClose improvement minPct := by
  rw [verdictOf_measured measured]
  simp only [Nat.cast_ofNat]
  split
  · rename_i short
    simp [short]
  · rename_i complete
    rw [not_not] at complete
    split
    · rename_i above
      simp [complete, above]
    · rename_i below
      simp only [reduceCtorEq, below, and_false]

theorem verdictOf_unmeasured (repeats : Nat) (minPct : ℝ) (side : Revision) (empty : sideLatencies rows side = []) :
    (verdictOf rows repeats minPct).candidate = none ∨ (verdictOf rows repeats minPct).incumbent = none := by
  have none : geomean ((sideLatencies rows side).map .finite) = none := by rw [geomean_side, if_pos empty]
  cases side with
  | candidate =>
      left
      simp only [verdictOf, none]
  | incumbent =>
      right
      simp only [verdictOf, none]
      cases geomean ((sideLatencies rows .candidate).map .finite) <;> rfl

theorem upgraded_parity : Upgraded payload schedule repeats minPct verdict ↔
    scoreVerificationPayload payload schedule repeats minPct = .ok verdict ∧ verdict.gate ≠ .pass ∧
      ConversionParityPasses verdict (verificationRuns payload schedule) := by
  unfold Upgraded conversionVerdict
  by_cases parity : ConversionParityPasses verdict (verificationRuns payload schedule)
  · by_cases pass : verdict.gate = .pass <;> simp [parity, pass]
  · simp [parity]

theorem exitCode_zero (row : Dict) : Equals (verificationRun row).exitCode 0 ↔ Equals (get row "exit_code") 0 := by
  simp only [verificationRun, Json.get]
  cases find? row "exit_code" with
  | none => simp [Equals]
  | some code => rfl

theorem parity_runs {runs : List VerificationRun} (parity : ConversionParityPasses verdict runs) :
    ∀ run ∈ runs, Equals run.exitCode 0 ∧ ∃ result, run.result = .obj result ∧ Truthy (get result "all_pass") := by
  unfold ConversionParityPasses at parity
  split at parity
  · split at parity
    · exact parity.elim
    · exact parity.2
  · exact parity.elim

/-- The payloads of which the exception makes a pass. -/
theorem upgraded_iff : Upgraded payload schedule repeats minPct verdict ↔
    ∃ rows, Excepted payload rows schedule repeats minPct ∧ verdict = verdictOf rows repeats minPct := by
  rw [upgraded_parity]
  constructor
  · rintro ⟨scored, no_pass, parity⟩
    obtain ⟨minimum, rfl | ⟨d, rows, rfl, here, no_error, scheduled, rfl⟩⟩ := scored_cases scored
    · simp [ConversionParityPasses, incompleteSchedule] at parity
    have runs : verificationRuns (.obj d) schedule = rows.map verificationRun := by
      simp [verificationRuns, here, no_error, scheduled]
    have measured : ∀ side, sideLatencies rows side ≠ [] := by
      intro side empty
      rcases verdictOf_unmeasured repeats minPct side empty with none | none
      · simp [ConversionParityPasses, none] at parity
      · cases candidate : (verdictOf rows repeats minPct).candidate <;>
          simp [ConversionParityPasses, none, candidate] at parity
    refine ⟨rows, ⟨minimum, ⟨d, rfl, here, no_error⟩, scheduled, ?_, measured, ?_, ?_⟩, rfl⟩
    · intro row member
      have run := parity_runs parity (verificationRun row) (by rw [runs]; exact List.mem_map_of_mem member)
      exact ⟨(exitCode_zero row).mp run.1, run.2⟩
    · obtain ⟨candidate, incumbent⟩ := verdictOf_sides repeats minPct measured
      simp only [ConversionParityPasses, candidate, incumbent] at parity
      split at parity
      · exact parity.elim
      · rename_i within
        exact not_lt.mp within
    · intro complete improvement above
      by_contra far
      exact no_pass ((verdictOf_pass measured).mpr ⟨complete, above, far⟩)
  · rintro ⟨rows, ⟨minimum, ⟨d, rfl, here, no_error⟩, scheduled, ran, measured, within, refused⟩, rfl⟩
    have runs : verificationRuns (.obj d) schedule = rows.map verificationRun := by
      simp [verificationRuns, here, no_error, scheduled]
    refine ⟨score_of_rows minimum here no_error scheduled, ?_, ?_⟩
    · intro pass
      obtain ⟨complete, above, far⟩ := (verdictOf_pass measured).mp pass
      exact far (refused complete above)
    · obtain ⟨candidate, incumbent⟩ := verdictOf_sides repeats minPct measured
      have some_row : rows ≠ [] := by
        intro empty
        exact measured .candidate (by simp [sideLatencies, rowsOfSide, empty])
      simp only [ConversionParityPasses, candidate, incumbent, gt_iff_lt, not_lt.mpr within, ite_false, runs]
      refine ⟨by simpa using some_row, ?_⟩
      intro run member
      obtain ⟨row, present, rfl⟩ := List.mem_map.mp member
      exact ⟨(exitCode_zero row).mpr (ran row present).1, (ran row present).2⟩

theorem waives_iff : WaivesOnlyTheThreshold payload schedule repeats minPct ↔
    ∀ rows, Excepted payload rows schedule repeats minPct → ∀ row ∈ rows, ∃ latency, Counts row latency := by
  constructor
  · intro waives rows excepted row member
    obtain ⟨d, rows', same, here, parity⟩ := waives _ (upgraded_iff.mpr ⟨rows, excepted, rfl⟩)
    obtain ⟨d', same', here', _⟩ := excepted.payload
    rw [same] at same'
    cases same'
    rw [here] at here'
    cases here'
    obtain ⟨side, of_side⟩ := row_has_side rows schedule parity.scheduled row member
    have all : ((rowsOfSide rows side).filterMap gateLatency).length = (rowsOfSide rows side).length :=
      (parity.sides side).1.trans (rowsOfSide_length rows schedule side parity.scheduled).symm
    obtain ⟨latency, read⟩ := Option.isSome_iff_exists.mp (List.filterMap_length_eq_length.mp all row of_side)
    exact ⟨latency, (gateLatency_eq_some row latency).mp read⟩
  · intro counted verdict upgraded
    obtain ⟨rows, excepted, rfl⟩ := upgraded_iff.mp upgraded
    obtain ⟨d, same, here, _⟩ := excepted.payload
    have counts := counted rows excepted
    refine ⟨d, rows, same, here, excepted.scheduled, ?_, ?_, ?_⟩
    · intro row member
      obtain ⟨latency, exit, result, is, passes, _⟩ := counts row member
      exact ⟨exit, result, is, passes⟩
    · intro side
      refine ⟨?_, sideLatencies_positive rows side⟩
      rw [← rowsOfSide_length rows schedule side excepted.scheduled]
      refine List.filterMap_length_eq_length.mpr fun row member => ?_
      obtain ⟨latency, count⟩ := counts row ((mem_rowsOfSide rows side row).mp member).1
      rw [(gateLatency_eq_some row latency).mpr count]
      rfl
    · obtain ⟨candidate, incumbent⟩ := verdictOf_sides repeats minPct excepted.measured
      exact ⟨_, _, candidate, incumbent, rfl, rfl, excepted.within⟩

end Payload

/-- The exception waives only the threshold exactly where it is not for a payload with a run that the gate leaves
out: one whose `all_pass` is not `true`, or without a positive latency. In any case the runs are the schedule in
order with exit code 0, and the candidate is within the tolerance. -/
theorem conversion_waives_only_the_threshold (payload : Value) (schedule : List Step) (repeats : Nat) (minPct : ℝ) :
    (WaivesOnlyTheThreshold payload schedule repeats minPct ↔
      ∀ rows, Excepted payload rows schedule repeats minPct → ∀ row ∈ rows, ∃ latency, Counts row latency) ∧
    ∀ verdict, Upgraded payload schedule repeats minPct verdict →
      ∃ d rows candidate incumbent, payload = .obj d ∧ rowsOf d = some rows ∧ Scheduled rows schedule ∧
        (∀ row ∈ rows, Equals (get row "exit_code") 0) ∧ verdict.candidate = some candidate ∧
        verdict.incumbent = some incumbent ∧ candidate ≤ incumbent * (1 + convertPerfTol) := by
  refine ⟨waives_iff, fun verdict upgraded => ?_⟩
  obtain ⟨rows, excepted, rfl⟩ := upgraded_iff.mp upgraded
  obtain ⟨d, same, here, _⟩ := excepted.payload
  obtain ⟨candidate, incumbent⟩ := verdictOf_sides repeats minPct excepted.measured
  exact ⟨d, rows, _, _, same, here, excepted.scheduled, fun row member => (excepted.ran row member).1, candidate,
    incumbent, excepted.within⟩

/-- A run that passed, with a GeoMean latency or without one. -/
def passedRun (side : Revision) (repetition : Nat) (latency : Value) : Dict :=
  [("revision", .str side.name), ("repeat", .int repetition), ("exit_code", .int 0),
    ("result", .obj [("all_pass", .bool true), ("latency_us_geomean", latency)])]

/-- The second run of the candidate has no latency. -/
def unmeasuredRuns : List Dict :=
  [passedRun .incumbent 0 (.int 1), passedRun .candidate 0 (.int 1), passedRun .candidate 1 .null,
    passedRun .incumbent 1 (.int 1)]

theorem verificationSchedule_two :
    verificationSchedule 2 = [⟨.incumbent, 0⟩, ⟨.candidate, 0⟩, ⟨.candidate, 1⟩, ⟨.incumbent, 1⟩] := by
  simp [verificationSchedule, List.range_succ]

/-- The candidate passes with a latency from one of its two runs. -/
theorem unmeasured_run_passes :
    ¬ WaivesOnlyTheThreshold (.obj [("runs", .arr (unmeasuredRuns.map .obj))]) (verificationSchedule 2) 2 0 := by
  rw [waives_iff]
  push Not
  have latency (side : Revision) (n : Nat) : gateLatency (passedRun side n (.int 1)) = some 1 := by
    simp [gateLatency, passedRun, Json.get, Equals, resultLatency, Truthy, latencyValue, number, Number.positive]
  have missing (side : Revision) (n : Nat) : gateLatency (passedRun side n .null) = none := by
    simp [gateLatency, passedRun, Json.get, Equals, resultLatency, Truthy, latencyValue, number]
  have sides : sideLatencies unmeasuredRuns .candidate = [1] ∧ sideLatencies unmeasuredRuns .incumbent = [1, 1] := by
    have revision (side : Revision) (n : Nat) (value : Value) :
        Json.get (passedRun side n value) "revision" = .str side.name := rfl
    constructor <;>
      simp [sideLatencies, rowsOfSide, unmeasuredRuns, revision, Revision.name, latency, missing]
  have ones : expMean [1] = 1 ∧ expMean [1, 1] = 1 := by simp [expMean]
  refine ⟨unmeasuredRuns, ⟨le_rfl, ⟨_, rfl, ?_, ?_⟩, ?_, ?_, ?_, ?_, ?_⟩, passedRun .candidate 1 .null, ?_, ?_⟩
  · simp [rowsOf, dictOf, unmeasuredRuns]
  · simp [Truthy, Json.get]
  · rw [verificationSchedule_two]
    simp [Scheduled, Executes, unmeasuredRuns, passedRun, Json.get, Equals]
  · intro row member
    simp only [unmeasuredRuns, List.mem_cons, List.not_mem_nil, or_false] at member
    rcases member with rfl | rfl | rfl | rfl <;> simp [passedRun, Json.get, Equals, Truthy]
  · intro side
    cases side <;> simp [sides]
  · rw [sides.1, sides.2, ones.1, ones.2]
    norm_num [convertPerfTol]
  · intro complete
    have candidate := complete .candidate
    simp [sides.1] at candidate
  · simp [unmeasuredRuns]
  · intro x counts
    rw [← gateLatency_eq_some, missing] at counts
    cases counts

end

end AtrexAgent.Evaluation
