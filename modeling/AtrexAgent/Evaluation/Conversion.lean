import Mathlib
import AtrexAgent.Evaluation.Abba

/-! Conversion of an evaluator's payload, whole or in batches of shapes, and the merge of converted
batches. Arithmetic on floats is exact. -/

namespace AtrexAgent.Evaluation.Conversion

open AtrexAgent.Json

/-- How the interpreter writes and folds text. -/
structure Texts where
  str : Value → String
  strip : String → String
  lower : String → String

noncomputable section

open scoped Classical

/-! ### Reading a payload -/

/-- `finite_number` -/
def finiteNumber : Value → Option ℝ
  | .int n => some n
  | .float (.finite x) => some x
  | _ => none

/-- `value if isinstance(value, dict) else {}` -/
def dictOrEmpty : Value → Dict
  | .obj d => d
  | _ => []

/-- `value if isinstance(value, list) else []` -/
def listOrEmpty : Value → List Value
  | .arr items => items
  | _ => []

def orElse (first second : Value) : Value := if Truthy first then first else second

def compileOf (payload : Dict) : Dict := dictOrEmpty (get (dictOrEmpty (get payload "passed")) "compile")

def statusesOf (payload : Dict) : Dict := dictOrEmpty (get (dictOrEmpty (get payload "passed")) "correctness")

/-- The results by shape of `correctness` or `performance`. -/
def shapesOf (payload : Dict) (part : String) : Dict :=
  dictOrEmpty (get (dictOrEmpty (get payload part)) "shapes")

def Passed (status : Dict) : Prop := get status "status" = .str "passed"

variable (texts : Texts)

/-- `str(status.get("reason") or status.get("status") or otherwise)` -/
def explanation (status : Dict) (otherwise : String) : String :=
  texts.str (orElse (get status "reason") (orElse (get status "status") (.str otherwise)))

def compileFailure (compile : Dict) (shapeId : String) : List String :=
  let status := dictOrEmpty (get compile shapeId)
  if Passed status then [] else ["sid=" ++ shapeId ++ ": compile " ++ explanation texts status "missing"]

def compileFailures (compile : Dict) (shapeIds : List String) : List String :=
  if (find? compile "status").isSome then
    if Passed compile then [] else ["compile: " ++ explanation texts compile "did not pass"]
  else shapeIds.flatMap (compileFailure texts compile)

def correctnessFailure (statuses : Dict) (shapeId : String) : List String :=
  let status := dictOrEmpty (get statuses shapeId)
  if Passed status then []
  else ["sid=" ++ shapeId ++ ": correctness " ++ explanation texts status "missing"]

/-- The outputs of the cases of a shape. -/
def outputsOf (shapes : Dict) (shapeId : String) : List Dict :=
  ((listOrEmpty (get (dictOrEmpty (get shapes shapeId)) "cases")).filterMap dictOf).flatMap fun case =>
    (listOrEmpty (get case "outputs")).filterMap dictOf

def errorsOf (key : String) (shapes : Dict) (shapeId : String) : List ℝ :=
  (outputsOf shapes shapeId).filterMap fun output => finiteNumber (get output key)

def worst (errors : List ℝ) : ℝ := errors.foldl max 0

/-! ### Latencies -/

def positiveMs (sample : Value) : Option ℝ := do
  let sample ← dictOf sample
  let value ← finiteNumber (get sample "end_to_end_time_ms")
  if 0 < value then some value else none

/-- `statistics.median` -/
def median (values : List ℝ) : ℝ :=
  let sorted := values.insertionSort (· ≤ ·)
  let middle := values.length / 2
  if values.length % 2 = 1 then sorted.getD middle 0
  else (sorted.getD (middle - 1) 0 + sorted.getD middle 0) / 2

def samplesMs (shapes : Dict) (shapeId : String) : List ℝ :=
  (listOrEmpty (get (dictOrEmpty (get shapes shapeId)) "samples")).filterMap positiveMs

/-- The shape has an error or no valid sample. -/
def Unmeasured (shapes : Dict) (shapeId : String) : Prop :=
  get (dictOrEmpty (get shapes shapeId)) "error" ≠ .null ∨ samplesMs shapes shapeId = []

def performanceFailure (shapes : Dict) (shapeId : String) : List String :=
  if Unmeasured shapes shapeId then ["sid=" ++ shapeId ++ ": performance " ++
    texts.str (orElse (get (dictOrEmpty (get shapes shapeId)) "error") (.str "has no valid samples"))]
  else []

def latencyUs (shapes : Dict) (shapeId : String) : Option ℝ :=
  if Unmeasured shapes shapeId then none else some (median (samplesMs shapes shapeId) * 1000)

/-- A dict of latencies, by the entries made in it. -/
abbrev Latencies := List (String × ℝ)

/-- Of two entries for one shape the last stays. -/
def Latencies.get? (latencies : Latencies) (shapeId : String) : Option ℝ :=
  (latencies.reverse.find? fun entry => entry.1 = shapeId).map Prod.snd

def Latencies.found (latencies : Latencies) (shapeIds : List String) : List ℝ :=
  shapeIds.filterMap latencies.get?

def mean (values : List ℝ) : ℝ := values.sum / values.length

/-- `metadata_shape_latency_us` -/
def metadataShapeLatencyUs (metadata : Value) (shapeId : String) : Option ℝ :=
  let production := dictOrEmpty (get (dictOrEmpty (get (dictOrEmpty (get (dictOrEmpty metadata) "shapes"))
    shapeId)) "production_performance")
  let positive := fun value : Value => (finiteNumber value).filter (0 < ·)
  match positive (get production "performance_us") with
  | some direct => some direct
  | none =>
      match production.filterMap fun entry => (dictOf entry.2).bind fun d => positive (get d "performance_us") with
      | [nested] => some nested
      | _ => none

/-- `metadata_speedup_mean`: the mean, with the shapes for which the metadata has no latency. -/
def metadataSpeedupMean (metadata : Value) (shapeIds : List String) (latencies : Latencies) :
    Option ℝ × List String :=
  if shapeIds.any fun shapeId => (latencies.get? shapeId).isNone then (none, [])
  else
    let failures := (shapeIds.filter fun shapeId => (metadataShapeLatencyUs metadata shapeId).isNone).map
      fun shapeId => "sid=" ++ shapeId ++ ": metadata has no unambiguous positive " ++
        "production_performance.performance_us"
    let speedups := shapeIds.filterMap fun shapeId => do
      let reference ← metadataShapeLatencyUs metadata shapeId
      let latency ← latencies.get? shapeId
      pure (reference / latency)
    if failures ≠ [] ∨ speedups.length ≠ shapeIds.length ∨ speedups = [] then (none, failures)
    else (some (mean speedups), [])

/-! ### Diagnostics -/

structure Diagnostic where
  stage : String
  shapeId : String
  message : String

/-- `bounded_actionable_diagnostic` -/
def boundedActionableDiagnostic (value : Value) : String :=
  let text := texts.strip (String.ofList ((texts.str (orElse value (.str ""))).toList.filter (· ≠ '\x00')))
  if text.length ≤ 6000 then text
  else
    let marker := "\n... diagnostic truncated ...\n"
    let tail := 6000 - 1000 - marker.length
    String.ofList (text.toList.take 1000) ++ marker ++ String.ofList (text.toList.drop (text.length - tail))

def candidateMarkers : List String :=
  ["compilation error", "compileerror", "cuda_error_", "cudaerror", "culaunchkernel", "cumodule",
    "invalid context", "kernelparams", "modulenotfounderror:", "importerror:", "nvrtc", "syntaxerror:",
    "undefined symbol"]

/-- `looks_like_candidate_exception` -/
def LooksLikeCandidateException (value : Value) : Prop :=
  ∃ marker ∈ candidateMarkers, marker.toList <:+: (texts.lower (texts.str (orElse value (.str "")))).toList

/-- The first diagnostic for each key, of those that have a message. -/
def firstOf (key : Diagnostic → String × String) : List (String × String) → List Diagnostic → List Diagnostic
  | _, [] => []
  | seen, diagnostic :: rest =>
      if diagnostic.message ≠ "" ∧ key diagnostic ∉ seen then
        diagnostic :: firstOf key (key diagnostic :: seen) rest
      else firstOf key seen rest

def byMessage (diagnostic : Diagnostic) : String × String := ("", diagnostic.message)

def byStage (diagnostic : Diagnostic) : String × String := (diagnostic.stage, diagnostic.message)

def compileDiagnostics (compile : Value) (shapeIds : List String) : List Diagnostic :=
  let describe := fun (status : Dict) (otherwise : Value) => boundedActionableDiagnostic texts
    (orElse (get status "reason") (orElse (get status "status") otherwise))
  match compile with
  | .obj compile =>
      if (find? compile "status").isSome then
        if Passed compile then []
        else firstOf byMessage [] [⟨"compile_import", "", describe compile .null⟩]
      else firstOf byMessage [] (shapeIds.filterMap fun shapeId =>
        let status := dictOrEmpty (get compile shapeId)
        if Passed status then none else some ⟨"compile_import", shapeId, describe status (.str "missing")⟩)
  | _ => []

def candidateExceptionDiagnostics (statuses shapes : Dict) (shapeIds : List String) : List Diagnostic :=
  firstOf byMessage [] (shapeIds.flatMap fun shapeId =>
    let reasons := get (dictOrEmpty (get statuses shapeId)) "reason" ::
      ((listOrEmpty (get (dictOrEmpty (get shapes shapeId)) "cases")).filterMap dictOf).map
        fun case => get case "error"
    (reasons.filter fun reason => LooksLikeCandidateException texts reason).map fun reason =>
      ⟨"candidate_runtime", shapeId, boundedActionableDiagnostic texts reason⟩)

/-! ### Results -/

structure OptimizerResult where
  allPass : Bool
  failures : List String
  latencyUsGeomean : ℝ
  latencyUsArithMean : ℝ
  latencyUsByShape : Latencies
  speedupVsRefMean : Option ℝ
  speedupVsRefGeomean : Option ℝ
  performanceScore : Option ℝ
  performanceObjective : String
  maxAbsErr : ℝ
  maxRelErr : ℝ
  evaluator : String
  evalId : Value
  shapeBatchCount : Option Nat
  actionableDiagnostics : List Diagnostic

def PERFORMANCE_OBJECTIVE : String := "shape_speedup_arithmetic_mean"

/-- `optimizer_result_from_eval` -/
def optimizerResultFromEval (payload : Dict) (shapeIds : List String) (metadata : Value)
    (requirePerformance : Bool) : OptimizerResult :=
  let compile := compileOf payload
  let correctness := shapesOf payload "correctness"
  let performance := shapesOf payload "performance"
  let failures := (if Truthy (get payload "error") then
      ["evaluation: " ++ texts.str (get payload "error")] else []) ++
    compileFailures texts compile shapeIds ++
    shapeIds.flatMap (correctnessFailure texts (statusesOf payload)) ++
    if requirePerformance then shapeIds.flatMap (performanceFailure texts performance) else []
  let latencies : Latencies := if requirePerformance then
    shapeIds.filterMap fun shapeId => (latencyUs performance shapeId).map (Prod.mk shapeId) else []
  let found := latencies.found shapeIds
  let complete := found.length = shapeIds.length
  let speedup := if requirePerformance then (metadataSpeedupMean metadata shapeIds latencies).1 else none
  { allPass := failures.isEmpty
    failures
    latencyUsGeomean := if complete ∧ found ≠ [] then expMean found else 0
    latencyUsArithMean := if complete ∧ found ≠ [] then mean found else 0
    latencyUsByShape := latencies
    speedupVsRefMean := speedup
    speedupVsRefGeomean := none
    performanceScore := speedup
    performanceObjective := PERFORMANCE_OBJECTIVE
    maxAbsErr := worst (shapeIds.flatMap (errorsOf "max_elementwise_abs_diff" correctness))
    maxRelErr := worst (shapeIds.flatMap (errorsOf "max_elementwise_rel_diff" correctness))
    evaluator := "atrex-gpu-gateway/run"
    evalId := get payload "eval_id"
    shapeBatchCount := none
    actionableDiagnostics := (compileDiagnostics texts
        (get (dictOrEmpty (get payload "passed")) "compile") shapeIds ++
      candidateExceptionDiagnostics texts (statusesOf payload) correctness shapeIds).take 8 }

/-- `max` of a generator. -/
def maxOf : List ℝ → Except Error ℝ
  | [] => .error (.valueError "max() arg is an empty sequence")
  | first :: rest => .ok (rest.foldl max first)

/-- `merge_optimizer_results` -/
def mergeOptimizerResults (results : List OptimizerResult) (shapeIds : List String) (metadata : Value)
    (requirePerformance : Bool) : Except Error OptimizerResult := do
  let latencies : Latencies := results.flatMap OptimizerResult.latencyUsByShape
  let found := latencies.found shapeIds
  let complete := requirePerformance = false ∨ found.length = shapeIds.length
  let speedup := if requirePerformance then (metadataSpeedupMean metadata shapeIds latencies).1 else none
  let maxAbsErr ← maxOf (results.map OptimizerResult.maxAbsErr)
  let maxRelErr ← maxOf (results.map OptimizerResult.maxRelErr)
  match results.getLast? with
  | none => throw .indexError
  | some last => pure {
        allPass := complete ∧ ∀ result ∈ results, result.allPass = true
        failures := results.flatMap OptimizerResult.failures
        latencyUsGeomean := if complete ∧ found ≠ [] then expMean found else 0
        latencyUsArithMean := if complete ∧ found ≠ [] then mean found else 0
        latencyUsByShape := latencies
        speedupVsRefMean := speedup
        speedupVsRefGeomean := none
        performanceScore := speedup
        performanceObjective := PERFORMANCE_OBJECTIVE
        maxAbsErr
        maxRelErr
        evaluator := "atrex-gpu-gateway/run/batched"
        evalId := last.evalId
        shapeBatchCount := some results.length
        actionableDiagnostics := (firstOf byStage [] (results.flatMap fun result =>
          result.actionableDiagnostics.map fun diagnostic => { diagnostic with
            stage := if diagnostic.stage = "" then "candidate_runtime" else diagnostic.stage })).take 8 }

/-- `batch_shape_ids` -/
def batchShapeIds (shapeIds : List String) (batchSize : Nat) : List (List String) :=
  (List.range ((shapeIds.length + batchSize - 1) / batchSize)).map fun i =>
    (shapeIds.drop (i * batchSize)).take batchSize

/-! ### Batches -/

/-- The shapes, cut into consecutive batches. -/
structure Consecutive (batches : List (List String)) (shapeIds : List String) : Prop where
  some_batch : batches ≠ []
  flatten : batches.flatten = shapeIds

/-- The compile result is keyed by shape, and nothing went wrong with the whole payload. -/
structure ByShape (payload : Dict) : Prop where
  noError : ¬ Truthy (get payload "error")
  keyed : find? (compileOf payload) "status" = none

/-- What the payload of a batch has in common with the payload for all shapes. -/
structure PartOf (payload part : Dict) (shapeIds : List String) : Prop where
  byShape : ByShape part
  compile : ∀ shapeId ∈ shapeIds, get (compileOf part) shapeId = get (compileOf payload) shapeId
  statuses : ∀ shapeId ∈ shapeIds, get (statusesOf part) shapeId = get (statusesOf payload) shapeId
  shapes : ∀ name, ∀ shapeId ∈ shapeIds, get (shapesOf part name) shapeId = get (shapesOf payload name) shapeId

/-- What the agent is told in the same way for both. -/
structure SameEvaluation (whole merged : OptimizerResult) : Prop where
  allPass : merged.allPass = whole.allPass
  latencies : ∀ shapeId, merged.latencyUsByShape.get? shapeId = whole.latencyUsByShape.get? shapeId
  geomean : merged.latencyUsGeomean = whole.latencyUsGeomean
  arithMean : merged.latencyUsArithMean = whole.latencyUsArithMean
  speedup : merged.speedupVsRefMean = whole.speedupVsRefMean
  score : merged.performanceScore = whole.performanceScore
  maxAbsErr : merged.maxAbsErr = whole.maxAbsErr
  maxRelErr : merged.maxRelErr = whole.maxRelErr
  failures : merged.failures.Perm whole.failures

theorem batchShapeIds_consecutive (shapeIds : List String) (batchSize : Nat) (some_shape : shapeIds ≠ [])
    (positive : 0 < batchSize) : Consecutive (batchShapeIds shapeIds batchSize) shapeIds ∧
      ∀ batch ∈ batchShapeIds shapeIds batchSize, batch ≠ [] := by
  have length := List.length_pos_of_ne_nil some_shape
  have flatten (k : Nat) : ((List.range k).map fun i => (shapeIds.drop (i * batchSize)).take batchSize).flatten =
      shapeIds.take (k * batchSize) := by
    induction k with
    | zero => simp
    | succ k ih =>
        rw [List.range_succ, List.map_append, List.flatten_append, ih, List.map_singleton, List.flatten_singleton,
          Nat.succ_mul, ← List.take_add]
  have count : shapeIds.length ≤ (shapeIds.length + batchSize - 1) / batchSize * batchSize := by
    have split := Nat.div_add_mod (shapeIds.length + batchSize - 1) batchSize
    have below := Nat.mod_lt (shapeIds.length + batchSize - 1) positive
    rw [Nat.mul_comm] at split
    omega
  refine ⟨⟨fun none_ => ?_, ?_⟩, fun batch member empty => ?_⟩
  · have all := flatten ((shapeIds.length + batchSize - 1) / batchSize)
    unfold batchShapeIds at none_
    rw [none_, List.take_of_length_le count] at all
    exact some_shape all.symm
  · unfold batchShapeIds
    rw [flatten, List.take_of_length_le count]
  · obtain ⟨i, inside, rfl⟩ := List.mem_map.mp member
    have start : i * batchSize < shapeIds.length := by
      have below : (i + 1) * batchSize ≤ (shapeIds.length + batchSize - 1) / batchSize * batchSize :=
        Nat.mul_le_mul_right _ (List.mem_range.mp inside)
      have floor := Nat.div_mul_le_self (shapeIds.length + batchSize - 1) batchSize
      rw [Nat.succ_mul] at below
      omega
    have size := congrArg List.length empty
    rw [List.length_take, List.length_drop, List.length_nil] at size
    omega

/-! ### The worst error -/

theorem foldl_max (start : ℝ) (errors : List ℝ) (nonneg : 0 ≤ start) :
    errors.foldl max start = max start (worst errors) := by
  induction errors generalizing start with
  | nil => simp [worst, nonneg]
  | cons first rest ih =>
      unfold worst
      rw [List.foldl_cons, List.foldl_cons, ih _ (le_max_of_le_left nonneg), ih _ (le_max_left _ _),
        ← max_assoc, ← max_assoc, max_eq_left nonneg]

theorem worst_nonneg (errors : List ℝ) : 0 ≤ worst errors := by
  cases errors with
  | nil => exact le_refl _
  | cons first rest =>
      unfold worst
      rw [List.foldl_cons, foldl_max _ _ (le_max_left _ _)]
      exact le_max_of_le_left (le_max_left _ _)

theorem worst_append (first second : List ℝ) : worst (first ++ second) = max (worst first) (worst second) := by
  have split : worst (first ++ second) = second.foldl max (worst first) := List.foldl_append
  rw [split, foldl_max _ _ (worst_nonneg first)]

/-- The worst error of all batches is the worst of their worst. -/
theorem maxOf_worst (batches : List (List ℝ)) (some_batch : batches ≠ []) :
    maxOf (batches.map worst) = .ok (worst batches.flatten) := by
  have later (rest : List (List ℝ)) (first : List ℝ) :
      (rest.map worst).foldl max (worst first) = worst (first ++ rest.flatten) := by
    induction rest generalizing first with
    | nil => simp
    | cons next rest ih =>
        rw [List.map_cons, List.foldl_cons, ← worst_append, ih, List.flatten_cons, List.append_assoc]
  cases batches with
  | nil => exact absurd rfl some_batch
  | cons first rest => exact congrArg Except.ok (later rest first)

/-! ### Conversion in batches -/

section Batches

variable {payload : Dict} {batches : List (List String)} {shapeIds : List String} {part : List String → Dict}

theorem flatMap_batches {α : Type} (f : String → List α) (split : Consecutive batches shapeIds)
    (g : List String → String → List α) (same : ∀ batch ∈ batches, ∀ shapeId ∈ batch, g batch shapeId = f shapeId) :
    (batches.flatMap fun batch => batch.flatMap (g batch)) = shapeIds.flatMap f := by
  rw [← split.flatten, ← List.flatMap_id', List.flatMap_assoc]
  exact List.flatMap_congr fun batch member => List.flatMap_congr fun shapeId inside => same batch member shapeId inside

theorem compileFailures_keyed (compile : Dict) (keyed : find? compile "status" = none) (shapeIds : List String) :
    compileFailures texts compile shapeIds = shapeIds.flatMap (compileFailure texts compile) := by
  unfold compileFailures
  rw [keyed]
  rfl

/-- The failures that a conversion lists, of a payload that is keyed by shape. -/
def listed (payload : Dict) (requirePerformance : Bool) (shapeIds : List String) : List String :=
  shapeIds.flatMap (compileFailure texts (compileOf payload)) ++
    shapeIds.flatMap (correctnessFailure texts (statusesOf payload)) ++
    if requirePerformance then shapeIds.flatMap (performanceFailure texts (shapesOf payload "performance")) else []

theorem failures_listed (byShape : ByShape payload) (metadata : Value) (requirePerformance : Bool)
    (shapeIds : List String) :
    (optimizerResultFromEval texts payload shapeIds metadata requirePerformance).failures =
      listed texts payload requirePerformance shapeIds := by
  unfold optimizerResultFromEval listed
  dsimp only
  rw [if_neg byShape.noError, List.nil_append, compileFailures_keyed texts _ byShape.keyed]

theorem performance_part (parts : ∀ batch ∈ batches, PartOf payload (part batch) batch) :
    ∀ batch ∈ batches, ∀ shapeId ∈ batch,
      get (shapesOf (part batch) "performance") shapeId = get (shapesOf payload "performance") shapeId :=
  fun batch member shapeId inside => (parts batch member).shapes "performance" shapeId inside

theorem listed_batches (split : Consecutive batches shapeIds)
    (parts : ∀ batch ∈ batches, PartOf payload (part batch) batch) (requirePerformance : Bool) :
    (batches.flatMap fun batch => listed texts (part batch) requirePerformance batch).Perm
      (listed texts payload requirePerformance shapeIds) := by
  have compile := flatMap_batches (compileFailure texts (compileOf payload)) split
    (fun batch => compileFailure texts (compileOf (part batch))) fun batch member shapeId inside => by
      unfold compileFailure
      rw [(parts batch member).compile shapeId inside]
  have correctness := flatMap_batches (correctnessFailure texts (statusesOf payload)) split
    (fun batch => correctnessFailure texts (statusesOf (part batch))) fun batch member shapeId inside => by
      unfold correctnessFailure
      rw [(parts batch member).statuses shapeId inside]
  have performance := flatMap_batches (performanceFailure texts (shapesOf payload "performance")) split
    (fun batch => performanceFailure texts (shapesOf (part batch) "performance"))
    fun batch member shapeId inside => by
      unfold performanceFailure Unmeasured samplesMs
      rw [performance_part parts batch member shapeId inside]
  have lastPart : (batches.flatMap fun batch => if requirePerformance then
      batch.flatMap (performanceFailure texts (shapesOf (part batch) "performance")) else []) =
      if requirePerformance then shapeIds.flatMap (performanceFailure texts (shapesOf payload "performance"))
      else [] := by
    cases requirePerformance with
    | false => exact List.flatMap_eq_nil_iff.mpr fun _ _ => rfl
    | true => exact performance
  unfold listed
  rw [← compile, ← correctness, ← lastPart]
  exact ((List.flatMap_append_perm batches _ _).symm.trans
    ((List.flatMap_append_perm batches _ _).symm.append_right _))

/-- The latencies that a conversion enters. -/
def entered (payload : Dict) (requirePerformance : Bool) (shapeIds : List String) : Latencies :=
  if requirePerformance then shapeIds.filterMap fun shapeId =>
    (latencyUs (shapesOf payload "performance") shapeId).map (Prod.mk shapeId) else []

theorem entered_batches (split : Consecutive batches shapeIds)
    (parts : ∀ batch ∈ batches, PartOf payload (part batch) batch) (requirePerformance : Bool) :
    (batches.flatMap fun batch => entered (part batch) requirePerformance batch) =
      entered payload requirePerformance shapeIds := by
  unfold entered
  cases requirePerformance with
  | false => exact List.flatMap_eq_nil_iff.mpr fun _ _ => rfl
  | true =>
      rw [if_pos rfl, ← split.flatten, List.filterMap_flatten, List.flatMap_def]
      congr 1
      refine List.map_congr_left fun batch member => List.filterMap_congr fun shapeId inside => ?_
      unfold latencyUs Unmeasured samplesMs
      rw [performance_part parts batch member shapeId inside]

theorem get?_mem {latencies : Latencies} {entry : String × ℝ} (member : entry ∈ latencies) :
    (latencies.get? entry.1).isSome := by
  unfold Latencies.get?
  rw [Option.isSome_map, List.find?_isSome]
  exact ⟨entry, List.mem_reverse.mpr member, decide_eq_true rfl⟩

/-- A shape without a latency has a failure. -/
theorem complete_of_listed (metricless : listed texts payload true shapeIds = []) :
    ((entered payload true shapeIds).found shapeIds).length = shapeIds.length := by
  refine List.filterMap_length_eq_length.mpr fun shapeId member => ?_
  unfold listed at metricless
  rw [List.append_eq_nil_iff, if_pos rfl, List.flatMap_eq_nil_iff] at metricless
  have measured := metricless.2 shapeId member
  unfold performanceFailure at measured
  by_cases unmeasured : Unmeasured (shapesOf payload "performance") shapeId
  · rw [if_pos unmeasured] at measured
    cases measured
  · have entry : (shapeId, median (samplesMs (shapesOf payload "performance") shapeId) * 1000) ∈
        entered payload true shapeIds := by
      refine List.mem_filterMap.mpr ⟨shapeId, member, ?_⟩
      rw [latencyUs, if_neg unmeasured]
      rfl
    exact get?_mem entry

theorem maxErr_batches (key : String) (split : Consecutive batches shapeIds)
    (parts : ∀ batch ∈ batches, PartOf payload (part batch) batch) :
    maxOf (batches.map fun batch => worst (batch.flatMap (errorsOf key (shapesOf (part batch) "correctness")))) =
      .ok (worst (shapeIds.flatMap (errorsOf key (shapesOf payload "correctness")))) := by
  have all := flatMap_batches (errorsOf key (shapesOf payload "correctness")) split
    (fun batch => errorsOf key (shapesOf (part batch) "correctness")) fun batch member shapeId inside => by
      unfold errorsOf outputsOf
      rw [(parts batch member).shapes "correctness" shapeId inside]
  have worsts := maxOf_worst (batches.map fun batch =>
    batch.flatMap (errorsOf key (shapesOf (part batch) "correctness"))) fun empty =>
      split.some_batch (List.map_eq_nil_iff.mp empty)
  rw [List.map_map, ← List.flatMap_def, all] at worsts
  exact worsts

/-- Batches are invisible: any cut of the shapes into consecutive batches, converted one by one and
merged, tells the agent what one conversion of all shapes does; and every batch size is such a cut. -/
theorem batching_invisible (payload : Dict) (byShape : ByShape payload) (shapeIds : List String)
    (metadata : Value) (requirePerformance : Bool) :
    (∀ (batches : List (List String)) (part : List String → Dict), Consecutive batches shapeIds →
      (∀ batch ∈ batches, PartOf payload (part batch) batch) →
      ∃ merged, mergeOptimizerResults (batches.map fun batch =>
          optimizerResultFromEval texts (part batch) batch metadata requirePerformance)
        shapeIds metadata requirePerformance = .ok merged ∧
        SameEvaluation (optimizerResultFromEval texts payload shapeIds metadata requirePerformance) merged) ∧
    ∀ batchSize, 0 < batchSize → shapeIds ≠ [] → Consecutive (batchShapeIds shapeIds batchSize) shapeIds ∧
      ∀ batch ∈ batchShapeIds shapeIds batchSize, batch ≠ [] := by
  refine ⟨fun batches part split parts => ?_, fun batchSize positive some_shape =>
    batchShapeIds_consecutive shapeIds batchSize some_shape positive⟩
  have failures := failures_listed texts byShape metadata requirePerformance shapeIds
  have latencies : (batches.map fun batch => optimizerResultFromEval texts (part batch) batch metadata
      requirePerformance).flatMap OptimizerResult.latencyUsByShape =
        entered payload requirePerformance shapeIds := by
    rw [List.flatMap_map]
    exact entered_batches split parts requirePerformance
  have fails : (batches.map fun batch => optimizerResultFromEval texts (part batch) batch metadata
      requirePerformance).flatMap OptimizerResult.failures =
        batches.flatMap fun batch => listed texts (part batch) requirePerformance batch := by
    rw [List.flatMap_map]
    exact List.flatMap_congr fun batch member =>
      failures_listed texts (parts batch member).byShape metadata requirePerformance batch
  have perm := listed_batches texts split parts requirePerformance
  have maxAbs := maxErr_batches "max_elementwise_abs_diff" split parts
  have maxRel := maxErr_batches "max_elementwise_rel_diff" split parts
  have passes : (∀ result ∈ batches.map fun batch => optimizerResultFromEval texts (part batch) batch metadata
      requirePerformance, result.allPass = true) ↔ listed texts payload requirePerformance shapeIds = [] := by
    have each : ∀ batch ∈ batches, ((optimizerResultFromEval texts (part batch) batch metadata
        requirePerformance).allPass = true ↔ listed texts (part batch) requirePerformance batch = []) := by
      intro batch member
      rw [← failures_listed texts (parts batch member).byShape metadata requirePerformance batch]
      exact List.isEmpty_iff
    have empty : listed texts payload requirePerformance shapeIds = [] ↔
        (batches.flatMap fun batch => listed texts (part batch) requirePerformance batch) = [] :=
      ⟨fun none_ => List.perm_nil.mp (none_ ▸ perm), fun none_ => List.perm_nil.mp (none_ ▸ perm.symm)⟩
    rw [List.forall_mem_map, empty, List.flatMap_eq_nil_iff]
    exact forall₂_congr each
  generalize same : (batches.map fun batch => optimizerResultFromEval texts (part batch) batch metadata
    requirePerformance) = results at latencies fails passes ⊢
  obtain ⟨last, isLast⟩ : ∃ last, results.getLast? = some last := by
    refine Option.ne_none_iff_exists'.mp fun none_ => split.some_batch ?_
    have empty := List.getLast?_eq_none_iff.mp none_
    rw [← same] at empty
    exact List.map_eq_nil_iff.mp empty
  have worstAbs : maxOf (results.map OptimizerResult.maxAbsErr) =
      .ok (worst (shapeIds.flatMap (errorsOf "max_elementwise_abs_diff" (shapesOf payload "correctness")))) := by
    rw [← maxAbs, ← same, List.map_map]
    rfl
  have worstRel : maxOf (results.map OptimizerResult.maxRelErr) =
      .ok (worst (shapeIds.flatMap (errorsOf "max_elementwise_rel_diff" (shapesOf payload "correctness")))) := by
    rw [← maxRel, ← same, List.map_map]
    rfl
  unfold mergeOptimizerResults
  dsimp only
  rw [latencies, fails, worstAbs, worstRel, isLast]
  refine ⟨_, rfl, ?_⟩
  have measured : requirePerformance = false → (entered payload requirePerformance shapeIds).found shapeIds = [] := by
    rintro rfl
    exact List.filterMap_eq_nil_iff.mpr fun _ _ => rfl
  have complete : ((requirePerformance = false ∨
      ((entered payload requirePerformance shapeIds).found shapeIds).length = shapeIds.length) ∧
        (entered payload requirePerformance shapeIds).found shapeIds ≠ []) ↔
      (((entered payload requirePerformance shapeIds).found shapeIds).length = shapeIds.length ∧
        (entered payload requirePerformance shapeIds).found shapeIds ≠ []) :=
    ⟨fun ⟨either, some_⟩ => ⟨either.resolve_left fun off => some_ (measured off), some_⟩,
      fun ⟨all, some_⟩ => ⟨Or.inr all, some_⟩⟩
  refine { allPass := ?_, latencies := fun _ => rfl, geomean := ?_, arithMean := ?_, speedup := rfl, score := rfl,
           maxAbsErr := rfl, maxRelErr := rfl, failures := ?_ }
  · have whole : (optimizerResultFromEval texts payload shapeIds metadata requirePerformance).allPass =
        (listed texts payload requirePerformance shapeIds).isEmpty := by
      rw [← failures]
      rfl
    rw [whole, Bool.eq_iff_iff, decide_eq_true_iff, List.isEmpty_iff, passes]
    refine ⟨fun both => both.2, fun none_ => ⟨?_, none_⟩⟩
    cases requirePerformance with
    | false => exact Or.inl rfl
    | true => exact Or.inr (complete_of_listed texts none_)
  · exact if_congr complete rfl rfl
  · exact if_congr complete rfl rfl
  · rw [failures]
    exact perm

end Batches

/-- A payload in which only one of two shapes was compiled. -/
def halfCompiled : Dict := [("passed", .obj [("compile", .obj [("0", .obj [("status", .str "passed")])])])]

theorem halfCompiled_byShape : ByShape halfCompiled where
  noError := by simp [halfCompiled, Truthy, Json.get]
  keyed := by simp [halfCompiled, compileOf, dictOrEmpty]

def plainTexts : Texts where
  str value := match value with | .str text => text | _ => ""
  strip := id
  lower := id

theorem batching_invisible_half :
    ∃ merged, mergeOptimizerResults ([["0"], ["1"]].map fun batch =>
        optimizerResultFromEval plainTexts halfCompiled batch .null true) ["0", "1"] .null true = .ok merged ∧
      SameEvaluation (optimizerResultFromEval plainTexts halfCompiled ["0", "1"] .null true) merged :=
  (batching_invisible plainTexts halfCompiled halfCompiled_byShape ["0", "1"] .null true).1 [["0"], ["1"]]
    (fun _ => halfCompiled) ⟨by simp, rfl⟩ fun _ _ =>
      ⟨halfCompiled_byShape, fun _ _ => rfl, fun _ _ => rfl, fun _ _ _ => rfl⟩

end

end AtrexAgent.Evaluation.Conversion
