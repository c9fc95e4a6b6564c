import Mathlib
import AtrexAgent.Evaluation.Abba

/-! Native A/B evidence: the nested runs of a job, one summary for each of them, and the payload
that is checked against the verification schedule. -/

namespace AtrexAgent.Evaluation

open AtrexAgent.Json

noncomputable section

open scoped Classical

/-! ### Reading nested values -/

/-- `value or {}` -/
def orEmpty (value : Value) : Value := if Truthy value then value else .obj []

/-- `value.get`, which only a dict has. -/
def asDict : Value → Except Error Dict
  | .obj d => pure d
  | _ => throw .attributeError

/-- `d.get(key, {})` -/
def getOrEmpty (d : Dict) (key : String) : Value := (find? d key).getD (.obj [])

/-- The items of a value in a `for`. -/
def iterate : Value → Except Error (List Value)
  | .arr items => pure items
  | .obj d => pure (d.map fun item => .str item.1)
  | .str s => pure (s.toList.map fun c => .str c.toString)
  | _ => throw .typeError

/-- `key in value` -/
def contains (key : String) : Value → Except Error Bool
  | .obj d => pure (d.any fun item => item.1 = key)
  | .arr items => pure (items.any fun item => item = .str key)
  | .str s => pure (key.toList <:+: s.toList)
  | _ => throw .typeError

/-- `row.get("end_to_end_time_ms")` of the rows that are dicts. -/
def timings (rows : List Value) : List Value :=
  (rows.filterMap dictOf).map fun row => get row "end_to_end_time_ms"

/-- `shape.get("samples", [])`, as its loop reads it. -/
def samplesOf (shape : Dict) : Except Error (List Value) :=
  iterate ((find? shape "samples").getD (.arr []))

/-! ### Complete evidence -/

/-- The verdict that `complete_evaluation` needs of one shape. -/
def completeShape (compileResult : Dict) (correctness performance : Value) (shapeId : String) :
    Except Error Bool := do
  let compilation ← asDict (if compileResult.any fun item => item.1 = "status" then
    .obj compileResult else getOrEmpty compileResult shapeId)
  if get compilation "status" = .str "failed" then pure true
  else if get compilation "status" ≠ .str "passed" then pure false
  else
    let correctness ← asDict correctness
    let verdict ← asDict (getOrEmpty correctness shapeId)
    if get verdict "status" = .str "failed" then pure true
    else if get verdict "status" ≠ .str "passed" then pure false
    else
      let performance ← asDict performance
      let shape ← asDict (getOrEmpty performance shapeId)
      let samples ← samplesOf shape
      pure (timings samples ≠ [] ∧ ∀ value ∈ timings samples, (positiveNumber value).isSome)

def completeShapes (compileResult : Dict) (correctness performance : Value) :
    List String → Except Error Bool
  | [] => pure true
  | shapeId :: rest => do
      let complete ← completeShape compileResult correctness performance shapeId
      if complete then completeShapes compileResult correctness performance rest else pure false

/-- `complete_evaluation` of a request with these shapes and no A/B of its own. To look at a shape
twice changes nothing. -/
def completeEvaluation (result : Dict) (shapes : List String) : Except Error Bool :=
  if shapes = [] then pure false
  else
    match get result "passed" with
    | .obj passed =>
        match get passed "compile" with
        | .obj compileResult => do
            let performance ← asDict (orEmpty (get result "performance"))
            completeShapes compileResult (orEmpty (get passed "correctness"))
              (getOrEmpty performance "shapes") shapes
        | _ => pure false
    | _ => pure false

/-! ### The summary of one run -/

/-- Whether `compile_failures` lists any. -/
def compileFails (compileResult : Value) (shapeIds : List String) : Prop :=
  match compileResult with
  | .obj d =>
      if d.any fun item => item.1 = "status" then get d "status" ≠ .str "passed"
      else ∃ shapeId ∈ shapeIds, ∀ verdict, get d shapeId = .obj verdict →
        get verdict "status" ≠ .str "passed"
  | _ => shapeIds ≠ []

/-- `all(...)` over the shapes of a run. -/
def allPassed (statuses shapeResults : Value) : List String → Except Error Bool
  | [] => pure true
  | shapeId :: rest => do
      let statuses' ← asDict statuses
      let verdict ← asDict (getOrEmpty statuses' shapeId)
      if get verdict "status" ≠ .str "passed" then pure false
      else
        let present ← contains shapeId shapeResults
        if present then allPassed statuses shapeResults rest else pure false

/-- Whether the stages of a run pass on every shape. -/
def stagesPass (raw passed : Dict) (shapeResults : Value) (shapes : List String) :
    Except Error Bool :=
  if Truthy (get raw "error") ∨ compileFails (get passed "compile") shapes then pure false
  else allPassed (orEmpty (get passed "correctness")) shapeResults shapes

/-- `statistics.median` -/
def median (values : List ℝ) : ℝ :=
  let sorted := values.insertionSort (· ≤ ·)
  if values.length % 2 = 1 then sorted.getD (values.length / 2) 0
  else (sorted.getD (values.length / 2 - 1) 0 + sorted.getD (values.length / 2) 0) / (2 : ℕ)

/-- The latency of one shape in microseconds, where it was timed without an error. -/
def shapeLatency (performance : Value) (shapeId : String) : Except Error (Option ℝ) := do
  let performance ← asDict performance
  let shape ← asDict (orEmpty (get performance shapeId))
  let samples ← samplesOf shape
  let values := (timings samples).filterMap positiveNumber
  pure (if values ≠ [] ∧ ¬ Truthy (get shape "error") then some (median values * (1000 : ℕ)) else none)

def latenciesOf (performance : Value) : List String → List (String × ℝ) →
    Except Error (List (String × ℝ))
  | [], latencies => pure latencies
  | shapeId :: rest, latencies => do
      match ← shapeLatency performance shapeId with
      | none => latenciesOf performance rest latencies
      | some latency =>
          if latencies.any fun item => item.1 = shapeId then
            latenciesOf performance rest (latencies.map fun item =>
              if item.1 = shapeId then (shapeId, latency) else item)
          else latenciesOf performance rest (latencies ++ [(shapeId, latency)])

/-- What `evaluation_feedback` returns. -/
structure Feedback where
  diagnostics : List Value
  performanceByShape : Dict
  truncation : Option Dict

def Feedback.items (feedback : Feedback) : Dict :=
  [("diagnostics", .arr feedback.diagnostics),
    ("performance_by_shape", .obj feedback.performanceByShape)] ++
    (feedback.truncation.toList.map fun truncation => ("feedback_truncation", .obj truncation))

def correctnessItem (raw : Dict) (passed : Prop) : Value :=
  .obj [("status", .str (if passed then "PASS" else "FAIL")),
    ("rel_err", optional (correctnessSummary [.obj raw]).relErr),
    ("max_abs_err", optional (correctnessSummary [.obj raw]).maxAbsErr),
    ("max_rel_err", optional (correctnessSummary [.obj raw]).maxRelErr)]

/-- The result of a run, by its verdict and its latencies. -/
def summaryOf (raw : Dict) (correct : Prop) (latencies : List (String × ℝ))
    (feedback : Feedback) : Dict :=
  [("all_pass", .bool correct),
    ("latency_us_by_shape", .obj (latencies.map fun item => (item.1, .float (.finite item.2)))),
    ("latency_us_geomean", if correct then .float (.finite (expMean (latencies.map Prod.snd)))
      else .null),
    ("error", if correct then .null
      else .str "compile, correctness, or performance did not pass"),
    ("correctness", correctnessItem raw correct)] ++ feedback.items

section Native

-- `feedback` is `evaluation_feedback` in the environment of the process, and `deviceFailure` is
-- `embedded_device_failure` of a succeeded job with this result.
variable (feedback : Dict → List String → Except Error Feedback) (deviceFailure : Value → Prop)

/-- `_summarize` -/
def summarizeRaw (raw : Dict) (shapes : List String) : Except Error Dict := do
  let complete ← completeEvaluation raw shapes
  if complete = false then
    throw (.valueError "Native ABBA run has incomplete evaluator evidence")
  else
    let passed ← asDict (orEmpty (get raw "passed"))
    let correctness ← asDict (orEmpty (get raw "correctness"))
    let pass ← stagesPass raw passed (orEmpty (get correctness "shapes")) shapes
    let performance ← asDict (orEmpty (get raw "performance"))
    let latencies ← latenciesOf (orEmpty (get performance "shapes")) shapes []
    let feedback ← feedback raw shapes
    pure (summaryOf raw
      (pass = true ∧ latencies.length = shapes.length ∧ shapes ≠ []) latencies feedback)

/-- A place in a block: its revision, its label and its repeat. -/
structure Slot where
  revision : Revision
  label : String
  repetition : Nat

/-- The revision as the service calls it. -/
def Revision.side : Revision → String
  | .incumbent => "baseline"
  | .candidate => "candidate"

def expectedSlots : List Slot :=
  [⟨.incumbent, "A", 0⟩, ⟨.candidate, "B", 0⟩, ⟨.candidate, "B", 1⟩, ⟨.incumbent, "A", 1⟩]

/-- Row `index` of a block says that it ran in this slot. -/
def Occupies (row : Dict) (index : Nat) (slot : Slot) : Prop :=
  Equals (get row "index") index ∧ get row "revision" = .str slot.revision.side ∧
    get row "label" = .str slot.label ∧ Equals (get row "repeat") slot.repetition

def nativeRun (block : Nat) (slot : Slot) (summary : Dict) : Dict :=
  [("revision", .str slot.revision.name), ("repeat", .int (block * 2 + slot.repetition : Nat)),
    ("exit_code", .int 0), ("result", .obj summary)]

def parseRow (shapes : List String) (block index : Nat) (row : Value) (slot : Slot) :
    Except Error Dict :=
  match row with
  | .obj row =>
      if ¬ Occupies row index slot then
        throw (.valueError
          "Native ABBA run order or evaluator evidence differs from the request")
      else
        match get row "result" with
        | .obj raw => do
            let summary ← summarizeRaw feedback raw shapes
            pure (nativeRun block slot summary)
        | _ => throw (.valueError
            "Native ABBA run order or evaluator evidence differs from the request")
  | _ => throw (.valueError
      "Native ABBA run order or evaluator evidence differs from the request")

def parseRows (shapes : List String) (block : Nat) : Nat → List Value → List Slot →
    Except Error (List Dict)
  | index, row :: rows, slot :: slots => do
      let run ← parseRow feedback shapes block index row slot
      let runs ← parseRows shapes block (index + 1) rows slots
      pure (run :: runs)
  | _, _, _ => pure []

/-- `(block.get("abba") or {}).get("runs")`, if it is a list. -/
def blockRuns : Value → Except Error (Option (List Value))
  | .obj block => do
      let abba ← asDict (orEmpty (get block "abba"))
      match get abba "runs" with
      | .arr rows => pure (some rows)
      | _ => pure none
  | _ => pure none

def parseBlocks (shapes : List String) : Nat → List Value → Except Error (List Dict)
  | _, [] => pure []
  | index, block :: blocks => do
      match ← blockRuns block with
      | none => throw (.valueError "Native ABBA block lacks four runs")
      | some rows =>
          if rows.length ≠ 4 then throw (.valueError "Native ABBA block lacks four runs")
          else
            let runs ← parseRows feedback shapes index 0 rows expectedSlots
            let later ← parseBlocks shapes (index + 1) blocks
            pure (runs ++ later)

def validateAbbaRepeats (repeats : Nat) : Except Error Unit :=
  if 2 ≤ repeats ∧ repeats ≤ 16 ∧ repeats % 2 = 0 then pure ()
  else throw (.valueError
    "--comparison-repeats must be even, in 2..16 (measurements per side)")

/-- `(result.get("abba") or {}).get("sdk_results")` of the result of a job. -/
def sdkResults (job : Dict) : Except Error Value := do
  let result ← asDict (orEmpty (get job "result"))
  let abba ← asDict (orEmpty (get result "abba"))
  pure (get abba "sdk_results")

def nativeAbbaPayload (runs : List Dict) : Dict :=
  [("schema_version", .int 1), ("transport", .str "agate_native_eval_abba"),
    ("runs", .arr (runs.map .obj)), ("error", .null)]

def parseNativeAbba (job : Dict) (repeats : Nat) (shapes : List String) : Except Error Dict := do
  validateAbbaRepeats repeats
  if shapes = [] ∨ get job "status" ≠ .str "succeeded" ∨ Truthy (get job "error") then
    throw (.valueError "Native ABBA job did not complete")
  else
    match ← sdkResults job with
    | .arr blocks =>
        if blocks.length ≠ repeats / 2 then
          throw (.valueError "Native ABBA result lacks complete SDK blocks")
        else
          let runs ← parseBlocks feedback shapes 0 blocks
          validateBatch deviceFailure (.obj (nativeAbbaPayload runs))
            (verificationSchedule repeats) shapes
    | _ => throw (.valueError "Native ABBA result lacks complete SDK blocks")

end Native

end

end AtrexAgent.Evaluation
