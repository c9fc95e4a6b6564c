import Mathlib.Analysis.SpecialFunctions.Log.Basic
import AtrexAgent.Library.Json

/-! A/B verification: the schedule of its runs, the payload of a shape batch, the
merge of batches, the side metrics the agent is shown, and the gate. Arithmetic on
floats is exact. -/

namespace AtrexAgent.Evaluation

open AtrexAgent.Json

inductive Number where
  | finite (x : ℝ)
  | nan
  | inf (negative : Bool)

abbrev Value := Json Number

abbrev Dict := Json.Dict Number

/-- What a function raises. -/
inductive Error where
  | valueError (message : String)
  | typeError
  | attributeError
  | keyError (key : String)
  | indexError
  deriving DecidableEq, Repr

noncomputable section

open scoped Classical

/-! ### Reading values -/

def Truthy : Value → Prop
  | .null => False
  | .bool b => b = true
  | .int n => n ≠ 0
  | .float (.finite x) => x ≠ 0
  | .float _ => True
  | .str s => s ≠ ""
  | .arr items => items ≠ []
  | .obj d => d ≠ []

/-- `value == n`. -/
def Equals (value : Value) (n : Int) : Prop :=
  match value with
  | .bool b => (if b then 1 else 0) = n
  | .int m => m = n
  | .float (.finite x) => x = n
  | _ => False

/-- `float(value)` where `isinstance(value, (int, float))`, so of a `bool` too. -/
def number : Value → Option Number
  | .bool b => some (.finite (if b then 1 else 0))
  | .int n => some (.finite n)
  | .float x => some x
  | _ => none

def Number.positive : Number → Option ℝ
  | .finite x => if 0 < x then some x else none
  | _ => none

/-- `_positive_number`. -/
def positiveNumber : Value → Option ℝ
  | .bool _ => none
  | value => (number value).bind Number.positive

/-- `a < b`, false with a NaN. -/
def Number.Less (a b : Number) : Prop :=
  match a, b with
  | .finite x, .finite y => x < y
  | .inf true, .finite _ => True
  | .inf true, .inf false => True
  | .finite _, .inf false => True
  | _, _ => False

/-- `max`, which keeps the first of two that are not ordered. -/
def Number.max (a b : Number) : Number := if a.Less b then b else a

def expMean (values : List ℝ) : ℝ := Real.exp ((values.map Real.log).sum / values.length)

/-- `_geomean`. -/
def geomean (values : List Number) : Option ℝ :=
  match values.mapM Number.positive with
  | none => none
  | some [] => none
  | some xs => some (expMean xs)

def dictOf : Value → Option Dict
  | .obj d => some d
  | _ => none

/-- The rows of a payload, if `runs` is a list of objects. -/
def rowsOf (payload : Dict) : Option (List Dict) :=
  match get payload "runs" with
  | .arr items => items.mapM dictOf
  | _ => none

def AllPass (result : Value) : Prop :=
  match result with
  | .obj d => get d "all_pass" = .bool true
  | _ => False

/-! ### The schedule -/

inductive Revision where
  | incumbent | candidate
  deriving DecidableEq, Repr

def Revision.name : Revision → String
  | .incumbent => "incumbent"
  | .candidate => "candidate"

structure Step where
  revision : Revision
  repetition : Nat
  deriving DecidableEq, Repr

def verificationSchedule (repeats : Nat) : List Step :=
  (List.range (max 1 repeats)).flatMap fun repetition =>
    if repetition % 2 = 0 then [⟨.incumbent, repetition⟩, ⟨.candidate, repetition⟩]
    else [⟨.candidate, repetition⟩, ⟨.incumbent, repetition⟩]

def Executes (row : Dict) (step : Step) : Prop :=
  get row "revision" = .str step.revision.name ∧ Equals (get row "repeat") step.repetition

/-- The revisions and repeats of the rows equal the schedule. -/
def Scheduled (rows : List Dict) (schedule : List Step) : Prop :=
  List.Forall₂ Executes rows schedule

/-! ### A shape batch -/

/-- What `validate_batch` asks of the result of one row. -/
def validRow (row : Dict) (shapeIds : List String) : Except Error Unit :=
  match get row "result" with
  | .obj result =>
      match get result "all_pass" with
      | .bool allPass =>
          match get row "exit_code" with
          | .int code =>
              if code < 0 then throw (.valueError "ABBA batch evaluator was interrupted")
              else if allPass = false then pure ()
              else
                match get result "latency_us_by_shape" with
                | .obj values =>
                    if code ≠ 0 ∨ ¬ ∀ key, key ∈ values.map Prod.fst ↔ key ∈ shapeIds then
                      throw (.valueError
                        "ABBA batch has incomplete or inconsistent Shape coverage")
                    else if ∀ value ∈ get result "latency_us_geomean" :: values.map Prod.snd,
                        (positiveNumber value).isSome then pure ()
                    else throw (.valueError "ABBA batch has invalid Shape latency")
                | _ => throw (.valueError
                    "ABBA batch has incomplete or inconsistent Shape coverage")
          | _ => throw (.valueError "ABBA batch evaluator was interrupted")
      | _ => throw (.valueError "ABBA batch has an unfinished evaluator result")
  | _ => throw (.valueError "ABBA batch has an unfinished evaluator result")

section Batches

-- `deviceFailure` is `embedded_device_failure` of a succeeded job with this result, and
-- `readFloat` is `float` of a string.
variable (deviceFailure : Value → Prop) (readFloat : String → Option Number)

def validateBatch (payload : Value) (schedule : List Step) (shapeIds : List String) :
    Except Error Dict :=
  match payload with
  | .obj d =>
      if ¬ Equals (get d "schema_version") 1 ∨ Truthy (get d "error") then
        throw (.valueError "ABBA batch has no complete measurement payload")
      else if deviceFailure payload then
        throw (.valueError "ABBA device unavailability is not a Kernel verdict")
      else
        match rowsOf d with
        | none => throw (.valueError "ABBA batch has invalid measurement rows")
        | some rows =>
            if ¬ Scheduled rows schedule then
              throw (.valueError "ABBA batch did not execute the exact requested schedule")
            else do
              rows.forM fun row => validRow row shapeIds
              pure d
  | _ => throw (.valueError "ABBA batch has no complete measurement payload")

/-- `float(value)`. -/
def toFloat (value : Value) : Except Error Number :=
  match value, number value with
  | .str s, _ => match readFloat s with
      | some x => pure x
      | none => throw (.valueError "could not convert string to float")
  | _, some x => pure x
  | _, none => throw .typeError

/-- The items of `result.get("latency_us_by_shape") or {}`. -/
def latencyItems (result : Dict) : Except Error Dict :=
  if Truthy (get result "latency_us_by_shape") then
    match get result "latency_us_by_shape" with
    | .obj d => pure d
    | _ => throw .attributeError
  else pure []

/-- The dict comprehension `latency_by_shape`. -/
def latencyByShape (results : List Dict) : Except Error (List (String × Number)) := do
  let items ← results.mapM latencyItems
  items.flatten.mapM fun item => do
    let latency ← toFloat readFloat item.2
    pure (item.1, latency)

/-- The last latency entered for a shape, as a dict keeps it. -/
def lookupLatency (latencies : List (String × Number)) (shapeId : String) : Option Number :=
  (latencies.reverse.find? fun item => item.1 = shapeId).map Prod.snd

/-- `result.get("performance_score", result.get("speedup_vs_ref_geomean"))`. -/
def rawScore (result : Dict) : Value :=
  (find? result "performance_score").getD (get result "speedup_vs_ref_geomean")

/-- The score of a result with the number of its shapes. -/
def weightedScore (result : Dict) : Option (ℝ × Nat) :=
  match positiveNumber (rawScore result), get result "latency_us_by_shape" with
  | some score, .obj d => some (score, d.length)
  | _, _ => none

def performanceScore (results : List Dict) (shapeIds : List String) : Option ℝ :=
  let weighted := results.filterMap weightedScore
  let measured := (weighted.map Prod.snd).sum
  if measured = shapeIds.length ∧ 0 < measured then
    some ((weighted.map fun item => item.1 * (item.2 : ℝ)).sum / measured)
  else none

def optional : Option ℝ → Value
  | some x => .float (.finite x)
  | none => .null

/-- `max(float(result.get(key) or 0.0) for result in results)`. -/
def worstOf (key : String) (results : List Dict) : Except Error Number := do
  let errors ← results.mapM fun result =>
    if Truthy (get result key) then toFloat readFloat (get result key) else pure (.finite 0)
  match errors with
  | [] => throw (.valueError "max() arg is an empty sequence")
  | first :: rest => pure (rest.foldl Number.max first)

/-- `latency_by_shape` as a value: of two latencies of a shape the last stays. -/
def latencyDict (latencies : List (String × Number)) : Dict :=
  latencies.foldl (fun d item => set d item.1 (.float item.2)) []

def foundLatencies (latencies : List (String × Number)) (shapeIds : List String) : List Number :=
  shapeIds.filterMap (lookupLatency latencies)

/-- `missing_shape_ids` is not empty. -/
def Missing (latencies : List (String × Number)) (shapeIds : List String) : Prop :=
  ∃ shapeId ∈ shapeIds, lookupLatency latencies shapeId = none

/-- `_merge_batch_results`. -/
def mergeBatchResults (results : List Dict) (shapeIds : List String) : Except Error Dict := do
  let latencies ← latencyByShape readFloat results
  let score := performanceScore results shapeIds
  match results.getLast? with
  | none => throw .indexError
  | some last => do
      let maxAbs ← worstOf readFloat "max_abs_err" results
      let maxRel ← worstOf readFloat "max_rel_err" results
      pure (update last [
        ("all_pass", .bool (¬ Missing latencies shapeIds ∧ score ≠ none ∧
          ∀ result ∈ results, Truthy (get result "all_pass"))),
        ("latency_us_geomean", if Missing latencies shapeIds then .null
          else optional (geomean (foundLatencies latencies shapeIds))),
        ("latency_us_by_shape", .obj (latencyDict latencies)),
        ("speedup_vs_ref_mean", optional score),
        ("speedup_vs_ref_geomean", .null),
        ("performance_score", optional score),
        ("max_abs_err", .float maxAbs),
        ("max_rel_err", .float maxRel)])

/-- A row with its result, both objects. -/
def rowWithResult (row : Value) : Option (Dict × Dict) := do
  let d ← dictOf row
  let result ← dictOf (get d "result")
  pure (d, result)

/-- The rows and results of one payload, or the error its check raises. -/
def batchRows (payload : Dict) (schedule : List Step) : Except Error (List (Dict × Dict)) :=
  match get payload "runs" with
  | .arr items =>
      if ¬ Equals (get payload "schema_version") 1 ∨ Truthy (get payload "error") ∨
          items.length ≠ schedule.length then
        throw (.valueError "invalid shape batch result")
      else
        match items.mapM rowWithResult with
        | none => throw (.valueError "shape batch has no valid run result")
        | some pairs =>
            if Scheduled (pairs.map Prod.fst) schedule then pure pairs
            else throw (.valueError "shape batch returned an invalid ABBA schedule")
  | _ => throw (.valueError "invalid shape batch result")

/-- `all(row["exit_code"] == 0 for row in rows)`. -/
def allExitZero : List (Dict × Dict) → Except Error Bool
  | [] => pure true
  | row :: rest =>
      match find? row.1 "exit_code" with
      | none => throw (.keyError "exit_code")
      | some code => if Equals code 0 then allExitZero rest else pure false

/-- `result["all_pass"]` of a merged run: complete measured shapes and no failing batch. -/
def RunPasses (merged : Dict) (rows : List (Dict × Dict)) (shapeIds : List String) : Prop :=
  (∃ d, get merged "latency_us_by_shape" = .obj d ∧
    ∀ key, key ∈ d.map Prod.fst ↔ key ∈ shapeIds) ∧
  ∀ row ∈ rows, get row.2 "all_pass" = .bool true

def runExitCode (merged : Dict) (rows : List (Dict × Dict)) (shapeIds : List String) :
    Except Error Int := do
  if RunPasses merged rows shapeIds then
    let zero ← allExitZero rows
    pure (if zero then 0 else 1)
  else pure 1

/-- One run of the merged payload, from the rows of all batches for it. -/
def mergeRun (step : Step) (rows : List (Dict × Dict)) (shapeIds : List String) :
    Except Error Value := do
  let merged ← mergeBatchResults readFloat (rows.map Prod.snd) shapeIds
  let exitCode ← runExitCode merged rows shapeIds
  pure (.obj [
    ("revision", .str step.revision.name),
    ("repeat", .int step.repetition),
    ("exit_code", .int exitCode),
    ("result", .obj (set merged "all_pass" (.bool (RunPasses merged rows shapeIds))))])

/-- `merge_abba_batch_payloads`. -/
def mergeAbbaBatchPayloads (payloads : List Dict) (schedule : List Step)
    (shapeIds : List String) : Except Error Dict :=
  match payloads with
  | [payload] => pure payload
  | _ => do
      let batches ← payloads.mapM fun payload => batchRows payload schedule
      let runs ← schedule.zipIdx.mapM fun item =>
        mergeRun readFloat item.1 (batches.filterMap fun rows => rows[item.2]?) shapeIds
      let failures := payloads.filterMap fun payload => dictOf (get payload "terminal_failure")
      pure ([
        ("schema_version", .int 1),
        ("runs", .arr runs),
        ("error", .null),
        ("shape_batch_count", .int payloads.length)] ++
        (failures.head?.toList.map fun failure => ("terminal_failure", .obj failure)))

end Batches

/-! ### What the agent is shown -/

/-- The greater of two optional numbers. -/
def worstOption : Option ℝ → Option ℝ → Option ℝ
  | some x, some y => some (max x y)
  | some x, none => some x
  | none, other => other

def worstNumber (names : List String) (key : String) : Value → Option ℝ
  | .int n => if key ∈ names ∧ 0 ≤ n then some n else none
  | .float (.finite x) => if key ∈ names ∧ 0 ≤ x then some x else none
  | _ => none

section Worst

variable (names : List String)

mutual

/-- The worst number under one of `names`, as `correctness_summary` looks for it: below
an object with a `correctness`, only there. -/
def worst : Value → Option ℝ
  | .obj items =>
      if items.any fun item => item.1 = "correctness" then worstCorrectness items
      else worstItems items
  | .arr items => worstAll items
  | _ => none

def worstCorrectness : List (String × Value) → Option ℝ
  | [] => none
  | (key, value) :: rest =>
      if key = "correctness" then worst value else worstCorrectness rest

def worstItems : List (String × Value) → Option ℝ
  | [] => none
  | (key, value) :: rest =>
      worstOption (worstOption (worstNumber names key value) (worst value)) (worstItems rest)

def worstAll : List Value → Option ℝ
  | [] => none
  | value :: rest => worstOption (worst value) (worstAll rest)

end

end Worst

/-- `correctness_summary` of a list of results, without its status. -/
structure CorrectnessMetrics where
  relErr : Option ℝ
  maxAbsErr : Option ℝ
  maxRelErr : Option ℝ

def correctnessSummary (results : List Value) : CorrectnessMetrics where
  relErr := worstAll ["rel_err", "relative_l2"] results
  maxAbsErr := worstAll ["max_abs_err", "max_elementwise_abs_diff"] results
  maxRelErr := worstAll ["max_rel_err", "max_elementwise_rel_diff"] results

structure SideMetrics where
  correct : Prop
  latency : Option ℝ
  byShape : List (String × ℝ)
  performanceScore : Option ℝ
  maxAbsErr : Value
  maxRelErr : Value
  correctness : CorrectnessMetrics

/-- The result of a row that ran to its end and passed. -/
def successful (row : Dict) : Option Dict :=
  match get row "result" with
  | .obj result =>
      if Equals (get row "exit_code") 0 ∧ get result "all_pass" = .bool true then some result
      else none
  | _ => none

/-- `math.exp(sum(log) / len)` of the numbers, if there is one for each repeat. -/
def meanOfRepeats (repeats : Nat) (values : List (Option ℝ)) : Option ℝ :=
  if (values.filterMap id).length = repeats then some (expMean (values.filterMap id)) else none

section Sides

-- `compare a b` is `a > b` where one of them is no number.
variable (compare : Value → Value → Except Error Bool)

def greater (a b : Value) : Except Error Bool :=
  match number a, number b with
  | some x, some y => pure (decide (y.Less x))
  | _, _ => compare a b

/-- `max(row["result"].get(key) or 0 for row in successful)`, `0` of no rows. -/
def worstError (key : String) (results : List Dict) : Except Error Value :=
  match results.map fun result =>
      if Truthy (get result key) then get result key else .int 0 with
  | [] => pure (.int 0)
  | first :: rest => rest.foldlM (fun best error => do
      if ← greater compare error best then pure error else pure best) first

/-- The latencies of a side by shape: of each shape that every repeat measured. -/
def sideByShape (results : List Dict) (repeats : Nat) (shapeIds : List String) :
    List (String × ℝ) :=
  shapeIds.filterMap fun shapeId =>
    (meanOfRepeats repeats (results.filterMap fun result =>
      (dictOf (get result "latency_us_by_shape")).map fun d =>
        positiveNumber (get d shapeId))).map (Prod.mk shapeId)

def rowsOfSide (rows : List Dict) (side : Revision) : List Dict :=
  rows.filter fun row => get row "revision" = .str side.name

/-- `_abba_side_metrics`, without the feedback it carries along. -/
def abbaSideMetrics (rows : List Dict) (side : Revision) (repeats : Nat)
    (shapeIds : List String) : Except Error SideMetrics := do
  let selected := rowsOfSide rows side
  let results := selected.filterMap successful
  let byShape := sideByShape results repeats shapeIds
  let latency := meanOfRepeats repeats (results.map fun result =>
    positiveNumber (get result "latency_us_geomean"))
  let scores := results.map fun result => positiveNumber (get result "performance_score")
  let maxAbsErr ← worstError compare "max_abs_err" results
  let maxRelErr ← worstError compare "max_rel_err" results
  pure
    { correct := results.length = repeats ∧
        (∀ key, key ∈ byShape.map Prod.fst ↔ key ∈ shapeIds) ∧ latency.isSome
      latency := latency
      byShape := byShape
      performanceScore :=
        if scores.length = repeats ∧ ∀ score ∈ scores, score.isSome then
          some ((scores.filterMap id).sum / repeats) else none
      maxAbsErr := maxAbsErr
      maxRelErr := maxRelErr
      correctness := correctnessSummary (selected.filterMap fun row =>
        (dictOf (get row "result")).map .obj) }

/-- `_agent_abba_public_result`: the two sides and the verdict. -/
structure PublicResult where
  correct : Prop
  baseline : SideMetrics
  candidate : SideMetrics
  speedup : Option ℝ

def agentAbbaPublicResult (payload : Dict) (schedule : List Step) (shapeIds : List String)
    (repeats : Nat) : Except Error PublicResult :=
  match rowsOf payload with
  | none => throw (.valueError "ABBA result omitted its measurement rows")
  | some rows =>
      if ¬ Scheduled rows schedule then
        throw (.valueError "ABBA result did not execute the exact requested schedule")
      else do
        let baseline ← abbaSideMetrics compare rows .incumbent repeats shapeIds
        let candidate ← abbaSideMetrics compare rows .candidate repeats shapeIds
        let correct := baseline.correct ∧ candidate.correct ∧ ¬ Truthy (get payload "error") ∧
          ¬ Truthy (get payload "terminal_failure")
        pure
          { correct := correct
            baseline := baseline
            candidate := candidate
            speedup := if correct then do
                let baseUs ← baseline.latency
                let candidateUs ← candidate.latency
                pure (baseUs / candidateUs)
              else none }

end Sides

/-! ### The gate -/

/-- The value `_result_latency` takes the latency of a result from. -/
def latencyValue (result : Dict) : Value :=
  match number (get result "latency_us_geomean"), get result "performance" with
  | some _, _ => get result "latency_us_geomean"
  | none, .obj performance => get performance "latency_us"
  | none, _ => .null

/-- `_result_latency`. -/
def resultLatency (result : Value) : Option ℝ :=
  match result with
  | .obj d =>
      if Truthy (get d "all_pass") then (number (latencyValue d)).bind Number.positive else none
  | _ => none

/-- The latency that counts for the side of a row. -/
def gateLatency (row : Dict) : Option ℝ :=
  match get row "result" with
  | .obj result =>
      match get result "latency_us_geomean" with
      | .bool _ => none
      | _ =>
          if Equals (get row "exit_code") 0 ∧ get result "all_pass" = .bool true then
            resultLatency (.obj result)
          else none
  | _ => none

inductive Gate where
  | pass | fail | error
  deriving DecidableEq, Repr

structure VerificationResult where
  gate : Gate
  candidate : Option ℝ
  incumbent : Option ℝ
  improvementPct : Option ℝ
  error : String

/-- `math.isclose(a, b, rel_tol=1e-12, abs_tol=1e-12)`. -/
def IsClose (a b : ℝ) : Prop := |a - b| ≤ max (1e-12 * max |a| |b|) 1e-12

def sideLatencies (rows : List Dict) (side : Revision) : List ℝ :=
  (rowsOfSide rows side).filterMap gateLatency

def incompleteSchedule : VerificationResult where
  gate := .error
  candidate := none
  incumbent := none
  improvementPct := none
  error := "Incomplete ABBA schedule"

/-- `score_verification_payload`, without the optional scores it reports. -/
def scoreVerificationPayload (payload : Value) (schedule : List Step) (repeats : Nat)
    (minImprovementPct : ℝ) : Except Error VerificationResult :=
  if minImprovementPct < 0 then
    throw (.valueError "Minimum latency improvement must be finite and non-negative")
  else
    match payload with
    | .obj d =>
        match rowsOf d with
        | none => pure incompleteSchedule
        | some rows =>
            if Truthy (get d "error") ∨ ¬ Scheduled rows schedule then pure incompleteSchedule
            else
              let candidates := sideLatencies rows .candidate
              let incumbents := sideLatencies rows .incumbent
              let candidate := geomean (candidates.map .finite)
              let incumbent := geomean (incumbents.map .finite)
              match candidate, incumbent with
              | some c, some i =>
                  if candidates.length ≠ repeats ∨ incumbents.length ≠ repeats then
                    pure ⟨.fail, candidate, incumbent, none,
                      "Not every ABBA run passed with a valid GeoMean latency"⟩
                  else
                    let improvement := (i - c) / i * 100
                    if improvement > minImprovementPct ∧ ¬ IsClose improvement minImprovementPct then
                      pure ⟨.pass, candidate, incumbent, some improvement, ""⟩
                    else
                      pure ⟨.fail, candidate, incumbent, some improvement,
                        "GeoMean latency reduction did not exceed the minimum"⟩
              | _, _ => pure ⟨.fail, candidate, incumbent, none,
                  "Not every ABBA run passed with a valid GeoMean latency"⟩
    | _ => pure incompleteSchedule

end

end AtrexAgent.Evaluation
