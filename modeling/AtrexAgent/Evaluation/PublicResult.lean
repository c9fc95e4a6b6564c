import AtrexAgent.Evaluation.ResultLine
import AtrexAgent.Library.JsonPrefix

/-! `public_result`: a response is compacted until it fits its limit, and what makes an evaluation cacheable is read
from its lines. -/

namespace AtrexAgent.Evaluation

open AtrexAgent.Json

inductive ResultError where
  | attribute
  | missingKey
  | unhashable
  | evidence
  deriving DecidableEq, Repr

def ResultError.message : ResultError → Option String
  | .evidence => some "Non-diagnostic measurement evidence exceeds the response size limit"
  | _ => none

variable {F : Type} [FloatText F]

/-! ### `bound_diagnostic_response` -/

/-- `len(json.dumps(value, ensure_ascii=True, separators=(",", ":")))` -/
def storageSize (value : Json F) : Nat := (Json.asciiText (dumpsWith [] value)).length

omit [FloatText F] in
/-- The response without what is derived from its streams. -/
def sourceOf (response : Json.Dict F) : Json.Dict F := response.filter fun item => item.1 ≠ "agent_result"

/-- `source.get(name, "")` -/
def streamOf {F : Type} (source : Json.Dict F) (name : String) : Json F := (find? source name).getD (.str "")

/-- `"\n".join(lines)` -/
def joinLines : List Text → Text
  | [] => []
  | [line] => line
  | line :: rest => line ++ '\n' :: joinLines rest

/-- One round of the loop, with its limits. -/
def compactSource (textLimit entryLimit limit : Nat) (source : Json.Dict F) : Except ResultError (Json.Dict F) :=
  match streamOf source "stdout" with
  | .str stdout =>
      let state := (splitlines stdout.toList).foldl (compactLine textLimit entryLimit F) ⟨[], 0, 0, 0⟩
      let stderr := compactValue textLimit entryLimit "" (streamOf source "stderr")
      .ok (set (set (set source "stdout" (.str (String.ofList (joinLines state.lines)))) "stderr" stderr.1)
        "diagnostic_truncation" (.obj [("reason", .str truncationReason),
          ("original_response_bytes", .int (storageSize (.obj source))), ("limit_bytes", .int limit),
          ("omitted_text_chars", .int (state.omittedChars + stderr.2.1 : Nat)),
          ("omitted_diagnostic_entries", .int (state.omittedEntries + stderr.2.2 : Nat))]))
  | _ => .error .attribute

/-- The loop, for as many rounds as there is fuel. -/
def boundLoop (limit : Nat) (source : Json.Dict F) : Nat → Nat → Nat → Option (Except ResultError (Json.Dict F))
  | 0, _, _ => none
  | fuel + 1, textLimit, entryLimit =>
      match compactSource textLimit entryLimit limit source with
      | .error failure => some (.error failure)
      | .ok result =>
          if storageSize (.obj result) ≤ limit then some (.ok result)
          else if textLimit = 256 ∧ entryLimit = 1 then some (.error .evidence)
          else boundLoop limit source fuel (max 256 (textLimit / 2)) (max 1 (entryLimit / 2))

/-- `bound_diagnostic_response`, for any limit. -/
def boundWithin (limit fuel : Nat) (response : Json.Dict F) : Option (Except ResultError (Json.Dict F)) :=
  if storageSize (.obj (sourceOf response)) ≤ limit then some (.ok response)
  else boundLoop limit (sourceOf response) fuel (1024 * 1024) 4096

/-! ### `cacheable_evaluation` -/

/-- `value in words`, of a set of words -/
def inWords {F : Type} (value : Json F) (words : List String) : Except ResultError Bool :=
  match value with
  | .arr _ | .obj _ => .error .unhashable
  | .str s => .ok (s ∈ words)
  | _ => .ok false

/-- `value == n` -/
def equalsInt (value : Json F) (n : Int) : Bool :=
  match value with
  | .int m => m = n
  | .bool b => (if b then 1 else 0) = n
  | .float x =>
      let text := literalText (FloatText.literal x)
      text = (intNumeral n).text ++ ".0".toList || (n = 0 && text = "-0.0".toList)
  | _ => false

/-- `bool(value)` -/
def isTruthy (value : Json F) : Bool :=
  match value with
  | .null => false
  | .bool b => b
  | .str s => s ≠ ""
  | .arr items => !items.isEmpty
  | .obj items => !items.isEmpty
  | .int n => n ≠ 0
  | .float _ => !equalsInt value 0

def isText {F : Type} (value : Json F) (text : String) : Bool :=
  match value with
  | .str s => s = text
  | _ => false

def isBool {F : Type} : Json F → Bool
  | .bool _ => true
  | _ => false

def isFalse {F : Type} : Json F → Bool
  | .bool b => !b
  | _ => false

/-- `sample.get("correct", sample.get("all_pass"))` -/
def sampleVerdict {F : Type} (sample : Json.Dict F) : Json F := (find? sample "correct").getD (get sample "all_pass")

/-- `any(item.get("status") in {"cancelled", "canceled"} for item in items)` -/
def anyCancelled {F : Type} : List (Json.Dict F) → Except ResultError Bool
  | [] => .ok false
  | item :: rest => do
      if ← inWords (get item "status") ["cancelled", "canceled"] then pure true else anyCancelled rest

def KNOWN_GATEWAY_ERROR_CLASSES : List String :=
  ["candidate", "code", "compilation", "correctness", "infra", "validation"]

/-- `known_gateway_error` -/
def knownGatewayError {F : Type} (value : Json.Dict F) : Except ResultError Bool :=
  if isText (get value "outcome") "unknown" then .ok true
  else do
    if ← inWords (get value "status") ["cancelled", "canceled"] then pure true
    else
      match get value "error" with
      | .obj error => inWords (get error "error_class") KNOWN_GATEWAY_ERROR_CLASSES
      | _ => pure false

inductive ResultStatus where
  | completed | failed | cancelled
  deriving DecidableEq, Repr

def isInfra {F : Type} (sample : Json.Dict F) : Bool :=
  match get sample "error" with
  | .obj error => isText (get error "error_class") "infra"
  | _ => false

/-- Whether a candidate was rejected: an evaluation is completed then, with exit code 1, too. -/
def isRejected (operation : String) (exitCode : Json F) (scan : Scan F) : Except ResultError Bool :=
  if operation ∈ ["evaluate", "same_allocation_abba"] ∧ isFalse (sampleVerdict (scan.sample.getD [])) then
    match exitCode with
    | .arr _ | .obj _ => .error .unhashable
    | _ => .ok ((equalsInt exitCode 0 || equalsInt exitCode 1) && scan.errors.isEmpty)
  else .ok false

/-- The status in `canonical_result`. -/
def statusOf (operation : String) (exitCode truncated : Json F) (scan : Scan F) : Except ResultError ResultStatus := do
  let sample := scan.sample.getD []
  let cancelled ← anyCancelled (scan.errors ++ [sample])
  let rejected ← isRejected operation exitCode scan
  let failed := !scan.errors.isEmpty || isTruthy truncated || isInfra sample ||
    ((operationPrefix operation).isSome && scan.sample.isNone && scan.errors.isEmpty)
  pure (if cancelled then .cancelled
    else if failed then .failed
    else if equalsInt exitCode 0 || rejected then .completed
    else .failed)

/-- `isinstance(result.get("correct"), bool) and result.get("outcome") not in {"unknown", "unavailable"}` -/
def isDecided {F : Type} (correct outcome : Json F) : Except ResultError Bool :=
  if isBool correct then not <$> inWords outcome ["unknown", "unavailable"] else .ok false

/-- The first error is classified, which may raise. -/
def classifyFirst {F : Type} (errors : List (Json.Dict F)) : Except ResultError Bool :=
  match errors with
  | [] => .ok false
  | first :: _ => knownGatewayError first

/-- `cacheable_evaluation` of lines that were read; the numbers of `canonical_result` are left out. -/
def cacheableScan (operation : String) (exitCode truncated : Json F) (scan : Scan F) : Except ResultError Bool := do
  let status ← statusOf operation exitCode truncated scan
  let _ ← classifyFirst scan.errors
  let sample := scan.sample.getD []
  let correct :=
    if operation ∈ ["evaluate", "same_allocation_abba"] then sampleVerdict sample else get sample "correct"
  if status = .completed then isDecided correct (get sample "outcome") else pure false

/-- `cacheable_evaluation` -/
def cacheableEvaluation (operation : String) (response : Json.Dict F) : Except ResultError Bool :=
  match get response "agent_result" with
  | .obj outcome =>
      match find? outcome "status" with
      | none => .error .missingKey
      | some status =>
          if isText status "completed" then
            match find? outcome "result" with
            | none => .error .missingKey
            | some (.obj result) => isDecided (get result "correct") (get result "outcome")
            | some _ => .error .attribute
          else .ok false
  | _ =>
      match streamOf response "stdout" with
      | .str stdout =>
          cacheableScan operation (get response "exit_code") (get response "truncated")
            (scanLines stdout.toList operation)
      | _ => .error .attribute

/-- The marked lines, each with its marker and what is decoded from it. -/
def markedLines {F : Type} [FloatText F] (stdout : Text) : List (Text × Option (Json F)) :=
  (splitlines stdout).filterMap fun line =>
    (compactPrefixes.find? fun marker => marker.isPrefixOf line).map fun marker =>
      (marker, loads (line.drop marker.length))

end AtrexAgent.Evaluation
