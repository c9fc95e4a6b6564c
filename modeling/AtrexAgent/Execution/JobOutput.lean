import AtrexAgent.Evaluation.Redaction
import AtrexAgent.Execution.GatewayJobs

/-! The device failures that an evaluation reports inside a job that is otherwise done, and what the loop of
`execute_job` reads of a job. -/

namespace AtrexAgent.Gateway

open AtrexAgent.Json
open AtrexAgent.Evaluation (CharTables)

variable {F : Type}

/-! ### Embedded device failures -/

def DEVICE_ERRORS : List String :=
  ["all cuda-capable devices are busy or unavailable", "all hggc-capable devices are busy or unavailable",
    "cudaerrordevicesunavailable", "hggcerrordevicesunavailable", "cuda error: system not yet initialized",
    "cudaerrorsystemnotready", "no cuda gpus are available"]

def string? : Json F → Option String
  | .str text => some text
  | _ => none

def items (value : Json F) : List (Json F) :=
  match value with
  | .arr values => values
  | _ => []

/-- The dicts among some values. -/
def dicts : List (Json F) → List (Dict F)
  | [] => []
  | .obj fields :: rest => fields :: dicts rest
  | _ :: rest => dicts rest

def dict? : Json F → Option (Dict F)
  | .obj fields => some fields
  | _ => none

/-- What stands at some keys of a dict, in the order of the keys. -/
def atKeys {α : Type} (keys : List String) (fields : List (String × List α)) : List α :=
  keys.flatMap fun key => ((fields.find? fun field => field.1 = key).map Prod.snd).getD []

mutual

/-- `_messages` -/
def messages : Json F → List String
  | .str text => [text]
  | .obj fields => atKeys ["message", "reason", "error", "traceback", "details"] (messagesOf fields)
  | _ => []

def messagesOf : Dict F → List (String × List String)
  | [] => []
  | (key, value) :: rest => (key, messages value) :: messagesOf rest

end

mutual

/-- `_results` -/
def results : Json F → List (Dict F)
  | .arr values => resultsAmong values
  | .obj fields =>
      fields :: atKeys ["result", "abba", "sdk_results", "runs", "baseline", "candidate"] (resultsOf fields)
  | _ => []

def resultsAmong : List (Json F) → List (Dict F)
  | [] => []
  | value :: rest => results value ++ resultsAmong rest

def resultsOf : Dict F → List (String × List (Dict F))
  | [] => []
  | (key, value) :: rest => (key, results value) :: resultsOf rest

end

section Diagnosis

variable (tables : CharTables) (lower : Text → Text)

/-- `_device_error` -/
def deviceError (message : String) : Bool :=
  DEVICE_ERRORS.any fun marker => marker.toList <:+: lower message.toList

/-- `mismatch|not close|\b(?:nan|inf|infinity|nonfinite)\b`, with `re.I`. -/
def numericalPattern : Regex :=
  let folded := tables.folded
  Regex.oneOf [folded "mismatch", folded "not close",
    Regex.sequence [tables.boundary, Regex.oneOf [folded "nan", folded "inf", folded "infinity", folded "nonfinite"],
      tables.boundary]]

/-- The messages of the failures of a result, unless one of them is numerical. -/
def failureMessages (result : Dict F) : Option (List String) :=
  let texts := (items (get result "failures")).filterMap string?
  if texts.any fun text => !deviceError lower text && (numericalPattern tables).search none text.toList then none
  else some texts

def diagnosticMessages (result : Dict F) : List String :=
  (items ((find? result "diagnostics").getD (get result "actionable_diagnostics"))).flatMap messages

/-- The failed entries of the verdicts. -/
def verdictMessages (result : Dict F) : List String :=
  match get result "passed" with
  | .obj passed =>
      ["compile", "correctness", "performance"].flatMap fun stage =>
        match get passed stage with
        | .obj verdicts =>
            let entries := if (find? verdicts "status").isSome then [verdicts] else dicts (verdicts.map Prod.snd)
            (entries.filter fun entry => string? (get entry "status") = some "failed").flatMap fun entry =>
              messages (.obj entry)
        | _ => []
  | _ => []

def isFalse : Json F → Bool
  | .bool b => !b
  | _ => false

/-- The messages of some comparisons, unless one fails for a reason that is not the device. -/
def comparisonMessages (comparisons : List (Dict F)) : Option (List String) :=
  if comparisons.any fun comparison => isFalse (get comparison "passed") &&
      !(messages (get comparison "error")).any (deviceError lower) then none
  else some (comparisons.flatMap fun comparison => messages (get comparison "error"))

/-- The texts of parts that are each read, unless one is none. -/
def gather {α : Type} (read : α → Option (List String)) : List α → Option (List String)
  | [] => some []
  | part :: rest => do
      let first ← read part
      let later ← gather read rest
      pure (first ++ later)

def caseMessages (entry : Dict F) : Option (List String) := do
  let later ← gather (fun field => comparisonMessages lower (dicts (items (get entry field))))
    ["outputs", "mutated_inputs", "unexpected_mutations"]
  pure (messages (get entry "error") ++ later)

def shapeMessages (shape : Dict F) : Option (List String) := do
  let later ← gather (caseMessages lower) (dicts (items (get shape "cases")))
  pure (messages (get shape "error") ++ later)

def sectionMessages (result : Dict F) (name : String) : Option (List String) :=
  match (dict? (get result name)).bind fun data => dict? (get data "shapes") with
  | some shapes => gather (shapeMessages lower) (dicts (shapes.map Prod.snd))
  | none => some []

def resultMessages (result : Dict F) : Option (List String) := do
  let failures ← failureMessages tables lower result
  let sections ← gather (sectionMessages lower result) ["correctness", "performance"]
  pure (messages (get result "error") ++ failures ++ diagnosticMessages result ++ verdictMessages result ++ sections)

/-- `embedded_device_failure`; `lower` is `str.lower`. -/
def embeddedDeviceFailure (job : Dict F) : Option String :=
  if string? (get job "status") = some "succeeded" ∨ string? (get job "status") = some "failed" then do
    let texts ← gather (resultMessages tables lower) (results (get job "result"))
    texts.find? (deviceError lower)
  else none

/-! ### Jobs -/

/-- The fields of a job that the loop reads. -/
def readJob (job : Dict F) : Job where
  jobId := string? (get job "job_id")
  status := string? (get job "status")
  error := (dict? (get job "error")).map fun error =>
    ⟨string? (get error "error_class"), string? (get error "reason")⟩
  deviceFailure := (embeddedDeviceFailure tables lower job).isSome

end Diagnosis

end AtrexAgent.Gateway
