import AtrexAgent.Evaluation.ResultLine
import AtrexAgent.Experiment.Header

/-! Which records are standard full evaluations: for the frontier of a campaign, and for the
journal behind a nomination. -/

namespace AtrexAgent.Frontier

open AtrexAgent.Json
open AtrexAgent.Records
open AtrexAgent.Schema (Floats equal isStr isStr_iff truthy)
open AtrexAgent.Sources (Bytes Error asDict asDict_ok decode decode_encode detectsUtf8 encode item item_ok isHex need need_ok)

variable {F : Type} [FloatText F]

/-! ### The store -/

/-- What reading a record takes from outside: files, digests and the numbers of the interpreter.
`float` is missing for an integer that no float is as large as. -/
structure Store (F : Type) where
  record : String → Except Error Bytes
  kernel : String → Except Error Bytes
  sha256 : Bytes → String
  kernelUuid : String → String
  digest : Json F → Except Error String
  verifyMeasurementInputs : Bytes → Json F → String → Except Error Bool
  otherEncoding : Bytes → Option (Json F)
  floats : Floats F
  float : Int → Option F

def MAX_RECORD_BYTES : Nat := 32 * 1024 * 1024

def MAX_SNAPSHOT : Nat := Sources.MAX_SNAPSHOT

/-- `pattern.fullmatch(id)` of a prefix and 32 digits. -/
def isIdentifier (start id : String) : Bool :=
  start.toList.isPrefixOf id.toList && id.toList.length = start.toList.length + 32 &&
    isHex (id.toList.drop start.toList.length)

def readJson (store : Store F) (data : Bytes) : Except Error (Dict F) :=
  if data.length > MAX_RECORD_BYTES then .error (.value "Measurement evidence exceeds its size limit")
  else
    let value := if detectsUtf8 data then
        match decode data with
        | some text => loads text.toList
        | none => store.otherEncoding data
      else store.otherEncoding data
    match value with
    | some (.obj items) => .ok items
    | some _ => .error (.value "Measurement evidence must be an object")
    | none => .error .json

def sourceIdentity (store : Store F) (source : Bytes) : Dict F :=
  let checksum := "sha256:" ++ store.sha256 source
  [("kernel_id", .str ("kernel-" ++ store.kernelUuid ("urn:atrex:kernel-source:" ++ checksum))),
    ("kernel_artifact_digest", .str checksum)]

def readKernel (store : Store F) (kernelId : Json F) : Except Error Bytes :=
  match kernelId with
  | .str id => do
      need (isIdentifier "kernel-" id) "Use a kernel- ID returned by a Gateway measurement"
      let source ← store.kernel id
      need (source.length ≤ MAX_SNAPSHOT && isStr id (get (sourceIdentity store source) "kernel_id"))
        "Kernel artifact identity or size is invalid"
      pure source
  | _ => .error .type

def checkKernels (store : Store F) (request : Json F) : Dict F → Except Error Unit
  | [] => .ok ()
  | (side, identity) :: rest => do
      let items ← asDict identity
      let kernelId ← item items "kernel_id"
      let source ← readKernel store kernelId
      need (equal store.floats (.obj (sourceIdentity store source)) identity)
        "Gateway record omits or changes candidate source evidence"
      let verified ← store.verifyMeasurementInputs source request side
      need verified "Gateway record omits or changes candidate source evidence"
      checkKernels store request rest

/-- `MeasurementStore.read` -/
def read (store : Store F) (recordId : String) : Except Error (Dict F) := do
  need (isIdentifier "gateway-" recordId) "Use a gateway- ID returned by a Gateway measurement"
  let data ← store.record recordId
  let record ← readJson store data
  need (isStr recordId (get record "gateway_record_id") &&
    equal store.floats (get record "schema_version") (.int 1)) "Gateway record identity or version is invalid"
  let request ← item record "request"
  let requested ← store.digest request
  need (isStr requested (get record "task_digest")) "Gateway record request identity is inconsistent"
  let response ← item record "response"
  let answered ← store.digest response
  need (isStr answered (get record "result_digest")) "Gateway record result integrity check failed"
  let kernels ← item record "kernels" >>= asDict
  checkKernels store request kernels
  pure record

/-! ### What both modules read -/

section Readings

variable (store : Store F)

/-- `d.get(key, default)` -/
def getOr (d : Dict F) (key : String) (default : Json F) : Json F := (find? d key).getD default

/-- `options.get("evaluation_mode") or "full"` -/
def evaluationMode (options : Dict F) : Json F :=
  if truthy store.floats (get options "evaluation_mode") then get options "evaluation_mode" else .str "full"

/-- The values that a loop over a value goes through. -/
def iterate : Json F → Except Error (List (Json F))
  | .arr items => .ok items
  | .str text => .ok (text.toList.map fun c => .str c.toString)
  | .obj items => .ok (items.map fun item => .str item.1)
  | _ => .error .type

/-- `any(arg == "--shape-id" or arg.startswith("--shape-id=") for arg in command)` -/
def hasShapeId : List (Json F) → Except Error Bool
  | [] => .ok false
  | .str arg :: rest =>
      if arg = "--shape-id" ∨ "--shape-id=".toList.isPrefixOf arg.toList then .ok true else hasShapeId rest
  | _ :: _ => .error .type

/-- `result_from_response(response, operation)` -/
def resultOf (response : Dict F) (operation : Json F) : Except Error (Option (Dict F)) := do
  match operation with
  | .arr _ => .error .type
  | .obj _ => .error .type
  | operation =>
      let stdout ← item response "stdout"
      match stdout, operation with
      | .str text, .str operation =>
          match Evaluation.resultFromResponse text.toList operation with
          | .ok result => .ok result
          | .error _ => .error .json
      | .str _, _ => .ok none
      | _, _ => .error .type

end Readings

/-- `value is True` -/
def isTrue : Json F → Bool
  | .bool b => b
  | _ => false

/-! ### The frontier -/

/-- The latencies that can be compared: of an integer too large to be one an error is raised. -/
def usableLatencies (store : Store F) : Dict F → Except Error (List (String × F))
  | [] => .ok []
  | (shape, .int n) :: rest =>
      match store.float n with
      | none => .error .type
      | some x => do
          let later ← usableLatencies store rest
          pure (if 0 < n then (shape, x) :: later else later)
  | (shape, .float x) :: rest => do
      let later ← usableLatencies store rest
      pure (if store.floats.finite x && !store.floats.leInt x 0 then (shape, x) :: later else later)
  | _ :: rest => usableLatencies store rest

/-- The options of a request that a frontier point may have. -/
def frontierOptions (store : Store F) (options : Dict F) : Except Error Bool := do
  let command := getOr options "command" (.arr [])
  if !isStr "full" (evaluationMode store options) then pure false
  else do
    let policy ← asDict (getOr options "evaluation_policy" (.obj []))
    if !isStr "full" (getOr policy "mode" (.str "full")) then pure false
    else if truthy store.floats (get options "evaluation_input_path") then pure false
    else if truthy store.floats (get options "evaluation_shapes_path") then pure false
    else if truthy store.floats (get options "baseline_path") then pure false
    else match command with
    | .arr items =>
        match items with
        | .str "python3" :: .str "test_kernel.py" :: _ => do
            let shaped ← hasShapeId items
            pure !shaped
        | _ => pure false
    | .str _ => pure false
    | _ => .error .type

/-- The latencies and the kernel of a record on the frontier, if it is there: one turn of
`kernel_pareto_frontier`, in which an error skips the record. -/
def frontierPoint (store : Store F) (recordId : String) : Except Error (Option (List (String × F) × Json F)) := do
  let data ← store.record recordId
  let header ← (readRecordHeader data : Except Error (Dict F))
  let listed ← item header "operation"
  if !isStr "evaluate" listed then pure none
  else do
    let record ← read store recordId
    let operation ← item record "operation"
    if !isStr "evaluate" operation then pure none
    else do
      let request ← item record "request" >>= asDict
      let requested ← item request "operation"
      if !isStr "evaluate" requested || !isTrue (get record "cacheable") then pure none
      else do
        let options ← item request "options" >>= asDict
        let ordinary ← frontierOptions store options
        if !ordinary then pure none
        else do
          let response ← item record "response" >>= asDict
          if !equal store.floats (get response "exit_code") (.int 0) ||
              truthy store.floats (get response "truncated") then pure none
          else do
            let result ← resultOf response (.str "evaluate")
            match result with
            | none => pure none
            | some result =>
                if result.isEmpty || !isTrue (get result "all_pass") || truthy store.floats (get result "error") ||
                    !isStr "full" (getOr result "mode" (.str "full")) then pure none
                else match get result "latency_us_by_shape" with
                | .obj values => do
                    let latencies ← usableLatencies store values
                    if latencies.isEmpty then pure none
                    else do
                      let kernels ← item record "kernels" >>= asDict
                      let candidate ← item kernels "candidate" >>= asDict
                      let kernelId ← item candidate "kernel_id"
                      pure (some (latencies, kernelId))
                | _ => pure none

/-- The record is a point of the frontier. -/
def Eligible (store : Store F) (recordId : String) : Prop :=
  ∃ point, frontierPoint store recordId = .ok (some point)

/-! ### The journal -/

/-- What the journal reads of a record. The identity is that of the candidate, which `read` has
compared with its source: a kernel id and a digest. -/
structure Evidence (F : Type) where
  gatewayKind : Json F
  identity : Dict F
  result : Dict F
  completed : Bool
  exitCode : Json F
  standardFullEvaluation : Bool

/-- `standard_full_evaluation` -/
def standardFullEvaluation (store : Store F) (operation options : Json F) : Except Error Bool :=
  if isStr "evaluate" operation then do
    let options ← asDict options
    if !isStr "full" (evaluationMode store options) || truthy store.floats (get options "evaluation_input_path") ||
        truthy store.floats (get options "evaluation_shapes_path") then pure false
    else do
      let command ← iterate (getOr options "command" (.arr []))
      let shaped ← hasShapeId command
      pure !shaped
  else pure false

/-- `_read_private_gateway_evidence` -/
def gatewayEvidence (store : Store F) (recordId : String) : Except Error (Evidence F) := do
  let record ← read store recordId
  let kernels ← item record "kernels" >>= asDict
  let identity ← asDict (getOr kernels "candidate" (.obj []))
  let response ← item record "response" >>= asDict
  let operation ← item record "operation"
  let result ← resultOf response operation
  let request ← item record "request" >>= asDict
  let options ← item request "options"
  let standard ← standardFullEvaluation store operation options
  let exitCode ← item response "exit_code"
  pure {
    gatewayKind := if isStr "evaluate" operation then .str "run" else operation
    identity := identity
    result := result.getD []
    completed := truthy store.floats (get record "cacheable")
    exitCode := exitCode
    standardFullEvaluation := standard }

/-- `_passing_evaluate` -/
def passingEvaluate (store : Store F) (evidence : Evidence F) (kernelDigest : String) : Bool :=
  isStr "run" evidence.gatewayKind && isStr kernelDigest (get evidence.identity "kernel_artifact_digest") &&
    isTrue (get evidence.result "all_pass") && !truthy store.floats (get evidence.result "error") &&
    evidence.completed && equal store.floats evidence.exitCode (.int 0) && evidence.standardFullEvaluation &&
    !isStr "correctness_only" (get evidence.result "mode") &&
    truthy store.floats (get evidence.result "latency_us_by_shape")

/-- The journal accepts the record behind the nomination of a kernel. -/
def Accepted (store : Store F) (recordId : String) : Prop :=
  ∃ evidence kernelDigest, gatewayEvidence store recordId = .ok evidence ∧
    passingEvaluate store evidence kernelDigest = true

/-! ### What each asks of a record -/

/-- A stored record, with the parts that both modules look at. -/
structure Parts (store : Store F) (recordId : String) (record request options response result : Dict F) : Prop where
  stored : read store recordId = .ok record
  requested : find? record "request" = some (.obj request)
  chosen : find? request "options" = some (.obj options)
  responded : find? record "response" = some (.obj response)
  operation : find? record "operation" = some (.str "evaluate")
  parsed : resultOf response (.str "evaluate") = .ok (some result)
  candidate : ∃ kernels identity, find? record "kernels" = some (.obj kernels) ∧
    find? kernels "candidate" = some identity

/-- What both ask of the parts. -/
structure Standard (store : Store F) (record options response result : Dict F) : Prop where
  mode : evaluationMode store options = .str "full"
  input : truthy store.floats (get options "evaluation_input_path") = false
  shapes : truthy store.floats (get options "evaluation_shapes_path") = false
  whole : ∃ command, iterate (getOr options "command" (.arr [])) = .ok command ∧ hasShapeId command = .ok false
  completed : truthy store.floats (get record "cacheable") = true
  answered : (find? response "exit_code").isSome
  exit : equal store.floats (get response "exit_code") (.int 0) = true
  passes : get result "all_pass" = .bool true
  noError : truthy store.floats (get result "error") = false
  performance : get result "mode" ≠ .str "correctness_only"
  latencies : truthy store.floats (get result "latency_us_by_shape") = true

/-- A number that is a finite positive float. -/
def Usable (store : Store F) : Json F → Prop
  | .int n => 0 < n
  | .float x => store.floats.finite x = true ∧ store.floats.leInt x 0 = false
  | _ => False

/-- What only the frontier asks: a header, the exact command and policy, and latencies by shape, of
which one is usable and none too large to be a float. -/
structure Ordinary (store : Store F) (recordId : String) (record request options response result : Dict F) :
    Prop where
  header : ∃ data header, store.record recordId = .ok data ∧ (readRecordHeader data : Except Error (Dict F)) = .ok header ∧
    find? header "operation" = some (.str "evaluate")
  operation : find? request "operation" = some (.str "evaluate")
  cacheable : get record "cacheable" = .bool true
  policy : ∃ policy, getOr options "evaluation_policy" (.obj []) = .obj policy ∧
    getOr policy "mode" (.str "full") = .str "full"
  baseline : truthy store.floats (get options "baseline_path") = false
  command : ∃ rest, getOr options "command" (.arr []) = .arr (.str "python3" :: .str "test_kernel.py" :: rest)
  whole : truthy store.floats (get response "truncated") = false
  mode : getOr result "mode" (.str "full") = .str "full"
  latencies : ∃ values, get result "latency_us_by_shape" = .obj values ∧
    (∀ item ∈ values, ∀ n, item.2 = .int n → store.float n ≠ none) ∧ ∃ item ∈ values, Usable store item.2

/-! ### A stored record -/

section Stored

omit [FloatText F]

theorem isTrue_iff (value : Json F) : isTrue value = true ↔ value = .bool true := by
  cases value <;> simp [isTrue]

theorem checkKernels_member {store : Store F} {request : Json F} {kernels : Dict F}
    (passes : checkKernels store request kernels = .ok ()) {side : String} {identity : Json F}
    (member : (side, identity) ∈ kernels) :
    ∃ source, equal store.floats (.obj (sourceIdentity store source)) identity = true := by
  induction kernels with
  | nil => simp at member
  | cons first rest ih =>
      simp only [checkKernels, bind_ok_iff, need_ok] at passes
      obtain ⟨items, -, kernelId, -, source, -, -, same, verified, -, -, -, later⟩ := passes
      rcases List.mem_cons.mp member with here | there
      · cases here
        exact ⟨source, same⟩
      · exact ih later there

end Stored

theorem read_checks {store : Store F} {recordId : String} {record : Dict F} (stored : read store recordId = .ok record) :
    ∃ request kernels, find? record "kernels" = some (.obj kernels) ∧ checkKernels store request kernels = .ok () := by
  simp only [read, bind_ok_iff, item_ok, asDict_ok, need_ok] at stored
  obtain ⟨_, -, data, -, loaded, -, _, -, request, -, _, -, _, -, response, -, _, -, _, -, kernels, listed, _, checked,
    same⟩ := stored
  cases same
  obtain ⟨_, listed, rfl⟩ := listed
  exact ⟨request, kernels, listed, checked⟩

/-- A candidate of a stored record has the two fields of its identity. -/
theorem candidate_of_read {store : Store F} {recordId : String} {record kernels : Dict F} {identity : Json F}
    (stored : read store recordId = .ok record) (listed : find? record "kernels" = some (.obj kernels))
    (candidate : find? kernels "candidate" = some identity) :
    ∃ items kernelId digest, identity = .obj items ∧ find? items "kernel_id" = some kernelId ∧
      find? items "kernel_artifact_digest" = some (.str digest) := by
  obtain ⟨request, sides, found, checked⟩ := read_checks stored
  rw [listed] at found
  cases found
  obtain ⟨source, same⟩ := checkKernels_member checked (Schema.mem_of_find? candidate)
  cases identity with
  | obj items =>
      simp only [equal, Bool.and_eq_true, Schema.equalMembers_iff] at same
      obtain ⟨kernelId, first, -⟩ := same.2 _ List.mem_cons_self
      obtain ⟨other, second, text⟩ := same.2 _ (List.mem_cons_of_mem _ List.mem_cons_self)
      refine ⟨items, kernelId, "sha256:" ++ store.sha256 source, rfl, first, ?_⟩
      rw [second]
      cases other <;> simp [equal, Schema.sameNumber, Schema.unbool] at text
      rw [text]
  | _ => simp [equal, Schema.sameNumber, Schema.unbool] at same

/-! ### What the journal accepts -/

section Standards

omit [FloatText F]

variable {store : Store F}

theorem standardFullEvaluation_iff (operation options : Json F) :
    standardFullEvaluation store operation options = .ok true ↔ operation = .str "evaluate" ∧
      ∃ items, options = .obj items ∧ evaluationMode store items = .str "full" ∧
        truthy store.floats (get items "evaluation_input_path") = false ∧
        truthy store.floats (get items "evaluation_shapes_path") = false ∧
        ∃ command, iterate (getOr items "command" (.arr [])) = .ok command ∧ hasShapeId command = .ok false := by
  unfold standardFullEvaluation
  by_cases evaluates : operation = .str "evaluate"
  · rw [if_pos ((isStr_iff _ _).mpr evaluates), bind_ok_iff]
    simp only [evaluates, true_and, asDict_ok]
    apply exists_congr
    intro items
    apply and_congr_right
    intro _
    split
    · rename_i other
      simp only [Bool.or_eq_true, Bool.not_eq_true', ← Bool.not_eq_true, isStr_iff] at other
      simp [pure, Except.pure]
      grind
    · rename_i ordinary
      simp only [Bool.or_eq_true, Bool.not_eq_true', ← Bool.not_eq_true, isStr_iff, not_or, not_not] at ordinary
      simp only [bind_ok_iff, ordinary, true_and]
      simp [pure, Except.pure]
  · rw [if_neg fun is => evaluates ((isStr_iff _ _).mp is)]
    simp [evaluates, pure, Except.pure]

end Standards

theorem parts_of_evidence {store : Store F} {recordId : String} {evidence : Evidence F}
    (evidenced : gatewayEvidence store recordId = .ok evidence) {kernelDigest : String}
    (passes : passingEvaluate store evidence kernelDigest = true) :
    ∃ record request options response result, Parts store recordId record request options response result ∧
      Standard store record options response result := by
  simp only [gatewayEvidence, bind_ok_iff, item_ok, asDict_ok] at evidenced
  obtain ⟨record, stored, kernels, ⟨_, listed, rfl⟩, identity, candidate, response, ⟨_, responded, rfl⟩, operation,
    named, result, parsed, request, ⟨_, requested, rfl⟩, options, chosen, standard, checked, exitCode, exited,
    same⟩ := evidenced
  cases same
  simp only [passingEvaluate, Bool.and_eq_true, Bool.not_eq_true', isStr_iff, isTrue_iff] at passes
  obtain ⟨⟨⟨⟨⟨⟨⟨⟨-, identified⟩, passed⟩, noError⟩, completed⟩, exit⟩, standard⟩, performance⟩, latencies⟩ := passes
  subst standard
  obtain ⟨evaluates, options, isObject, mode, input, shapes, whole⟩ := (standardFullEvaluation_iff _ _).mp checked
  subst evaluates isObject
  have answered : result = some (result.getD []) := by
    cases result with
    | none => simp [Json.get] at passed
    | some result => rfl
  rw [answered] at parsed
  refine ⟨record, request, options, response, result.getD [],
    ⟨stored, requested, chosen, responded, named, parsed, kernels, ?_⟩,
    ⟨mode, input, shapes, whole, completed, ?_, ?_, passed, noError, ?_, latencies⟩⟩
  · cases found : find? kernels "candidate" with
    | some identity => exact ⟨identity, listed, rfl⟩
    | none =>
        rw [getOr, found] at candidate
        cases candidate
        simp [Json.get] at identified
  · rw [exited]
    rfl
  · rw [Json.get, exited]
    exact exit
  · intro correctness
    simp [correctness, isStr] at performance

theorem evidence_of_parts {store : Store F} {recordId : String} {record request options response result : Dict F}
    (parts : Parts store recordId record request options response result)
    (standard : Standard store record options response result) : Accepted store recordId := by
  obtain ⟨kernels, identity, listed, candidate⟩ := parts.candidate
  obtain ⟨items, kernelId, digest, rfl, -, digested⟩ := candidate_of_read parts.stored listed candidate
  obtain ⟨exitCode, exited⟩ := Option.isSome_iff_exists.mp standard.answered
  have checked : standardFullEvaluation store (.str "evaluate") (.obj options) = .ok true :=
    (standardFullEvaluation_iff _ _).mpr
      ⟨rfl, options, rfl, standard.mode, standard.input, standard.shapes, standard.whole⟩
  have exit := standard.exit
  rw [Json.get, exited, Option.getD_some] at exit
  refine ⟨⟨.str "run", items, result, true, exitCode, true⟩, digest, ?_, ?_⟩
  · simp only [gatewayEvidence, bind_ok_iff, item_ok, asDict_ok]
    refine ⟨record, parts.stored, kernels, ⟨_, listed, rfl⟩, items, ?_, response, ⟨_, parts.responded, rfl⟩, _,
      parts.operation, _, parts.parsed, request, ⟨_, parts.requested, rfl⟩, _, parts.chosen, true, checked, exitCode,
      exited, ?_⟩
    · rw [getOr, candidate]
      rfl
    · simp [pure, Except.pure, isStr, standard.completed]
  · have performance : isStr "correctness_only" (get result "mode") = false := by
      rw [Bool.eq_false_iff, Ne, isStr_iff]
      exact standard.performance
    have identified : get items "kernel_artifact_digest" = .str digest := by
      rw [Json.get, digested]
      rfl
    simp only [passingEvaluate, identified, standard.passes, standard.noError, exit, performance, standard.latencies]
    simp [isStr, isTrue]

/-! ### What the frontier takes -/

section Points

omit [FloatText F]

variable {store : Store F}

/-- A test that does not end the turn. -/
theorem unless_iff {α : Type} {a b : α} (other : a ≠ b) (ends : Prop) [Decidable ends] (next : Except Error α) :
    (if ends then pure a else next) = .ok b ↔ ¬ ends ∧ next = .ok b := by
  split
  · rename_i stops
    simp [stops, pure, Except.pure, other]
  · rename_i goes
    simp [goes]

theorem usableLatencies_total (values : Dict F) : (∃ latencies, usableLatencies store values = .ok latencies) ↔
    ∀ item ∈ values, ∀ n, item.2 = .int n → store.float n ≠ none := by
  induction values with
  | nil => simp [usableLatencies]
  | cons item rest ih =>
      obtain ⟨shape, value⟩ := item
      rw [List.forall_mem_cons, ← ih]
      cases value with
      | int n =>
          cases large : store.float n with
          | none => simp [usableLatencies, large]
          | some x => simp [usableLatencies, large, bind_ok_iff, pure, Except.pure]
      | float x => simp [usableLatencies, bind_ok_iff, pure, Except.pure]
      | _ => simp [usableLatencies]

theorem usableLatencies_some {values : Dict F} {latencies : List (String × F)}
    (read : usableLatencies store values = .ok latencies) :
    latencies ≠ [] ↔ ∃ item ∈ values, Usable store item.2 := by
  induction values generalizing latencies with
  | nil =>
      cases read
      simp
  | cons item rest ih =>
      obtain ⟨shape, value⟩ := item
      simp only [List.mem_cons, exists_eq_or_imp]
      cases value with
      | int n =>
          cases large : store.float n with
          | none => simp [usableLatencies, large] at read
          | some x =>
              simp only [usableLatencies, large, bind_ok_iff] at read
              obtain ⟨later, read, same⟩ := read
              cases same
              by_cases positive : 0 < n
              · simp [positive, Usable]
              · simpa [positive, Usable] using ih read
      | float x =>
          simp only [usableLatencies, bind_ok_iff] at read
          obtain ⟨later, read, same⟩ := read
          cases same
          by_cases positive : store.floats.finite x = true ∧ store.floats.leInt x 0 = false
          · simp [positive, Usable]
          · have skipped : (store.floats.finite x && !store.floats.leInt x 0) = false := by
              rw [Bool.eq_false_iff]
              intro kept
              rw [Bool.and_eq_true, Bool.not_eq_true'] at kept
              exact positive kept
            rw [if_neg (by rw [skipped]; exact Bool.false_ne_true)]
            simpa only [Usable, positive, false_or] using ih read
      | _ => simpa [Usable, usableLatencies] using ih read

theorem frontierOptions_iff (options : Dict F) : frontierOptions store options = .ok true ↔
    evaluationMode store options = .str "full" ∧
      (∃ policy, getOr options "evaluation_policy" (.obj []) = .obj policy ∧
        getOr policy "mode" (.str "full") = .str "full") ∧
      truthy store.floats (get options "evaluation_input_path") = false ∧
      truthy store.floats (get options "evaluation_shapes_path") = false ∧
      truthy store.floats (get options "baseline_path") = false ∧
      ∃ rest, getOr options "command" (.arr []) = .arr (.str "python3" :: .str "test_kernel.py" :: rest) ∧
        hasShapeId (.str "python3" :: .str "test_kernel.py" :: rest) = .ok false := by
  unfold frontierOptions
  simp only [unless_iff Bool.false_ne_true, bind_ok_iff, asDict_ok, Bool.not_eq_true', Bool.not_eq_false, isStr_iff,
    Bool.not_eq_true]
  apply and_congr_right
  intro _
  constructor
  · intro chosen
    obtain ⟨policy, given, full, input, shapes, baseline, chosen⟩ := chosen
    refine ⟨⟨policy, given, full⟩, input, shapes, baseline, ?_⟩
    split at chosen
    · rename_i items command
      split at chosen
      · rename_i rest
        obtain ⟨shaped, scanned, same⟩ := (bind_ok_iff _ _ _).mp chosen
        cases shaped with
        | false => exact ⟨rest, command, scanned⟩
        | true => cases same
      · cases chosen
    · cases chosen
    · cases chosen
  · intro chosen
    obtain ⟨⟨policy, given, full⟩, input, shapes, baseline, rest, command, whole⟩ := chosen
    refine ⟨policy, given, full, input, shapes, baseline, ?_⟩
    rw [command]
    exact (bind_ok_iff _ _ _).mpr ⟨false, whole, rfl⟩

/-- A dict that holds what is read from it. -/
theorem get_of_find? {items : Dict F} {key : String} {value : Json F} (found : find? items key = some value) :
    get items key = value := by
  rw [Json.get, found]
  rfl

/-- A value that a dict holds, where its default is another. -/
theorem find?_of_get {items : Dict F} {key : String} {value : Json F} (held : get items key = value)
    (given : value ≠ .null) : find? items key = some value := by
  cases found : find? items key with
  | none =>
      rw [Json.get, found] at held
      exact absurd held.symm given
  | some other =>
      rw [get_of_find? found] at held
      rw [held]

end Points

/-- What the frontier reads off the parts of a record. -/
theorem point_parts {store : Store F} {recordId : String} {point : List (String × F) × Json F}
    (taken : frontierPoint store recordId = .ok (some point)) :
    ∃ record request options response result values latencies,
      Parts store recordId record request options response result ∧
      (∃ data header, store.record recordId = .ok data ∧
        (readRecordHeader data : Except Error (Dict F)) = .ok header ∧
        find? header "operation" = some (.str "evaluate")) ∧
      find? request "operation" = some (.str "evaluate") ∧ get record "cacheable" = .bool true ∧
      frontierOptions store options = .ok true ∧ equal store.floats (get response "exit_code") (.int 0) = true ∧
      truthy store.floats (get response "truncated") = false ∧ get result "all_pass" = .bool true ∧
      truthy store.floats (get result "error") = false ∧ getOr result "mode" (.str "full") = .str "full" ∧
      get result "latency_us_by_shape" = .obj values ∧ usableLatencies store values = .ok latencies ∧
      latencies ≠ [] := by
  simp only [frontierPoint, unless_iff (Option.some_ne_none point).symm, bind_ok_iff, asDict_ok, item_ok,
    Bool.not_eq_true', Bool.not_eq_false, isStr_iff, Bool.not_eq_true, Bool.or_eq_true, not_or, isTrue_iff] at taken
  obtain ⟨data, recorded, header, headed, _, listed, rfl, record, stored, _, operation, rfl, request,
    ⟨_, requested, rfl⟩, _, asked, ⟨rfl, cacheable⟩, options, ⟨_, chosen, rfl⟩, _, ordinary, rfl, response,
    ⟨_, responded, rfl⟩, ⟨exit, whole⟩, result, parsed, taken⟩ := taken
  cases result with
  | none => cases taken
  | some result =>
      simp only [unless_iff (Option.some_ne_none point).symm, not_or, Bool.not_eq_true, Bool.not_eq_false,
        isTrue_iff, isStr_iff] at taken
      obtain ⟨⟨⟨⟨-, passes⟩, noError⟩, mode⟩, taken⟩ := taken
      split at taken
      · rename_i values latencies
        simp only [bind_ok_iff, unless_iff (Option.some_ne_none point).symm, asDict_ok, item_ok] at taken
        obtain ⟨found, usable, some, kernels, ⟨_, kept, rfl⟩, candidate, ⟨_, named, rfl⟩, -⟩ := taken
        exact ⟨record, request, options, response, result, values, found,
          ⟨stored, requested, chosen, responded, operation, parsed, kernels, _, kept, named⟩,
          ⟨data, header, recorded, headed, listed⟩, asked, cacheable, ordinary, exit, whole, passes, noError, mode,
          latencies, usable, fun empty => some (List.isEmpty_iff.mpr empty)⟩
      · cases taken

theorem parts_of_point {store : Store F} {recordId : String} {point : List (String × F) × Json F}
    (taken : frontierPoint store recordId = .ok (some point)) :
    ∃ record request options response result, Parts store recordId record request options response result ∧
      Standard store record options response result ∧
      Ordinary store recordId record request options response result := by
  obtain ⟨record, request, options, response, result, values, latencies, parts, header, asked, cacheable, ordinary,
    exit, whole, passes, noError, mode, measured, usable, some⟩ := point_parts taken
  obtain ⟨full, policy, input, shapes, baseline, rest, command, scanned⟩ := (frontierOptions_iff options).mp ordinary
  refine ⟨record, request, options, response, result, parts, ?_, ?_⟩
  · refine ⟨full, input, shapes, ⟨_, ?_, scanned⟩, ?_, ?_, exit, passes, noError, ?_, ?_⟩
    · rw [command]
      rfl
    · rw [cacheable]
      rfl
    · cases found : find? response "exit_code" with
      | some exitCode => rfl
      | none =>
          rw [Json.get, found] at exit
          simp [equal, Schema.sameNumber, Schema.unbool] at exit
    · intro correctness
      rw [getOr, find?_of_get correctness (by simp)] at mode
      simp at mode
    · rw [measured]
      cases values with
      | nil =>
          cases usable
          exact absurd rfl some
      | cons item rest => rfl
  · exact ⟨header, asked, cacheable, policy, baseline, ⟨rest, command⟩, whole, mode, values, measured,
      (usableLatencies_total values).mp ⟨latencies, usable⟩, (usableLatencies_some usable).mp some⟩

theorem point_of_parts {store : Store F} {recordId : String} {record request options response result : Dict F}
    (parts : Parts store recordId record request options response result)
    (standard : Standard store record options response result)
    (ordinary : Ordinary store recordId record request options response result) : Eligible store recordId := by
  obtain ⟨kernels, identity, listed, candidate⟩ := parts.candidate
  obtain ⟨items, kernelId, digest, rfl, named, -⟩ := candidate_of_read parts.stored listed candidate
  obtain ⟨data, header, recorded, headed, operation⟩ := ordinary.header
  obtain ⟨values, measured, small, some⟩ := ordinary.latencies
  obtain ⟨latencies, usable⟩ := (usableLatencies_total values).mpr small
  obtain ⟨rest, command⟩ := ordinary.command
  obtain ⟨words, same, scanned⟩ := standard.whole
  rw [command] at same
  cases same
  have chosen : frontierOptions store options = .ok true := (frontierOptions_iff options).mpr
    ⟨standard.mode, ordinary.policy, standard.input, standard.shapes, ordinary.baseline, rest, command, scanned⟩
  refine ⟨(latencies, kernelId), ?_⟩
  simp only [frontierPoint, unless_iff (Option.some_ne_none (latencies, kernelId)).symm, bind_ok_iff, asDict_ok, item_ok,
    Bool.not_eq_true', Bool.not_eq_false, isStr_iff, Bool.not_eq_true, Bool.or_eq_true, not_or, isTrue_iff]
  refine ⟨data, recorded, header, headed, _, operation, rfl, record, parts.stored, _, parts.operation, rfl, request,
    ⟨_, parts.requested, rfl⟩, _, ordinary.operation, ⟨rfl, ordinary.cacheable⟩, options, ⟨_, parts.chosen, rfl⟩, _,
    chosen, rfl, response, ⟨_, parts.responded, rfl⟩, ⟨standard.exit, ordinary.whole⟩, _, parts.parsed, ?_⟩
  have nonempty : result.isEmpty = false := by
    cases result with
    | nil => simp [Json.get] at measured
    | cons item rest => rfl
  simp only [unless_iff (Option.some_ne_none (latencies, kernelId)).symm, not_or, Bool.not_eq_true, Bool.not_eq_false,
    isTrue_iff, isStr_iff, measured, bind_ok_iff, asDict_ok, item_ok]
  refine ⟨⟨⟨⟨nonempty, standard.passes⟩, standard.noError⟩, ordinary.mode⟩, latencies, usable, ?_, kernels,
    ⟨_, listed, rfl⟩, items, ⟨_, candidate, rfl⟩, kernelId, named, rfl⟩
  rw [List.isEmpty_eq_false_iff]
  exact (usableLatencies_some usable).mpr some

/-- A record has its parts once. -/
theorem Parts.same {store : Store F} {recordId : String}
    {record request options response result record' request' options' response' result' : Dict F}
    (parts : Parts store recordId record request options response result)
    (others : Parts store recordId record' request' options' response' result') :
    record = record' ∧ request = request' ∧ options = options' ∧ response = response' ∧ result = result' := by
  have records := parts.stored.symm.trans others.stored
  cases records
  have requests := parts.requested.symm.trans others.requested
  cases requests
  have chosen := parts.chosen.symm.trans others.chosen
  cases chosen
  have responses := parts.responded.symm.trans others.responded
  cases responses
  have results := parts.parsed.symm.trans others.parsed
  cases results
  exact ⟨rfl, rfl, rfl, rfl, rfl⟩

/-- The frontier and the journal take the same records of a store exactly where what the journal accepts
is also what only the frontier asks for. -/
theorem eligible_as_accepted_iff (store : Store F) (recordId : String) :
    (Eligible store recordId ↔ Accepted store recordId) ↔
      ∀ record request options response result, Parts store recordId record request options response result →
        Standard store record options response result →
        Ordinary store recordId record request options response result := by
  constructor
  · intro same record request options response result parts standard
    obtain ⟨point, taken⟩ := same.mpr (evidence_of_parts parts standard)
    obtain ⟨record', request', options', response', result', others, -, ordinary⟩ := parts_of_point taken
    obtain ⟨rfl, rfl, rfl, rfl, rfl⟩ := parts.same others
    exact ordinary
  · intro ordinary
    constructor
    · intro eligible
      obtain ⟨point, taken⟩ := eligible
      obtain ⟨record, request, options, response, result, parts, standard, -⟩ := parts_of_point taken
      exact evidence_of_parts parts standard
    · intro accepted
      obtain ⟨evidence, kernelDigest, evidenced, passes⟩ := accepted
      obtain ⟨record, request, options, response, result, parts, standard⟩ := parts_of_evidence evidenced passes
      exact point_of_parts parts standard (ordinary record request options response result parts standard)

theorem read_of {store : Store F} {recordId : String} {data : Bytes} {record kernels : Dict F} {request response : Json F}
    {requested answered : String} (identified : isIdentifier "gateway-" recordId = true)
    (recorded : store.record recordId = .ok data) (loaded : readJson store data = .ok record)
    (known : (isStr recordId (get record "gateway_record_id") &&
      equal store.floats (get record "schema_version") (.int 1)) = true)
    (asked : find? record "request" = some request) (digested : store.digest request = .ok requested)
    (task : isStr requested (get record "task_digest") = true) (responded : find? record "response" = some response)
    (summed : store.digest response = .ok answered) (result : isStr answered (get record "result_digest") = true)
    (listed : find? record "kernels" = some (.obj kernels)) (checked : checkKernels store request kernels = .ok ()) :
    read store recordId = .ok record := by
  simp only [read, bind_ok_iff, item_ok, asDict_ok, need_ok]
  exact ⟨(), identified, data, recorded, record, loaded, (), known, request, asked, requested, digested, (), task,
    response, responded, answered, summed, (), result, kernels, ⟨_, listed, rfl⟩, (), checked, rfl⟩

/-- A record is read back from the file that it is written to. -/
theorem readJson_written (store : Store F) (record : Record F) (distinct : Distinct (.obj record.items))
    (short : (durableJson (.obj record.items)).length ≤ MAX_RECORD_BYTES) :
    readJson store record.bytes = .ok (("cacheable", .bool record.cacheable) :: record.header ++ record.payload) := by
  have loaded := loads_durableJson _ distinct
  rw [sortKeys_items] at loaded
  have utf8 : detectsUtf8 record.bytes = true := by
    obtain ⟨tail, text⟩ := durableJson_header record
    rw [Record.bytes, text, headerText_first]
    exact Sources.detectsUtf8_object _
  have size : record.bytes.length = (durableJson (.obj record.items)).length :=
    Sources.length_narrow (durableJson_narrow _)
  unfold readJson
  rw [if_neg (by omega), if_pos utf8, Record.bytes, decode_encode]
  simp only [String.toList_ofList, loaded]

/-- An evaluation that ran as `python test_kernel.py`. -/
def pythonRecord : Record OnlyNan where
  gatewayRecordId := "gateway-00000000000000000000000000000000"
  taskDigest := "8995eee5d1fe34e92775d68ba4671d11e4e74ac5e2a887adabf3402e63c471f1"
  request := .obj [
    ("inputs", .obj [("kernel.py", .str "9f56e761d79bfdb34304a012586cb04d16b435ef6130091a97702e559260a2f2")]),
    ("operation", .str "evaluate"),
    ("options", .obj [("command", .arr [.str "python", .str "test_kernel.py"])])]
  kernels := [("candidate", .obj [
    ("kernel_artifact_digest", .str "sha256:9f56e761d79bfdb34304a012586cb04d16b435ef6130091a97702e559260a2f2"),
    ("kernel_id", .str "kernel-6f1a04c8089e5cb3ab1e3c733ed0bed4")])]
  operation := "evaluate"
  response := .obj [("exit_code", .int 0), ("stdout", .str
    "[test_kernel] RESULT_JSON=\x7b\"all_pass\":true,\"latency_us_by_shape\":\x7b\"s\":1\x7d\x7d")]
  resultDigest := "05358cfa790bf37477ee72de9f2d1e1867db06ec0efa692920d5e87cb187fb64"
  cacheable := true
  createdAt := "2026-01-01T00:00:00+00:00"
  distinct := by simp [Distinct, DistinctMembers]

/-- The store of that record, whose kernel is the line `pass`. -/
def pythonStore : Store OnlyNan where
  record _ := .ok pythonRecord.bytes
  kernel _ := .ok (encode "pass\n")
  sha256 _ := "9f56e761d79bfdb34304a012586cb04d16b435ef6130091a97702e559260a2f2"
  kernelUuid _ := "6f1a04c8089e5cb3ab1e3c733ed0bed4"
  digest value := .ok (if (find? (Schema.membersOf value) "stdout").isSome then
    "05358cfa790bf37477ee72de9f2d1e1867db06ec0efa692920d5e87cb187fb64"
    else "8995eee5d1fe34e92775d68ba4671d11e4e74ac5e2a887adabf3402e63c471f1")
  verifyMeasurementInputs _ _ _ := .ok true
  otherEncoding _ := none
  floats := ⟨fun _ => false, fun _ _ => false, fun _ _ => false, fun _ _ => false, fun _ _ => false, fun _ _ => false⟩
  float _ := none

/-- What is read of it. -/
def pythonItems : Dict OnlyNan :=
  ("cacheable", .bool pythonRecord.cacheable) :: pythonRecord.header ++ pythonRecord.payload

theorem read_pythonRecord : read pythonStore pythonRecord.gatewayRecordId = .ok pythonItems := by
  have passes : (checkKernels pythonStore (sortKeys pythonRecord.request) pythonRecord.kernels).isOk = true := by
    decide +kernel
  have checked : checkKernels pythonStore (sortKeys pythonRecord.request) pythonRecord.kernels = .ok () := by
    cases made : checkKernels pythonStore (sortKeys pythonRecord.request) pythonRecord.kernels with
    | error error =>
        rw [made] at passes
        cases passes
    | ok done => rfl
  have loaded := readJson_written pythonStore pythonRecord
    (by simp [Distinct, DistinctMembers, Record.items, pythonRecord, DistinctItems]) (by decide +kernel)
  exact read_of (by decide +kernel) rfl loaded (by decide +kernel) rfl rfl (by decide +kernel) rfl rfl
    (by decide +kernel) rfl checked

def pythonOptions : Dict OnlyNan := [("command", .arr [.str "python", .str "test_kernel.py"])]

def pythonResponse : Dict OnlyNan := [("exit_code", .int 0), ("stdout", .str
  "[test_kernel] RESULT_JSON=\x7b\"all_pass\":true,\"latency_us_by_shape\":\x7b\"s\":1\x7d\x7d")]

theorem pythonResponse_passes : ∃ result, resultOf pythonResponse (.str "evaluate") = .ok (some result) ∧
    isTrue (get result "all_pass") = true ∧ truthy pythonStore.floats (get result "error") = false ∧
    isStr "correctness_only" (get result "mode") = false ∧
    truthy pythonStore.floats (get result "latency_us_by_shape") = true := by
  have printed : (resultOf pythonResponse (.str "evaluate")).toOption.join.any (fun result =>
      isTrue (get result "all_pass") && !truthy pythonStore.floats (get result "error") &&
        !isStr "correctness_only" (get result "mode") &&
        truthy pythonStore.floats (get result "latency_us_by_shape")) = true := by decide +kernel
  cases found : resultOf pythonResponse (.str "evaluate") with
  | error error => simp [found, Except.toOption] at printed
  | ok result =>
      cases result with
      | none => simp [found, Except.toOption] at printed
      | some result =>
          simp only [found, Except.toOption, Option.join_some, Option.any_some, Bool.and_eq_true,
            Bool.not_eq_true'] at printed
          obtain ⟨⟨⟨passes, noError⟩, performance⟩, latencies⟩ := printed
          exact ⟨result, rfl, passes, noError, performance, latencies⟩

/-- It stands behind a nomination, and not on the frontier. -/
theorem python_command_only_nominates :
    ¬ (Eligible pythonStore pythonRecord.gatewayRecordId ↔ Accepted pythonStore pythonRecord.gatewayRecordId) := by
  obtain ⟨result, parsed, passes, noError, performance, latencies⟩ := pythonResponse_passes
  have parts : Parts pythonStore pythonRecord.gatewayRecordId pythonItems _ pythonOptions pythonResponse result :=
    ⟨read_pythonRecord, rfl, rfl, rfl, rfl, parsed, _, _, rfl, rfl⟩
  have correctness : get result "mode" ≠ .str "correctness_only" := by
    intro only
    rw [only] at performance
    cases performance
  have whole : hasShapeId [(.str "python" : Json OnlyNan), .str "test_kernel.py"] = .ok false := by
    simp [hasShapeId]
  have standard : Standard pythonStore pythonItems pythonOptions pythonResponse result :=
    ⟨rfl, rfl, rfl, ⟨_, rfl, whole⟩, rfl, rfl, rfl, (isTrue_iff _).mp passes, noError, correctness, latencies⟩
  intro same
  obtain ⟨point, taken⟩ := same.mpr (evidence_of_parts parts standard)
  obtain ⟨record, request, options, response, result', others, -, ordinary⟩ := parts_of_point taken
  obtain ⟨rfl, rfl, rfl, rfl, rfl⟩ := parts.same others
  obtain ⟨rest, command⟩ := ordinary.command
  simp [pythonOptions, getOr, find?] at command

end AtrexAgent.Frontier
