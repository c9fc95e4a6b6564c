import AtrexAgent.Workflow.History

/-! The requests on the journal of an Episode: Directions are proposed, started and closed, experiments are recorded, and a
report ends the Episode. -/

namespace AtrexAgent.Journal

open AtrexAgent.Schema

variable {F : Type} (values : Values F)

/-- What the store of measurements says of a record. -/
structure Evidence (F : Type) where
  gatewayKind : Json F
  kernelArtifactDigest : Json F
  kernelId : Json F
  result : Json.Dict F
  completed : Bool
  exitCode : Json F
  standardFullEvaluation : Bool

/-- What a request gets from outside the journals. -/
structure Outside (F : Type) where
  legacy : Except Failure Unit
  uuid : String
  eventUuid : String
  now : String
  evidence : String → Except Failure (Evidence F)
  attribution : Json.Dict F → Except Failure (Json.Dict F)
  diagnostics : Json F → Except Failure (Option (Json F))
  source : Except Failure String
  validateCandidate : Option (Except Failure (Json F))
  commitCandidate : Except Failure String
  commitViolation : String → Option String
  supervisorGit : Bool
  fits : Json.Dict F → Bool

/-- `require_fields` -/
def requireFields (value : Json.Dict F) (required optional : List String) (label : String) : Except Failure Unit :=
  let keys := value.map Prod.fst
  if required.all (· ∈ keys) ∧ keys.all (· ∈ required ++ optional) then .ok ()
  else .error (.request s!"{label} fields do not match the request format." "invalid_fields" "$")

/-- `initialize_journal` -/
def initializeJournal (episode : ℕ) (research : Bool) (now : String) (header : Json.Dict F) : Json.Dict F :=
  [("schema_version", .int 2), ("runtime_managed", .bool true), ("research_records", .bool research), ("episode", .int episode),
    ("memory_version", Json.get header "memory_version"), ("base_commit", Json.get header "base_commit"),
    ("episode_branch", Json.get header "episode_branch"), ("state", .str "in_progress"), ("direction_events", .arr []),
    ("experiments", .arr []), ("outcome", .null), ("candidate_commit", .null), ("created_at", .str now), ("finalized_at", .null)]

def keepsResearch (journal : Json.Dict F) : Bool :=
  match Json.get journal "research_records" with
  | .bool false => false
  | _ => true

/-- The journal of an Episode that has not ended and keeps research records. -/
def mutableJournal (file : File F) : Except Failure (Json.Dict F) := do
  let journal ← loadJournal values file
  if ¬ keepsResearch journal then
    throw (.request "Direction and research Experiment recording is disabled for this Episode" "research_records_disabled" "$")
  if ¬ isStr "in_progress" (Json.get journal "state") then
    throw (.request "cannot mutate a finalized Runtime Journal" "journal_finalized" "$")
  return journal

/-- `_save_journal` -/
def saveJournal (outside : Outside F) (journal : Json.Dict F) : Except Failure (Json.Dict F) :=
  if outside.fits journal then .ok journal
  else .error (.request "Runtime Journal exceeds 16 MiB; finish this Episode before adding more evidence" "journal_size_limit" "$")

/-- `_direction_state` -/
def directionState (history : VisibleHistory F) : Except Failure (Views F) :=
  (applyDirectionEvents values (Json.get history.current "episode") (listAt history.current "direction_events")
      ⟨history.directions, history.statuses⟩).map fun views =>
    ⟨associateExperiments values views.directions (listAt history.current "experiments"), views.statuses⟩

/-- The Directions that an Episode has started. -/
def startedOf (events : List (Json F)) : List String :=
  events.foldl (fun started event => match event with
    | .obj event =>
        if isStr "start" (Json.get event "action") then addStarted started (string (Json.get event "direction_id")) .start else started
    | _ => started) []

/-- The experiments of a list by their ids, the last one of each id. -/
def experimentsById (experiments : List (Json F)) : List (String × Json.Dict F) :=
  experiments.foldl (fun table experiment => match experiment with
    | .obj experiment => match Json.get experiment "experiment_id" with
      | .str id => Items.set table id experiment
      | _ => table
    | _ => table) []

/-- `ChainMap(history.experiments_by_id, current)`, looked up. -/
def findExperiment (history : VisibleHistory F) (id : String) : Option (Json.Dict F) :=
  (Items.get? history.experimentsById id).or (Items.get? (experimentsById (listAt history.current "experiments")) id)

/-! ### Genealogy -/

def RELATIONSHIPS : List String := ["refinement", "correction", "combination"]

/-- `_ids` -/
def genealogyIds (raw : Json F) (kind field : String) : Except Failure (List String) :=
  match raw with
  | .arr items =>
      let named := strings raw
      if 32 < items.length then .error (.value s!"{field} must contain at most 32 unique IDs")
      else if named.length ≠ items.length ∨ ¬ named.all (isIdOf (kind ++ "_")) then .error (.value s!"{field} contains an invalid {kind} ID")
      else if ¬ named.Nodup then .error (.value s!"{field} must not contain duplicate IDs")
      else .ok named
  | _ => .error (.value s!"{field} must contain at most 32 unique IDs")

section

variable (directions : List (String × Direction F)) (owner : String → Option String)

/-- The Directions that one is derived from, itself or through experiments. -/
def parentsOf (id : String) : List String :=
  match Items.get? directions id with
  | none => []
  | some direction =>
      strings (Json.get direction.relationship "derived_from_direction_ids") ++
        (strings (Json.get direction.relationship "derived_from_experiment_ids")).filterMap owner

theorem parentsOf_unknown {id : String} (unknown : Items.get? directions id = none) : parentsOf directions owner id = [] := by
  rw [parentsOf, unknown]

/-- The walk over the ancestors of some Directions, from the last one pending. -/
def reaches (target : String) (pending visited : List String) : Bool :=
  match pending with
  | [] => false
  | parent :: rest =>
      if parent = target then true
      else if parent ∈ visited then reaches target rest visited
      else reaches target ((parentsOf directions owner parent).reverse ++ rest) (parent :: visited)
termination_by ((directions.filter fun item => item.1 ∉ visited).length, pending.length)
decreasing_by
  · exact Prod.Lex.right _ (Nat.lt_succ_self _)
  · rename_i fresh
    have step : (directions.filter fun item => item.1 ∉ parent :: visited) =
        (directions.filter fun item => item.1 ∉ visited).filter fun item => item.1 ≠ parent := by
      rw [List.filter_filter]
      exact List.filter_congr fun item _ => by simp
    rw [step]
    cases known : Items.get? directions parent with
    | none =>
        rw [parentsOf_unknown directions owner known]
        rcases Nat.lt_or_eq_of_le (List.length_filter_le (fun item => item.1 ≠ parent) (directions.filter fun item => item.1 ∉ visited)) with less | same
        · exact Prod.Lex.left _ _ less
        · rw [same]
          exact Prod.Lex.right _ (Nat.lt_succ_self _)
    | some direction =>
        refine Prod.Lex.left _ _ (List.length_filter_lt_length_iff_exists.mpr ⟨(parent, direction), ?_, by simp⟩)
        exact List.mem_filter.mpr ⟨Items.mem_of_get? known, by simpa using fresh⟩

end

/-- What a new Direction is derived from: nothing, or the Directions and experiments that the request names. -/
def ancestryOf (directionId : String) (value : Json.Dict F) (directions : List (String × Direction F))
    (experiment : String → Option (Json.Dict F)) : Except Failure (Option (List String × List String)) := do
  let owner (id : String) : Option String := (experiment id).map fun fields => values.str (Json.get fields "direction_id")
  let kind := Json.get value "relationship"
  let parents ← genealogyIds ((Json.find? value "derived_from_direction_ids").getD (.arr [])) "direction" "derived_from_direction_ids"
  let evidence ← genealogyIds ((Json.find? value "derived_from_experiment_ids").getD (.arr [])) "experiment" "derived_from_experiment_ids"
  let superseded ← match Json.get value "supersedes_direction_id" with
    | .null => pure []
    | supersedes => genealogyIds (.arr [supersedes]) "direction" "supersedes_direction_id"
  match kind, parents, evidence, superseded with
  | .null, [], [], [] => return none
  | _, _, _, _ => do
      if ¬ RELATIONSHIPS.any (isStr · kind) then
        throw (.value ("relationship must be one of " ++ ", ".intercalate RELATIONSHIPS ++
          "; reuse the existing Direction for an unchanged hypothesis and record implementation changes as Experiments"))
      for parent in parents do
        if (Items.get? directions parent).isNone then
          throw (.value s!"Parent Direction {parent} is not visible; load an existing Direction first")
      for id in evidence do
        match owner id with
        | none => throw (.value s!"Parent Experiment {id} is not visible; load an existing Experiment first")
        | some parent =>
            if (Items.get? directions parent).isNone then throw (.value s!"Parent Experiment {id} has no visible owning Direction")
      let effective := (parents ++ evidence.filterMap owner).dedup
      if effective.isEmpty then throw (.value "relationship requires at least one parent Direction or Experiment")
      if isStr "combination" kind ∧ effective.length < 2 then
        throw (.value "combination requires at least two distinct parent Directions, directly or via Experiments")
      if superseded ≠ [] ∧ ¬ (isStr "correction" kind ∧ superseded.all (· ∈ effective)) then
        throw (.value "supersedes_direction_id requires correction and must name one of its parent Directions")
      if reaches directions owner directionId effective [] then
        throw (.value "Direction genealogy cannot contain self-references or cycles")
      return some (parents, evidence)

/-- `validate_relationship` -/
def validateRelationship (directionId : String) (value : Json.Dict F) (directions : List (String × Direction F))
    (experiment : String → Option (Json.Dict F)) : Except Failure (Json.Dict F) :=
  (ancestryOf values directionId value directions experiment).map fun ancestry => ancestry.elim [] fun (parents, evidence) =>
    [("relationship", Json.get value "relationship"), ("derived_from_direction_ids", .arr (parents.map .str)),
      ("derived_from_experiment_ids", .arr (evidence.map .str)), ("supersedes_direction_id", Json.get value "supersedes_direction_id")]

/-! ### Evidence -/

def EVIDENCE_KINDS : List String := ["run", "same_allocation_abba", "profile", "dev", "check", "disassemble"]

def isDigest (text : String) : Bool :=
  "sha256:".toList.isPrefixOf text.toList && text.length = 71 && (text.toList.drop 7).all fun c => "0123456789abcdef".toList.contains c

/-- A record binds a kernel and a GPU operation. -/
def Evidence.binds (record : Evidence F) : Bool :=
  match record.gatewayKind, record.kernelArtifactDigest, record.kernelId with
  | .str kind, .str digest, .str id => kind ∈ EVIDENCE_KINDS && isDigest digest && isIdOf "kernel-" id
  | _, _, _ => false

/-- `_validate_record_ids` -/
def validateRecordIds (outside : Outside F) (raw : Json F) (label : String) : Except Failure (List String) := do
  let records ← textList raw s!"{label} gateway_record_ids"
  if records.isEmpty then
    if label = "Episode Report" then
      throw (fieldError "gateway_record_ids" "candidate_ready requires non-empty gateway_record_ids citing a passing full Evaluate")
    throw (.request ("Every Experiment requires at least one real Kernel-bound Gateway Record in gateway_record_ids, including " ++
      "abandon_direction; historical unmeasured notes cannot support a new Direction closure.") "experiment_evidence_required" "$")
  if ¬ records.Nodup then throw (fieldError "gateway_record_ids" s!"{label} gateway_record_ids must not contain duplicates")
  for (id, index) in records.zipIdx do
    match outside.evidence id with
    | .error (.state message) => throw (.state message)
    | .error failure => throw (fieldError s!"gateway_record_ids.{index}" failure.message)
    | .ok record =>
        if ¬ record.binds then
          throw (.value (s!"Gateway Record {id} must bind a real Kernel and a GPU operation; " ++
            "Env, Health, Wiki and unbound Dev records do not qualify"))
  return records

/-- `_passing_evaluate` -/
def Evidence.passing (record : Evidence F) (digest : String) : Bool :=
  isStr "run" record.gatewayKind && isStr digest record.kernelArtifactDigest &&
    (match Json.get record.result "all_pass" with
      | .bool true => true
      | _ => false) &&
    !truthy values.floats (Json.get record.result "error") && record.completed && equal values.floats record.exitCode (.int 0) &&
    record.standardFullEvaluation && !isStr "correctness_only" (Json.get record.result "mode") &&
    truthy values.floats (Json.get record.result "latency_us_by_shape")

/-- `_has_passing_evaluate` -/
def hasPassingEvaluate (outside : Outside F) (digest : String) : List String → Except Failure Bool
  | [] => .ok false
  | id :: rest => do
      let record ← outside.evidence id
      if record.passing values digest then return true
      hasPassingEvaluate outside digest rest

def anyCompleted (outside : Outside F) : List String → Except Failure Bool
  | [] => .ok false
  | id :: rest => do
      let record ← outside.evidence id
      if record.completed then return true
      anyCompleted outside rest

def HYPOTHESIS_STATUSES : List String := ["unresolved", "supported", "refuted"]

/-- One experiment that supports a closure. -/
def supportedBy (outside : Outside F) (directionId assessment : String) (history : VisibleHistory F) (id : String) : Except Failure Unit := do
  match findExperiment history id with
  | none => throw (.value s!"Supporting Experiment {id} is outside visible history")
  | some experiment =>
      if ¬ isStr directionId (Json.get experiment "direction_id") then
        throw (.value "Supporting Experiment must belong to the Direction being closed")
      let records ← validateRecordIds outside (Json.get experiment "gateway_record_ids") "Experiment"
      if assessment ≠ "unresolved" then
        let completed ← anyCompleted outside records
        if ¬ completed then
          throw (.request ("supported/refuted requires a completed Kernel-bound Gateway observation in every selected Experiment; " ++
            "failed or unfinished jobs do not establish a verdict.") "direction_assessment_requires_completed_result" "$")

/-- `_closure_support` -/
def closureSupport (outside : Outside F) (directionId : String) (value : Json.Dict F) (history : VisibleHistory F) :
    Except Failure (List String) := do
  match Json.get value "hypothesis_status" with
  | .str assessment =>
      if assessment ∉ HYPOTHESIS_STATUSES then throw (.value "hypothesis_status must be unresolved, supported, or refuted")
      let selected ← textList (Json.get value "supporting_experiment_ids") "supporting_experiment_ids"
      if ¬ (1 ≤ selected.length ∧ selected.length ≤ 32 ∧ selected.Nodup) then
        throw (.request "Direction closure requires 1-32 unique supporting_experiment_ids from this Direction's visible Experiments."
          "direction_support_required" "$")
      selected.forM (supportedBy outside directionId assessment history)
      return selected
  | _ => throw (.value "hypothesis_status must be unresolved, supported, or refuted")

/-! ### Directions -/

def DIRECTION_PROPOSAL_FIELDS : List String :=
  ["action", "name", "hypothesis", "rationale", "plan", "success_criteria", "stop_conditions"]

def DIRECTION_UPDATE_FIELDS : List String := ["action", "direction_id", "analysis"]

def DIRECTION_CLOSURE_FIELDS : List String := DIRECTION_UPDATE_FIELDS ++ ["hypothesis_status", "supporting_experiment_ids"]

/-- The texts of a proposal. -/
structure Proposal where
  name : String
  hypothesis : String
  rationale : String
  plan : List String
  successCriteria : List String
  stopConditions : List String

def readProposal (value : Json.Dict F) : Except Failure Proposal := do
  let name ← text (Json.get value "name") "Direction name"
  let hypothesis ← text (Json.get value "hypothesis") "Direction hypothesis"
  let rationale ← text (Json.get value "rationale") "Direction rationale"
  let plan ← textList (Json.get value "plan") "Direction plan"
  let criteria ← textList (Json.get value "success_criteria") "Direction success_criteria"
  let conditions ← textList (Json.get value "stop_conditions") "Direction stop_conditions"
  return ⟨name, hypothesis, rationale, plan, criteria, conditions⟩

def Proposal.event (proposal : Proposal) (outside : Outside F) (directionId : String) : Json.Dict F :=
  [("direction_event_id", .str ("directionevent_" ++ outside.eventUuid)), ("direction_id", .str directionId), ("action", .str "propose"),
    ("name", .str proposal.name), ("hypothesis", .str proposal.hypothesis), ("rationale", .str proposal.rationale),
    ("plan", .arr (proposal.plan.map .str)), ("success_criteria", .arr (proposal.successCriteria.map .str)),
    ("stop_conditions", .arr (proposal.stopConditions.map .str)), ("recorded_at", .str outside.now)]

def proposalAncestry (directionId : String) (value : Json.Dict F) (history : VisibleHistory F) (views : Views F) :
    Except Failure (Json.Dict F) :=
  if value.any (fun item => item.1 ∈ RELATIONSHIP_FIELDS) then
    validateRelationship values directionId value views.directions (findExperiment history)
  else .ok []

/-- The event of a proposal. -/
def proposalEvent (outside : Outside F) (value : Json.Dict F) (history : VisibleHistory F) (views : Views F) (started : List String) :
    Except Failure (Json.Dict F) := do
  requireFields value DIRECTION_PROPOSAL_FIELDS RELATIONSHIP_FIELDS "Direction proposal"
  let directionId := "direction_" ++ outside.uuid
  let _ ← advanceDirection views.statuses started (.str directionId : Json F) (.str "propose")
  let ancestry ← proposalAncestry values directionId value history views
  let proposal ← readProposal value
  return proposal.event outside directionId ++ ancestry

/-- The experiments that a transition rests on: those of a closure. -/
def transitionSupport (outside : Outside F) (action : Action) (directionId : String) (value : Json.Dict F) (history : VisibleHistory F) :
    Except Failure (List String) :=
  if action ∈ CLOSURES then closureSupport outside directionId value history else .ok []

/-- The event of a later transition. -/
def transitionEvent (outside : Outside F) (value : Json.Dict F) (history : VisibleHistory F) (views : Views F) (started : List String)
    (action : Action) : Except Failure (Json.Dict F) := do
  requireFields value (if action ∈ CLOSURES then DIRECTION_CLOSURE_FIELDS else DIRECTION_UPDATE_FIELDS) [] s!"Direction {action.text}"
  let directionId ← text (Json.get value "direction_id") "Direction ID"
  let _ ← advanceDirection views.statuses started (.str directionId : Json F) (.str action.text)
  let supporting ← transitionSupport outside action directionId value history
  let analysis ← text (Json.get value "analysis") "Direction analysis"
  return [("direction_event_id", .str ("directionevent_" ++ outside.eventUuid)), ("direction_id", .str directionId),
    ("action", .str action.text), ("analysis", .str analysis), ("recorded_at", .str outside.now),
    ("supporting_experiment_ids", .arr (supporting.map .str)), ("hypothesis_status", Json.get value "hypothesis_status")]

/-- The event that an update records. -/
def directionEvent (outside : Outside F) (value : Json.Dict F) (history : VisibleHistory F) (views : Views F) (started : List String) :
    Except Failure (Json.Dict F) :=
  if isStr "propose" (Json.get value "action") then proposalEvent values outside value history views started
  else if value.any (fun item => item.1 ∈ RELATIONSHIP_FIELDS) then
    .error (.value ("Direction genealogy is immutable; propose a new derived Direction " ++
      "instead of changing ancestry in a lifecycle update"))
  else match Action.parse (Json.get value "action") with
    | none => .error (.value "Direction action must be propose, start, complete, abandon, block, or defer")
    | some action => transitionEvent outside value history views started action

/-- A journal with one more item in one of its lists. -/
def appended (journal : Json.Dict F) (key : String) (item : Json.Dict F) : Json.Dict F :=
  Json.set journal key (.arr (listAt journal key ++ [.obj item]))

/-- `update_direction`: the journal that it saves. -/
def updateDirection (outside : Outside F) (value : Json.Dict F) (file : File F) (seen : Except Failure (VisibleHistory F)) :
    Except Failure (Json.Dict F) := do
  let journal ← mutableJournal values file
  let history ← seen
  let views ← directionState values history
  let started := startedOf (listAt history.current "direction_events")
  let event ← directionEvent values outside value history views started
  saveJournal outside (appended journal "direction_events" event)

/-! ### Experiments -/

def EXPERIMENT_FIELDS : List String :=
  ["direction_id", "name", "hypothesis", "change", "gateway_record_ids", "evidence", "analysis", "action"]

def EXPERIMENT_ACTIONS : List String := ["baseline", "keep_after", "restore_before", "abandon_direction", "adopt"]

def isBaseline : Json F → Bool
  | .obj fields => isStr "baseline" (Json.get fields "action")
  | _ => false

/-- The Direction of a new experiment, which has been started. -/
def experimentDirection (value : Json.Dict F) (seen : Except Failure (VisibleHistory F)) : Except Failure String := do
  let directionId ← text (Json.get value "direction_id") "Experiment Direction ID"
  if ¬ isDirectionId directionId then throw (.value "Experiment Direction ID has an invalid format")
  let history ← seen
  let views ← directionState values history
  match Items.get? views.directions directionId with
  | none => throw (.value "Experiment Direction is outside visible history")
  | some direction =>
      if direction.status = .proposed then
        throw (.value ("Experiment Direction must be in progress or closed; start a proposed Direction before recording evidence. " ++
          "Late evidence does not reopen exploration"))
      return directionId

/-- The experiment that a request describes. -/
def newExperiment (outside : Outside F) (value : Json.Dict F) (directionId : String) (experiments : List (Json F)) :
    Except Failure (Json.Dict F) := do
  if ¬ EXPERIMENT_ACTIONS.any (isStr · (Json.get value "action")) then
    throw (.value "Experiment action must be one of ['abandon_direction', 'adopt', 'baseline', 'keep_after', 'restore_before']")
  let records ← validateRecordIds outside (Json.get value "gateway_record_ids") "Experiment"
  if isStr "baseline" (Json.get value "action") ∧ experiments.any isBaseline then
    throw (.value "an Episode may record baseline only once")
  let name ← text (Json.get value "name") "Experiment name"
  let hypothesis ← text (Json.get value "hypothesis") "Experiment hypothesis"
  let change ← text (Json.get value "change") "Experiment change"
  let evidence ← text (Json.get value "evidence") "Experiment evidence"
  let analysis ← text (Json.get value "analysis") "Experiment analysis"
  let attribution ← outside.attribution value
  let experiment : Json.Dict F :=
    [("experiment_id", .str ("experiment_" ++ outside.uuid)), ("direction_id", .str directionId),
      ("sequence", .int (experiments.length + 1)), ("recorded_at", .str outside.now), ("name", .str name), ("hypothesis", .str hypothesis),
      ("change", .str change), ("gateway_record_ids", .arr (records.map .str)), ("evidence", .str evidence), ("analysis", .str analysis),
      ("action", Json.get value "action")]
  return experiment ++ attribution

/-- `record_experiment`: the journal that it saves. -/
def recordExperiment (outside : Outside F) (value : Json.Dict F) (file : File F) (seen : Except Failure (VisibleHistory F)) :
    Except Failure (Json.Dict F) := do
  let journal ← mutableJournal values file
  requireFields value EXPERIMENT_FIELDS ["wiki_usage", "wiki_query_ids", "wiki_usage_status"] "Experiment"
  let directionId ← experimentDirection values value seen
  let experiment ← newExperiment outside value directionId (listAt journal "experiments")
  saveJournal outside (appended journal "experiments" experiment)

/-! ### Reports -/

/-- An experiment of this Episode that a candidate is selected by, with its Direction. -/
def selectedExperiment (journal : Json.Dict F) (directions : List (String × Direction F)) (selectedId : Json F) :
    Except Failure (Json.Dict F) := do
  match selectedId with
  | .str id =>
      if ¬ isIdOf "experiment_" id then throw (.value "candidate_ready requires a valid selected_experiment_id")
      let found := (listAt journal "experiments").filterMap fun experiment => match experiment with
        | .obj fields => if isStr id (Json.get fields "experiment_id") then some fields else none
        | _ => none
      match found with
      | [selected] =>
          if ¬ ["keep_after", "adopt", "baseline"].any (isStr · (Json.get selected "action")) then
            throw (.value "selected Experiment must use baseline, keep_after, or adopt")
          match Json.get selected "direction_id" with
          | .str directionId => match Items.get? directions directionId with
            | none => throw (.value "selected Experiment Direction is outside visible history")
            | some direction =>
                if direction.status ∉ CLOSED_STATUSES then
                  throw (.value "selected Experiment Direction must have been started and closed")
                return selected
          | _ => throw (.value "selected Experiment Direction is outside visible history")
      | _ => throw (.value "selected_experiment_id must identify exactly one Experiment in the current Episode")
  | _ => throw (.value "candidate_ready requires a valid selected_experiment_id")

/-- The evidence of a report without research records. -/
def recordsEvidence (outside : Outside F) (status : String) (selectedId recordIds : Json F) : Except Failure (Option String) := do
  if ¬ selectedId matches .null then
    throw (.value "Research recording is disabled; cite gateway_record_ids instead of selected_experiment_id")
  if status ≠ "candidate_ready" then
    if ¬ recordIds matches .null then throw (.value s!"{status} cannot include gateway_record_ids")
    return none
  let records ← validateRecordIds outside recordIds "Episode Report"
  let digest ← outside.source
  let passing ← hasPassingEvaluate values outside digest records
  if ¬ passing then
    throw (.request ("Episode Report must cite a passing standard full Evaluate Gateway Record for byte-identical current candidate " ++
      "source; inspect record-read, repair the Kernel or record IDs, then resubmit episode-report") "candidate_evidence_mismatch"
      "gateway_record_ids")
  return some digest

def activeDirections (directions : List (String × Direction F)) : List String :=
  (directions.filter fun item => item.2.status = .inProgress).map fun item => item.2.directionId

/-- The evidence of a report on the Directions that it sees. -/
def researchEvidence (outside : Outside F) (status : String) (selectedId : Json F) (history : VisibleHistory F)
    (directions : List (String × Direction F)) : Except Failure (Option String) := do
  for event in listAt history.current "direction_events" do
    match event with
    | .obj event =>
        if ¬ Json.get event "hypothesis_status" matches .null then
          let _ ← closureSupport outside (string (Json.get event "direction_id")) event history
    | _ => pure ()
  if status ≠ "candidate_ready" then
    if ¬ selectedId matches .null ∧ ¬ isStr "" selectedId then throw (.value s!"{status} cannot include selected_experiment_id")
    return none
  let selected ← selectedExperiment history.current directions selectedId
  let records ← validateRecordIds outside (Json.get selected "gateway_record_ids") "Experiment"
  let digest ← outside.source
  let passing ← hasPassingEvaluate values outside digest records
  if ¬ passing then
    throw (.value ("selected Experiment must cite a passing Evaluate Gateway record whose Kernel exactly matches the current candidate " ++
      "source; inspect the cited records with tools/sandbox.py --kind record-read --record-id gateway-..."))
  return some digest

/-- `validate_report_evidence`: the visible Directions, and the digest of the source that a candidate is accepted for. -/
def validateReportEvidence (outside : Outside F) (journal : Json.Dict F) (status : String) (selectedId recordIds : Json F)
    (seen : Except Failure (VisibleHistory F)) : Except Failure (List (String × Direction F) × Option String) :=
  if keepsResearch journal then do
    if ¬ recordIds matches .null then
      throw (.value "Research recording is enabled; select an Experiment with selected_experiment_id")
    let history ← seen
    let views ← directionState values history
    if ¬ (activeDirections views.directions).isEmpty then
      throw (.value ("Episode Report cannot leave a Direction in progress; record its real Gateway evidence as an Experiment, then close with " ++
        "hypothesis_status and supporting_experiment_ids: " ++ ", ".intercalate (activeDirections views.directions)))
    let digest ← researchEvidence values outside status selectedId history views.directions
    return (views.directions, digest)
  else (recordsEvidence values outside status selectedId recordIds).map fun digest => ([], digest)

def isCommit (text : String) : Bool :=
  (text.length = 40 || text.length = 64) && text.toList.all fun c => "0123456789abcdef".toList.contains c

/-- The commit of a candidate that the Agent has committed. -/
def candidateCommit (outside : Outside F) (status : String) (given : Json F) : Except Failure String := do
  if status = "candidate_ready" ∧ ¬ outside.supervisorGit then
    match given with
    | .str commit =>
        if ¬ isCommit commit then
          throw (.value "candidate_ready requires the full candidate_commit from git rev-parse HEAD; commit the candidate before reporting")
        match outside.commitViolation commit with
        | some violation => throw (.value violation)
        | none => return commit
    | _ => throw (.value "candidate_ready requires the full candidate_commit from git rev-parse HEAD; commit the candidate before reporting")
  else if truthy values.floats given then throw (.value s!"{status} cannot include candidate_commit")
  else return ""

def REPORT_STATUSES : List String := ["candidate_ready", "pivot", "blocked"]

def orNull : Option (Json F) → Json F := fun value => value.getD .null

/-- What a report on an Episode in progress has been found to be. -/
structure Findings (F : Type) where
  summary : String
  blocker : Option String
  directions : List (String × Direction F)
  digest : Option String
  diagnostics : Option (Json F)
  checks : Option (Json F)
  commit : String
  records : List String

/-- The blocker of a report, which only a blocked one has. -/
def reportBlocker (status : String) (blocker : Json F) : Except Failure (Option String) :=
  if status = "blocked" then (text blocker "Episode Report blocker").map some
  else if ¬ blocker matches .null ∧ ¬ isStr "" blocker then
    .error (.value s!"Episode Report status {status} cannot include blocker")
  else .ok none

def reportDiagnostics (outside : Outside F) (raw : Json.Dict F) : Except Failure (Option (Json F)) :=
  match Json.find? raw "accepted_ppu_diagnostics" with
  | none => .ok none
  | some diagnostics => outside.diagnostics diagnostics

def acceptanceChecks (outside : Outside F) (digest : Option String) : Except Failure (Option (Json F)) :=
  match digest, outside.validateCandidate with
  | none, _ => .ok none
  | some _, none => .error (.state "Supervisor candidate validation is unavailable; report was not accepted")
  | some _, some result => result.map some

/-- The checks of a report on an Episode in progress. -/
def checkReport (outside : Outside F) (journal raw : Json.Dict F) (status : String) (seen : Except Failure (VisibleHistory F)) :
    Except Failure (Findings F) := do
  let summary ← text (Json.get raw "summary") "Episode Report summary"
  let blocker ← reportBlocker status (Json.get raw "blocker")
  let evidence ← validateReportEvidence values outside journal status (Json.get raw "selected_experiment_id")
    (Json.get raw "gateway_record_ids") seen
  let given ← candidateCommit values outside status (Json.get raw "candidate_commit")
  let diagnostics ← reportDiagnostics outside raw
  let checks ← acceptanceChecks outside evidence.2
  let commit ← (if evidence.2.isSome ∧ outside.supervisorGit then outside.commitCandidate else .ok given)
  let records ← (if keepsResearch journal = true ∨ status ≠ "candidate_ready" then .ok []
    else textList (Json.get raw "gateway_record_ids") "Episode Report gateway_record_ids")
  return ⟨summary, blocker, evidence.1, evidence.2, diagnostics, checks, commit, records⟩

/-- An item, where there is a value. -/
def item? (key : String) (value : Option (Json F)) : Json.Dict F := value.elim [] fun value => [(key, value)]

def strs (texts : List String) : Json F := .arr (texts.map .str)

def Findings.outcome (findings : Findings F) (journal raw : Json.Dict F) (status : String) : Json.Dict F :=
  let next := (findings.directions.filter fun item => item.2.status = .proposed ∨ item.2.status = .deferred).map fun item => item.2.name
  let always : Json.Dict F := [("summary", .str findings.summary), ("next_directions", strs next),
    ("selected_experiment_id", if status = "candidate_ready" then Json.get raw "selected_experiment_id" else .null),
    ("blocker", orNull (findings.blocker.map .str))]
  always ++ item? "gateway_record_ids" (if keepsResearch journal then none else some (strs findings.records)) ++
    item? "accepted_ppu_diagnostics" findings.diagnostics

/-- What a report changes of its journal. -/
def Findings.changes (findings : Findings F) (journal raw : Json.Dict F) (status now : String) : Json.Dict F :=
  let checks := item? "acceptance_checks" (findings.checks.map fun checks => .obj [("multi_seed_correctness", checks)])
  let sealed : Json.Dict F := [("state", .str status), ("outcome", .obj (findings.outcome journal raw status)),
    ("candidate_commit", if findings.commit = "" then .null else .str findings.commit), ("finalized_at", .str now),
    ("submitted_report", .obj raw)]
  checks ++ item? "candidate_kernel_digest" (findings.digest.map .str) ++ sealed

/-- What a report comes to, before it is published. -/
inductive Reported (F : Type) where
  | sealed (journal : Json.Dict F)
  | repeated

def reportFields (outside : Outside F) (journal : Json.Dict F) : List String :=
  ["status", "summary", "blocker", "accepted_ppu_diagnostics"] ++
    (if outside.supervisorGit then [] else ["candidate_commit"]) ++
    [if keepsResearch journal then "selected_experiment_id" else "gateway_record_ids"]

/-- A report on an Episode that has ended. -/
def repeatReport (journal raw : Json.Dict F) : Except Failure (Reported F) :=
  if equal values.floats (Json.get journal "submitted_report") (.obj raw) then .ok .repeated
  else .error (.request "This Episode already accepted a different report" "journal_finalized" "$")

/-- A report on an Episode in progress. -/
def acceptReport (outside : Outside F) (journal raw : Json.Dict F) (seen : Except Failure (VisibleHistory F)) : Except Failure (Reported F) := do
  match Json.get raw "status" with
  | .str status =>
      if status ∉ REPORT_STATUSES then throw (.value "Episode Report status must be candidate_ready, pivot, or blocked")
      let findings ← checkReport values outside journal raw status seen
      let sealed ← saveJournal outside (Json.update journal (findings.changes journal raw status outside.now))
      return .sealed sealed
  | _ => throw (.value "Episode Report status must be candidate_ready, pivot, or blocked")

/-- `_submit_report`, up to the publication of the handoff. -/
def submitReport (outside : Outside F) (raw : Json.Dict F) (file : File F) (seen : Except Failure (VisibleHistory F)) :
    Except Failure (Reported F) := do
  let journal ← loadJournal values file
  requireFields raw ["status", "summary"] (reportFields outside journal) "Episode Report"
  if isStr "in_progress" (Json.get journal "state") then acceptReport values outside journal raw seen else repeatReport values journal raw

/-! ### Requests -/

/-- The operations that may change a journal. -/
inductive Request (F : Type) where
  | directionUpdate (body : Json.Dict F)
  | experimentRecord (body : Json.Dict F)
  | episodeReport (body : Json.Dict F)

def saved (file : File F) : Except Failure (Json.Dict F) → Except Failure String × File F
  | .ok journal => (.ok "recorded", some (.obj journal))
  | .error failure => (.error failure, file)

/-- `execute`: the answer to a request and the journal after it; `published` is how the publication of the handoff ends. -/
def execute (outside : Outside F) (published : Except Failure Unit) (request : Request F) (file : File F)
    (seen : Except Failure (VisibleHistory F)) : Except Failure String × File F :=
  match outside.legacy with
  | .error failure => (.error failure, file)
  | .ok () => match request with
    | .directionUpdate body => saved file (updateDirection values outside body file seen)
    | .experimentRecord body => saved file (recordExperiment values outside body file seen)
    | .episodeReport body => match submitReport values outside body file seen with
      | .error failure => (.error failure, file)
      | .ok .repeated => (published.map fun _ => "accepted", file)
      | .ok (.sealed journal) => (published.map fun _ => "accepted", some (.obj journal))

end AtrexAgent.Journal
