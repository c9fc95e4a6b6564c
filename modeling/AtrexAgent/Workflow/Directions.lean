import Mathlib.Data.List.Basic
import AtrexAgent.Core.Equality
import AtrexAgent.Library.Items
import AtrexAgent.Library.Words

/-! Directions: the legal transitions between their statuses, and what the events of a journal make of the Directions that
are visible. -/

namespace AtrexAgent.Journal

open AtrexAgent.Schema AtrexAgent.Words

variable {F : Type}

/-- What a request or a replay is refused with; a request error names a code and the path of a field. -/
inductive Failure where
  | value (message : String)
  | request (message code path : String)
  | state (message : String)
  | missing (key : String)

def Failure.message : Failure → String
  | .value message => message
  | .request message _ _ => message
  | .state message => message
  | .missing key => key

/-- How values become text, and what is equal and true among them. -/
structure Values (F : Type) where
  floats : Floats F
  str : Json F → String

inductive Status where
  | proposed | inProgress | completed | abandoned | blocked | deferred
  deriving DecidableEq

inductive Action where
  | propose | start | complete | abandon | block | defer
  deriving DecidableEq

/-- `DIRECTION_STATUS` -/
def DIRECTION_STATUS : Action → Status
  | .propose => .proposed
  | .start => .inProgress
  | .complete => .completed
  | .abandon => .abandoned
  | .block => .blocked
  | .defer => .deferred

def Action.text : Action → String
  | .propose => "propose"
  | .start => "start"
  | .complete => "complete"
  | .abandon => "abandon"
  | .block => "block"
  | .defer => "defer"

def Status.text : Status → String
  | .proposed => "proposed"
  | .inProgress => "in_progress"
  | .completed => "completed"
  | .abandoned => "abandoned"
  | .blocked => "blocked"
  | .deferred => "deferred"

def ACTIONS : List Action := [.propose, .start, .complete, .abandon, .block, .defer]

def CLOSURES : List Action := [.complete, .abandon, .block, .defer]

def CLOSED_STATUSES : List Status := [.completed, .abandoned, .blocked, .deferred]

def Action.parse : Json F → Option Action
  | .str text => ACTIONS.find? fun action => action.text = text
  | _ => none

/-! ### Texts -/

def strip (text : String) : String :=
  String.ofList (((text.toList.dropWhile isSpace).reverse.dropWhile isSpace).reverse)

/-- The field that a label is about. -/
def fieldOf (label : String) : String :=
  if label = "Direction ID" ∨ label = "Experiment Direction ID" then "direction_id"
  else if label = "Experiment ID" then "experiment_id"
  else String.ofList ((words label.toList).getLast?.getD [])

/-- `field_error` -/
def fieldError (path message : String) : Failure := .request message "invalid_value" path

/-- `_text` -/
def text (value : Json F) (label : String) : Except Failure String :=
  let refused := fieldError (fieldOf label) s!"{label} must be non-empty text of at most 16000 characters"
  match value with
  | .str s => if strip s = "" ∨ 16000 < s.length then .error refused else .ok (strip s)
  | _ => .error refused

def shortText : Json F → Option String
  | .str s => if strip s = "" ∨ 4000 < s.length then none else some s
  | _ => none

/-- `_text_list` -/
def textList (value : Json F) (label : String) : Except Failure (List String) :=
  let refused := fieldError (fieldOf label) s!"{label} must contain at most 64 non-empty strings, each at most 4000 characters"
  match value with
  | .arr items =>
      if 64 < items.length ∨ (items.filterMap shortText).length ≠ items.length then .error refused
      else .ok ((items.filterMap shortText).map strip)
  | _ => .error refused

/-- The strings of a list that has been checked. -/
def strings : Json F → List String
  | .arr items => items.filterMap fun item => match item with
    | .str s => some s
    | _ => none
  | _ => []

def string : Json F → String
  | .str s => s
  | _ => ""

/-! ### Transitions -/

/-- `re.fullmatch(start + r"[0-9a-f]{32}", text)` -/
def isIdOf (start text : String) : Bool :=
  start.toList.isPrefixOf text.toList && text.length = start.length + 32 &&
    (text.toList.drop start.length).all fun c => "0123456789abcdef".toList.contains c

/-- `DIRECTION_ID_RE.fullmatch` -/
def isDirectionId (text : String) : Bool := isIdOf "direction_" text

abbrev Statuses := List (String × Status)

/-- The Directions that are in progress, other than one. -/
def activeBut (statuses : Statuses) (directionId : String) : List String :=
  (statuses.filter fun item => item.2 = .inProgress ∧ item.1 ≠ directionId).map Prod.fst

/-- The guards of one event on a Direction. -/
def admits (statuses : Statuses) (started : List String) (directionId : String) : Action → Except Failure Unit
  | .propose =>
      if (Items.get? statuses directionId).isSome then .error (.value s!"Direction {directionId} was already proposed") else .ok ()
  | .start =>
      match Items.get? statuses directionId with
      | none => .error (.value s!"Direction ID is outside visible history: {directionId}")
      | some status =>
          match activeBut statuses directionId with
          | other :: _ => .error (.request
              s!"only one Direction may be in progress; close or defer {other} before starting another" "direction_in_progress" "$")
          | [] =>
              if directionId ∉ started ∧ 3 ≤ started.length then .error (.request
                ("Direction advancement limit exceeded: at most three Directions " ++ "may be started in one Episode")
                "direction_limit_exceeded" "$")
              else if status = .inProgress then .error (.value s!"Direction cannot start from status {status.text}")
              else .ok ()
  | action =>
      match Items.get? statuses directionId with
      | none => .error (.value s!"Direction ID is outside visible history: {directionId}")
      | some status =>
          if status = .proposed then .error (.value s!"Direction cannot {action.text} from status {status.text}") else .ok ()

def addStarted (started : List String) (directionId : String) (action : Action) : List String :=
  if action = .start ∧ directionId ∉ started then started ++ [directionId] else started

/-- `advance_direction` -/
def advanceDirection (statuses : Statuses) (started : List String) (directionId action : Json F) :
    Except Failure (Statuses × List String) :=
  match directionId with
  | .str id =>
      if isDirectionId id then
        match Action.parse action with
        | some action => (admits statuses started id action).map fun _ =>
            (Items.set statuses id (DIRECTION_STATUS action), addStarted started id action)
        | none => .error (.value "Direction action must be propose, start, complete, abandon, block, or defer")
      else .error (.value "Direction ID has an invalid format")
  | _ => .error (.value "Direction ID has an invalid format")

/-! ### Views -/

structure Direction (F : Type) where
  directionId : String
  name : String
  hypothesis : String
  rationale : String
  plan : List String
  successCriteria : List String
  stopConditions : List String
  status : Status
  analysis : Json F
  recordedAt : String
  supportingExperimentIds : List String
  associatedExperimentIds : List String
  hypothesisStatus : Json F
  relationship : Json.Dict F
  updatedAt : Option (Json F)

structure Views (F : Type) where
  directions : List (String × Direction F)
  statuses : Statuses

def RELATIONSHIP_FIELDS : List String :=
  ["derived_from_direction_ids", "derived_from_experiment_ids", "relationship", "supersedes_direction_id"]

variable (values : Values F)

/-- `relationship_fields` -/
def relationshipFields (value : Json.Dict F) : Json.Dict F :=
  (RELATIONSHIP_FIELDS.filter fun key => truthy values.floats (Json.get value key)).map fun key => (key, Json.get value key)

/-- `value.get(key, [])` -/
def supportOf (event : Json.Dict F) : Json F := (Json.find? event "supporting_experiment_ids").getD (.arr [])

def proposed (directionId : String) (event : Json.Dict F) : Direction F where
  directionId := directionId
  name := string (Json.get event "name")
  hypothesis := string (Json.get event "hypothesis")
  rationale := string (Json.get event "rationale")
  plan := strings (Json.get event "plan")
  successCriteria := strings (Json.get event "success_criteria")
  stopConditions := strings (Json.get event "stop_conditions")
  status := .proposed
  analysis := .null
  recordedAt := string (Json.get event "recorded_at")
  supportingExperimentIds := []
  associatedExperimentIds := []
  hypothesisStatus := .str "unresolved"
  relationship := relationshipFields values event
  updatedAt := none

/-- Ids are added to those that are associated, each once. -/
def associated (ids : List String) (more : List String) : List String :=
  more.foldl (fun ids id => if id ∈ ids then ids else ids ++ [id]) ids

def Direction.updated (direction : Direction F) (event : Json.Dict F) (action : Action) : Direction F :=
  let assessment := Json.get event "hypothesis_status"
  let support := strings (supportOf event)
  { direction with
    status := DIRECTION_STATUS action
    analysis := Json.get event "analysis"
    updatedAt := some (Json.get event "recorded_at")
    hypothesisStatus := if truthy values.floats assessment then assessment else .str "unresolved"
    supportingExperimentIds := match assessment with
      | .null => []
      | _ => if action ∈ CLOSURES then support else []
    associatedExperimentIds := associated direction.associatedExperimentIds support }

/-- The texts of a proposal. -/
def checkProposal (event : Json.Dict F) : Except Failure Unit := do
  for field in ["name", "hypothesis", "rationale", "recorded_at"] do
    let _ ← text (Json.get event field) s!"Direction {field}"
  for field in ["plan", "success_criteria", "stop_conditions"] do
    let _ ← textList (Json.get event field) s!"Direction {field}"

/-- What one event is checked for, with the statuses after it. -/
def checkEvent (statuses : Statuses) (started : List String) (event : Json.Dict F) : Except Failure (Statuses × List String) := do
  let advanced ← advanceDirection statuses started (Json.get event "direction_id") (Json.get event "action")
  if Action.parse (Json.get event "action") = some .propose then checkProposal event
  let _ ← textList (supportOf event) "supporting_experiment_ids"
  return advanced

/-- What an event that has been checked makes of the Directions. -/
def Views.record (views : Views F) (statuses : Statuses) (event : Json.Dict F) : Views F :=
  let directionId := string (Json.get event "direction_id")
  match Action.parse (Json.get event "action") with
  | some .propose => ⟨Items.set views.directions directionId (proposed values directionId event), statuses⟩
  | some action => match Items.get? views.directions directionId with
    | some direction => ⟨Items.set views.directions directionId (direction.updated values event action), statuses⟩
    | none => ⟨views.directions, statuses⟩
  | none => ⟨views.directions, statuses⟩

/-- One event of a journal. -/
def applyEvent (episode : Json F) (state : Views F × List String) (event : Json F) : Except Failure (Views F × List String) :=
  match event with
  | .obj event =>
      match checkEvent state.1.statuses state.2 event with
      | .ok (statuses, started) => .ok (state.1.record values statuses event, started)
      | .error failure => .error (.state s!"Invalid Direction history in Episode {values.str episode}: {failure.message}")
  | _ => .error (.state "Runtime Journal contains an invalid Direction event")

/-- `_apply_direction_events` -/
def applyDirectionEvents (episode : Json F) (events : List (Json F)) (views : Views F) : Except Failure (Views F) :=
  (events.foldlM (applyEvent values episode) (views, [])).map Prod.fst

/-- `_associate_experiments`, of one experiment -/
def associateExperiment (directions : List (String × Direction F)) (experiment : Json F) : List (String × Direction F) :=
  match experiment with
  | .obj experiment =>
      match Items.get? directions (values.str (Json.get experiment "direction_id")) with
      | none => directions
      | some direction => match Json.get experiment "experiment_id" with
        | .str id =>
            if id ∈ direction.associatedExperimentIds then directions
            else Items.set directions direction.directionId
              { direction with associatedExperimentIds := direction.associatedExperimentIds ++ [id] }
        | _ => directions
  | _ => directions

def associateExperiments (directions : List (String × Direction F)) (experiments : List (Json F)) : List (String × Direction F) :=
  experiments.foldl (associateExperiment values) directions

end AtrexAgent.Journal
