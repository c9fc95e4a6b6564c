import Mathlib
import AtrexAgent.Agent.TokenUsage
import AtrexAgent.Core.Equality
import AtrexAgent.Library.Items
import AtrexAgent.Library.JsonText

/-! The accumulator that folds what a provider's stream and its native transcripts say of token usage. -/

namespace AtrexAgent.SessionUsage

open AtrexAgent.Items
open AtrexAgent.Json (Dict FloatText get loads)
open AtrexAgent.Schema (Floats isStr truthy)
open AtrexAgent.Tokens

variable {F : Type}

/-- The backends that are not `pi`. -/
inductive Backend where
  | claude
  | codex
  | qodercli
  deriving DecidableEq

def STREAM : String := "provider/stdout.stream-json"

/-! ### Counters -/

/-- `_counter` -/
def counter (usage : Dict F) (names : List String) : Option Int :=
  names.findSome? fun name => match get usage name with
    | .int n => if 0 ≤ n then some n else none
    | _ => none

def tokenUsageFromMapping : Json F → TokenUsage
  | .obj usage =>
      let inputTokens := counter usage ["input_tokens", "inputTokens", "input"]
      let outputTokens := counter usage ["output_tokens", "outputTokens", "output"]
      let cacheReadTokens := counter usage ["cache_read_input_tokens", "cacheReadInputTokens", "cacheRead"]
      let cacheWriteTokens := counter usage ["cache_creation_input_tokens", "cacheCreationInputTokens", "cacheWrite"]
      let officialTotal := counter usage ["total_tokens", "totalTokens"]
      let components := [inputTokens, outputTokens, cacheReadTokens, cacheWriteTokens]
      if officialTotal = none ∧ components.all Option.isNone then .unavailable
      else ⟨inputTokens, outputTokens, cacheReadTokens, cacheWriteTokens,
        some (officialTotal.getD (components.foldl (fun sum value => sum + value.getD 0) 0)), .exact⟩
  | _ => .unavailable

def tokenUsageFromModelUsage : Json F → TokenUsage
  | .obj modelUsage => sumTokenUsages (modelUsage.map fun item => tokenUsageFromMapping item.2)
  | _ => .unavailable

/-- A count that must be a number that is not negative, 0 where it is absent. -/
def countOf (raw : Dict F) (name : String) : Option Int :=
  match (Json.find? raw name).getD (.int 0) with
  | .int n => if 0 ≤ n then some n else none
  | _ => none

/-- `_codex_usage` -/
def codexUsage : Json F → TokenUsage
  | .obj raw =>
      let value := tokenUsageFromMapping (.obj raw)
      match countOf raw "cached_input_tokens", countOf raw "cache_write_input_tokens", value.inputTokens with
      | some cached, some cacheWrite, some input =>
          if input < cached then .unavailable
          else { value with inputTokens := some (input - cached), cacheReadTokens := some cached, cacheWriteTokens := some cacheWrite }
      | _, _, _ => .unavailable
  | _ => .unavailable

/-- `_same` -/
def sameUsage (left right : TokenUsage) : Bool :=
  left.totalTokens.isSome && COMPONENTS.all fun name => left.component name = right.component name

/-- `_usable_usage` -/
def usableUsage (backend : Backend) (usage : TokenUsage) : TokenUsage :=
  if backend = .qodercli ∧ usage.totalTokens = some 0 then .unavailable else usage

/-! ### Lines -/

/-- What a line says. -/
inductive Event where
  | malformed
  | skipped
  | history (id : Option String) (prior : Option TokenUsage)
  | other
  | terminal (line : String) (usage : TokenUsage)
  | counter (current last : TokenUsage)
  | response (id : Option String) (agent : String) (usage : TokenUsage)
  deriving DecidableEq

section Read

variable (floats : Floats F) (str : Json F → String)

/-- `first or second` -/
def orElse (first second : Json F) : Json F := if truthy floats first then first else second

/-- The id that a value is, if any; nothing where the value cannot be one. -/
def readId (value : Json F) : Option (Option String) :=
  if truthy floats value then
    match value with
    | .str id => some (some id)
    | _ => none
  else some none

/-- `value in words`, which raises for a value that has no hash -/
def isWord (words : List String) : Json F → Option Bool
  | .str word => some (words.contains word)
  | .arr _ => none
  | .obj _ => none
  | _ => some false

def textOf : Json F → String
  | .str text => text
  | value => str value

/-- `body.get("info") or {}`, as a dict -/
def infoOf (body : Dict F) : Option (Dict F) :=
  if truthy floats (get body "info") then
    match get body "info" with
    | .obj info => some info
    | _ => none
  else some []

/-- A message of the history of a session that is resumed. -/
def readHistory (event : Dict F) : Option Event := do
  let id ← match get event "message" with
    | .obj message => readId floats (get message "id")
    | _ => some none
  let prior ← match get event "payload" with
    | .obj body =>
        if isStr "token_count" (get body "type") then (infoOf floats body).map fun info => some (codexUsage (get info "total_token_usage"))
        else some none
    | _ => some none
  return .history id prior

def terminalUsage (backend : Backend) (event : Dict F) : TokenUsage :=
  match backend with
  | .claude => tokenUsageFromMapping (get event "usage")
  | .codex =>
      let usage := codexUsage (get event "usage")
      if usage.totalTokens = none then usableUsage backend (tokenUsageFromMapping (get event "usage")) else usage
  | .qodercli =>
      let usage := usableUsage backend (tokenUsageFromModelUsage (get event "modelUsage"))
      if usage.totalTokens = none then usableUsage backend (tokenUsageFromMapping (get event "usage")) else usage

def readCounter (body : Dict F) : Option Event := do
  let info ← infoOf floats body
  return .counter (codexUsage (get info "total_token_usage")) (codexUsage (get info "last_token_usage"))

def isSubagent (path : String) : Bool := decide ("subagents/".toList <:+: path.toList)

def readResponse (backend : Backend) (path : String) (event message : Dict F) : Option Event := do
  let kind ← isWord ["assistant", "message", "message_end"] (get event "type")
  if !kind || !isStr "assistant" ((Json.find? message "role").getD (.str "assistant")) then return .other
  let id ← readId floats (orElse floats (get message "id") (get event "id"))
  let agent := orElse floats (get event "agentId") (orElse floats (get event "parent_tool_use_id")
    (.str (if isSubagent path then path else "main")))
  return .response id (textOf str agent) (usableUsage backend (tokenUsageFromMapping (get message "usage")))

def readLive (backend : Backend) (path line : String) (event : Dict F) : Option Event := do
  let ends ← if path = STREAM then isWord ["result", "turn.completed"] (get event "type") else some false
  if ends then return .terminal line (terminalUsage backend event)
  match get event "payload" with
  | .obj body =>
      if path ≠ STREAM ∧ isStr "token_count" (get body "type") = true then readCounter floats body
      else match get event "message" with
        | .obj message => readResponse floats str backend path event message
        | _ => return .other
  | _ => match get event "message" with
    | .obj message => readResponse floats str backend path event message
    | _ => return .other

/-- What `feed` reads of a line, or nothing where reading raises. -/
def readEvent [FloatText F] (backend : Backend) (path : String) (previous : Bool) (line : String) : Option Event :=
  match (loads line.toList : Option (Json F)) with
  | none => some (if path = STREAM then .skipped else .malformed)
  | some (.obj event) => if previous then readHistory floats event else readLive floats str backend path line event
  | some _ => some .skipped

end Read

/-! ### The accumulator -/

structure Response where
  messageId : String
  path : String
  agent : String
  usage : TokenUsage
  native : Bool
  deriving DecidableEq

/-- `UsageAccumulator` -/
structure Accumulator where
  oldIds : Finset String
  responses : List (String × Response)
  missing : Finset String
  terminal : TokenUsage
  nativeSeen : Bool
  codexTotals : List (String × TokenUsage)
  priorCodex : List (String × TokenUsage)
  indices : List (String × Nat)
  creditEvent : String

def Accumulator.empty : Accumulator := ⟨∅, [], ∅, .unavailable, false, [], [], [], ""⟩

/-- A key of what belongs to a path. -/
def keyOf (path suffix : String) : String := path ++ ":" ++ suffix

def NO_IDENTITY : String := "response_identity_unavailable"

def LIMIT : String := "usage_index_limit_exceeded"

def incompleteNote (path : String) : String := keyOf path "resume_history_incomplete"

def note (key : String) (acc : Accumulator) : Accumulator := { acc with missing := insert key acc.missing }

def markHistoryIncomplete (path : String) (acc : Accumulator) : Accumulator :=
  { acc with missing := insert (incompleteNote path) acc.missing, priorCodex := remove acc.priorCodex path }

/-- An id of the history of the session: its responses are not of this invocation. -/
def feedOld (id : String) (acc : Accumulator) : Accumulator :=
  { acc with oldIds := insert id acc.oldIds, responses := remove acc.responses id, missing := acc.missing.erase id }

def feedCounter (path : String) (current last : TokenUsage) (acc : Accumulator) : Accumulator :=
  if incompleteNote path ∈ acc.missing ∧ get? acc.codexTotals path = none then
    if current.totalTokens.isSome then { acc with codexTotals := set acc.codexTotals path current } else acc
  else
    let prior := (get? acc.codexTotals path).getD ((get? acc.priorCodex path).getD .zero)
    match current.totalTokens with
    | none => acc
    | some total => match subtractTokenUsage current prior with
      | none => note (keyOf path "counter-regression") acc
      | some delta =>
          let acc := { acc with codexTotals := set acc.codexTotals path current }
          if delta.totalTokens.getD 0 = 0 then acc
          else
            let acc := if sameUsage delta last then acc else note (keyOf path "unreconciled-token-delta") acc
            let key := keyOf path (toString total)
            { acc with responses := set acc.responses key ⟨key, path, path, delta, true⟩ }

/-- Whether a response stays although a later one has its id. -/
def prevails (earlier : Response) (native : Bool) (agent : String) : Bool :=
  earlier.native && (!native || (earlier.agent = "main" && agent ≠ "main"))

def feedResponse (path : String) (index : Nat) (id : Option String) (agent : String) (usage : TokenUsage) (acc : Accumulator) : Accumulator :=
  let messageId := id.getD (keyOf path ("line-" ++ toString index))
  let acc := if id.isSome then acc else note NO_IDENTITY acc
  if messageId ∈ acc.oldIds then acc
  else if usage.totalTokens = none then
    if (get? acc.responses messageId).isSome then acc else note messageId acc
  else
    let acc := { acc with missing := acc.missing.erase messageId }
    if (get? acc.responses messageId).any fun earlier => prevails earlier (path ≠ STREAM) agent then acc
    else { acc with responses := set acc.responses messageId ⟨messageId, path, agent, usage, path ≠ STREAM⟩ }

def indexOf (path : String) (acc : Accumulator) : Nat := (get? acc.indices path).getD 0

def Event.isLive : Event → Bool
  | .other => true
  | .terminal _ _ => true
  | .counter _ _ => true
  | .response _ _ _ => true
  | _ => false

def feedEvent (path : String) (event : Event) (acc : Accumulator) : Accumulator :=
  let index := indexOf path acc
  let acc := { acc with indices := set acc.indices path (index + 1), nativeSeen := acc.nativeSeen || (event.isLive && decide (path ≠ STREAM)) }
  match event with
  | .malformed => note (keyOf path "malformed-json") acc
  | .skipped => acc
  | .history id prior =>
      let acc := id.elim acc fun id => feedOld id acc
      prior.elim acc fun usage => { acc with priorCodex := set acc.priorCodex path usage }
  | .other => acc
  | .terminal line usage => { acc with creditEvent := line, terminal := usage }
  | .counter current last => feedCounter path current last acc
  | .response id agent usage => feedResponse path index id agent usage acc

/-- How many entries are tracked. -/
def Accumulator.entries (acc : Accumulator) : Nat := acc.responses.length + acc.oldIds.card + acc.missing.card

section Feed

variable [FloatText F] (floats : Floats F) (str : Json F → String) (backend : Backend) (maxEntries : Nat)

/-- `feed` of some lines, and whether it came to its end: it stops at the limit, and where a line raises. -/
def feed (path : String) (previous : Bool) : List String → Accumulator → Accumulator × Bool
  | [], acc => (acc, true)
  | line :: rest, acc =>
      if maxEntries ≤ acc.entries then (note LIMIT acc, false)
      else match readEvent floats str backend path previous line with
        | none => (acc, false)
        | some event => feed path previous rest (feedEvent path event acc)

/-- A call on the accumulator. -/
inductive Call where
  | feed (path : String) (previous : Bool) (lines : List String)
  | incomplete (path : String)

/-- Calls one after another, and whether each came to its end. -/
def run : List Call → Accumulator → Accumulator × Bool
  | [], acc => (acc, true)
  | .incomplete path :: rest, acc => run rest (markHistoryIncomplete path acc)
  | .feed path previous lines :: rest, acc =>
      let fed := feed floats str backend maxEntries path previous lines acc
      let later := run rest fed.1
      (later.1, fed.2 && later.2)

end Feed

end AtrexAgent.SessionUsage
