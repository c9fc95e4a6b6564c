import AtrexAgent.Agent.TokenUsage
import AtrexAgent.Library.Binary64

/-! The attribution of token usage to the phases of an attempt, and the aggregate over attempts. -/

namespace AtrexAgent.PhaseTokens

open AtrexAgent.Tokens
open AtrexAgent.Binary64

inductive Phase where
  | profile | research | planning | implementation | correctness | benchmark | recording
  deriving DecidableEq, Repr

def PHASES : List Phase := [.profile, .research, .planning, .implementation, .correctness, .benchmark, .recording]

def Phase.name : Phase → String
  | .profile => "profile"
  | .research => "research"
  | .planning => "planning"
  | .implementation => "implementation"
  | .correctness => "correctness"
  | .benchmark => "benchmark"
  | .recording => "recording"

/-- The phase of a name, where `phase in phase_intervals`. -/
def phaseOf (name : String) : Option Phase := PHASES.find? fun phase => phase.name = name

inductive Action where
  | start | finish
  deriving DecidableEq, Repr

inductive EventKind where
  | usageDelta | terminalUsage | phaseMarker
  deriving DecidableEq, Repr

/-- `NormalizedAgentEvent` -/
structure Event where
  kind : EventKind
  usage : Option TokenUsage
  phase : Option String
  action : Option Action

/-- The `AgentRuntimeCapabilities` that the attribution depends on. -/
structure Capabilities where
  usageDelta : Bool
  usageDeltaObserved : Bool

/-- `_sum_phase_usages` -/
def sumPhaseUsages (usages : List TokenUsage) : TokenUsage := if usages = [] then .zero else sumTokenUsages usages

/-! ### The loop over the events -/

/-- The variables of the loop; the top of `invalid_stack` is its head here. -/
structure Tally where
  intervals : Phase → List (List TokenUsage)
  reasons : List String
  deltas : List TokenUsage
  active : Option (Phase × List TokenUsage)
  pending : Option TokenUsage
  invalid : List Phase

namespace Tally

def new (observationErrors : List String) : Tally := ⟨fun _ => [], observationErrors, [], none, none, []⟩

def note (tally : Tally) (reason : String) : Tally := { tally with reasons := tally.reasons ++ [reason] }

/-- A marker while phases that overlap are open. -/
def markInvalid (tally : Tally) (phase : Phase) : Action → Tally
  | .start => { tally.note "overlapping_phase" with invalid := phase :: tally.invalid, pending := none }
  | .finish =>
      if tally.invalid.head? = some phase then { tally with invalid := tally.invalid.tail, pending := none }
      else if tally.invalid.contains phase then
        { tally.note "mismatched_phase_end" with
          invalid := (tally.invalid.dropWhile (· ≠ phase)).tail, pending := none }
      else { tally.note "orphan_phase_end" with pending := none }

def mark (tally : Tally) (phase : Phase) (action : Action) : Tally :=
  if tally.invalid ≠ [] then tally.markInvalid phase action
  else
    match action, tally.active with
    | .start, none => { tally with active := some (phase, tally.pending.toList), pending := none }
    | .start, some (active, _) =>
        { tally.note "overlapping_phase" with invalid := [phase, active], active := none, pending := none }
    | .finish, none => { tally.note "orphan_phase_end" with pending := none }
    | .finish, some (active, spent) =>
        if active = phase then
          { tally with
            intervals := Function.update tally.intervals phase (tally.intervals phase ++ [spent]), active := none }
        else { tally.note "mismatched_phase_end" with invalid := [active], active := none }

def observe (tally : Tally) (usage : TokenUsage) : Tally :=
  if tally.invalid ≠ [] then { tally with deltas := tally.deltas ++ [usage] }
  else
    match tally.active with
    | some (phase, spent) =>
        { tally with deltas := tally.deltas ++ [usage], active := some (phase, spent ++ [usage]), pending := none }
    | none => { tally with deltas := tally.deltas ++ [usage], pending := some usage }

def add (tally : Tally) (event : Event) : Tally :=
  match event.kind, event.usage with
  | .usageDelta, some usage => tally.observe usage
  | .phaseMarker, _ =>
      match event.phase.bind phaseOf, event.action with
      | some phase, some action => tally.mark phase action
      | _, _ => { tally.note "invalid_phase_marker" with pending := none }
  | _, _ => tally

/-- The reasons after the loop. -/
def allReasons (tally : Tally) : List String :=
  if tally.active ≠ none ∨ tally.invalid ≠ [] then tally.reasons ++ ["unclosed_phase"] else tally.reasons

end Tally

/-! ### The summary of an attempt -/

inductive Reconciliation where
  | reconciled | unavailable | inconsistent
  deriving DecidableEq, Repr

structure PhaseEntry where
  usage : Option TokenUsage
  intervalCount : Nat
  measurement : Measurement
  reason : Option String
  intervals : Option (List TokenUsage)

def PhaseEntry.unobserved : PhaseEntry := ⟨none, 0, .unavailable, some "phase_not_observed", none⟩

structure Summary where
  terminalUsage : TokenUsage
  phases : Phase → PhaseEntry
  orchestration : Option TokenUsage
  unattributed : Option TokenUsage
  coverage : Option ℚ
  semanticPhaseCoverage : Option ℚ
  accountedCoverage : Option ℚ
  measurement : Measurement
  reconciliationStatus : Reconciliation
  reasonCodes : List String

/-- `sorted(set(reasons))` -/
def sortedSet (reasons : List String) : List String := reasons.dedup.mergeSort (· ≤ ·)

/-- The entry of a phase, by its intervals. -/
def entryOf (intervals : List (List TokenUsage)) : PhaseEntry :=
  if intervals = [] then .unobserved
  else
    let usage := sumPhaseUsages (intervals.map sumPhaseUsages)
    ⟨some usage, intervals.length, usage.measurement, none, some (intervals.map sumPhaseUsages)⟩

/-- A part as a share of the terminal total, rounded. -/
def share (part whole : Int) : Option ℚ :=
  if 0 < whole then some (roundTo 6 (trueDiv part whole)) else if part = 0 then some 1 else none

def summarizeUnobserved (terminal : TokenUsage) (capabilities : Capabilities) (observationErrors : List String) : Summary where
  terminalUsage := terminal
  phases := fun _ => .unobserved
  orchestration := none
  unattributed := if terminal.totalTokens.isSome then some terminal else none
  coverage := if terminal.totalTokens.isSome then some 0 else none
  semanticPhaseCoverage := if terminal.totalTokens.isSome then some 0 else none
  accountedCoverage := if terminal.totalTokens.isSome then some 0 else none
  measurement := .unavailable
  reconciliationStatus := if terminal.totalTokens.isSome then .reconciled else .unavailable
  reasonCodes := sortedSet (observationErrors ++
    [if ¬ capabilities.usageDelta then "backend_has_no_usage_delta" else "backend_usage_delta_unobserved"])

/-- The summary of a tally, or nothing where the subtraction raises. -/
def summarizeTally (tally : Tally) (terminal : TokenUsage) : Option Summary :=
  let phases := fun phase => entryOf (tally.intervals phase)
  let attributedUsages := PHASES.filterMap fun phase => (phases phase).usage
  let attributed := sumPhaseUsages attributedUsages
  let observedDelta := sumPhaseUsages tally.deltas
  let seen : Measurement := if attributedUsages ≠ [] then .partially else .unavailable
  match terminal.totalTokens, attributed.totalTokens, observedDelta.totalTokens with
  | none, attributedTotal, observedTotal => do
      let orchestration ←
        if observedTotal.isSome ∧ attributedTotal.isSome ∧ ¬ tokenUsageExceeds attributed observedDelta then
          (subtractTokenUsage observedDelta attributed).map some
        else some none
      pure
        { terminalUsage := terminal, phases, orchestration, unattributed := none, coverage := none
          semanticPhaseCoverage := none, accountedCoverage := none, measurement := seen
          reconciliationStatus := .unavailable
          reasonCodes := sortedSet (tally.allReasons ++ ["terminal_usage_unavailable"]) }
  | some terminalTotal, some attributedTotal, some _ =>
      if tokenUsageExceeds attributed terminal ∨ tokenUsageExceeds observedDelta terminal then
        some (inconsistent tally terminal phases)
      else do
        let orchestration ← subtractTokenUsage terminal attributed
        let coverage := share attributedTotal terminalTotal
        pure
          { terminalUsage := terminal, phases, orchestration := some orchestration, unattributed := some .zero
            coverage, semanticPhaseCoverage := coverage, accountedCoverage := some 1
            measurement :=
              if coverage = some 1 ∧ tally.allReasons = [] ∧ terminal.measurement = .exact ∧
                attributed.measurement = .exact then .exact else seen
            reconciliationStatus := .reconciled
            reasonCodes := sortedSet tally.allReasons }
  | some _, _, _ => some (inconsistent tally terminal phases)
where
  inconsistent (tally : Tally) (terminal : TokenUsage) (phases : Phase → PhaseEntry) : Summary :=
    { terminalUsage := terminal, phases, orchestration := none, unattributed := none, coverage := none
      semanticPhaseCoverage := none, accountedCoverage := none, measurement := .partially
      reconciliationStatus := .inconsistent
      reasonCodes := sortedSet (tally.allReasons ++ ["usage_delta_exceeds_terminal"]) }

/-- `summarize_phase_tokens`, or nothing where it raises. -/
def summarizePhaseTokens (events : List Event) (terminal : TokenUsage) (capabilities : Capabilities)
    (observationErrors : List String) : Option Summary :=
  if ¬ capabilities.usageDelta ∨ ¬ capabilities.usageDeltaObserved then
    some (summarizeUnobserved terminal capabilities observationErrors)
  else summarizeTally (events.foldl Tally.add (.new observationErrors)) terminal

/-! ### The aggregate over attempts -/

structure Aggregate extends Summary where
  attemptsWithTerminalUsage : Nat
  attemptCount : Nat

/-- A usage whose total is known. -/
def known (usage : Option TokenUsage) : Option TokenUsage := usage.filter fun usage => usage.totalTokens.isSome

/-- The known usage of a phase in each summary. -/
def usagesOf (phase : Phase) (summaries : List Summary) : List TokenUsage :=
  summaries.filterMap fun summary => known (summary.phases phase).usage

/-- The known usages of the phases of a summary. -/
def knownPhases (summary : Summary) : List TokenUsage :=
  PHASES.filterMap fun phase => known (summary.phases phase).usage

def aggregateEntry (phase : Phase) (summaries : List Summary) : PhaseEntry :=
  let usages := usagesOf phase summaries
  if usages = [] then .unobserved
  else
    let aggregate := sumPhaseUsages usages
    let aggregate :=
      if usages.length ≠ summaries.length then { aggregate with measurement := .partially } else aggregate
    let observed := summaries.filter fun summary => (known (summary.phases phase).usage).isSome
    ⟨some aggregate, (observed.map fun summary => (summary.phases phase).intervalCount).sum, aggregate.measurement,
      none, none⟩

def aggregateTerminal (observed : List TokenUsage) (attempts : Nat) : TokenUsage :=
  let terminal := if observed = [] then .unavailable else sumPhaseUsages observed
  if observed.length ≠ attempts ∧ terminal.totalTokens.isSome then { terminal with measurement := .partially }
  else terminal

/-- `aggregate_attempt_tokens`, on attempts whose `phase_tokens` are summaries or missing. -/
def aggregateAttemptTokens (attempts : List (Option Summary)) : Aggregate :=
  let summaries := attempts.reduceOption
  let settled := summaries.filter fun summary => summary.terminalUsage.totalTokens.isSome
  let terminal := aggregateTerminal (settled.map fun summary => summary.terminalUsage) attempts.length
  let phases := fun phase => aggregateEntry phase summaries
  let displayed := (sumPhaseUsages (PHASES.filterMap fun phase => (phases phase).usage)).totalTokens.getD 0
  let reasons := summaries.flatMap (fun summary => summary.reasonCodes) ++
    if settled.length ≠ attempts.length then ["attempt_terminal_usage_unavailable"] else []
  let attributed := sumPhaseUsages (settled.flatMap knownPhases)
  let attributedTotal := attributed.totalTokens.getD 0
  let exceeds := tokenUsageExceeds attributed terminal
  let inconsistent := settled.any fun summary => summary.reconciliationStatus = .inconsistent
  let reasons := if ¬ inconsistent ∧ terminal.totalTokens.isSome ∧ exceeds then
    reasons ++ ["usage_delta_exceeds_terminal"] else reasons
  let status : Reconciliation :=
    if inconsistent then .inconsistent
    else if terminal.totalTokens = none then .unavailable
    else if exceeds then .inconsistent else .reconciled
  let orchestration := sumPhaseUsages (settled.filterMap fun summary => known summary.orchestration)
  let unattributed := sumPhaseUsages (settled.filterMap fun summary => known summary.unattributed)
  let terminalTotal := terminal.totalTokens.getD 0
  let coverage := if status = .reconciled then share attributedTotal terminalTotal else none
  { terminalUsage := terminal, phases
    orchestration := if status = .reconciled then some orchestration else none
    unattributed := if status = .reconciled then some unattributed else none
    coverage, semanticPhaseCoverage := coverage
    accountedCoverage :=
      if status = .reconciled then share (attributedTotal + orchestration.totalTokens.getD 0) terminalTotal else none
    measurement :=
      if coverage = some 1 ∧ settled.length = attempts.length ∧ terminal.measurement = .exact ∧ reasons = [] then .exact
      else if displayed ≠ 0 then .partially else .unavailable
    reconciliationStatus := status, reasonCodes := sortedSet reasons
    attemptsWithTerminalUsage := settled.length, attemptCount := attempts.length }

end AtrexAgent.PhaseTokens
