import Mathlib

/-! `LongSessionRunner`: the loop that starts one Agent invocation after another until a handoff is complete or a
budget is used up, and `CampaignStore.record_usage`, to which it reports the tokens. -/

namespace AtrexAgent.LongSession

/-! ### The store -/

/-- `SupervisorState`, as far as `record_usage` changes it. -/
structure SupervisorState where
  tokens : Int
  usageReceipts : String → Option Int

/-- `state.usage_receipts.get(receipt_id, 0)` -/
def SupervisorState.receipt (state : SupervisorState) (receiptId : String) : Int :=
  (state.usageReceipts receiptId).getD 0

/-- `record_usage`; nothing where the durable write fails, which raises and leaves the state of the caller. -/
def SupervisorState.recordUsage (state : SupervisorState) (receiptId : String) (cumulativeTokens : Int)
    (written : Bool) : Option SupervisorState :=
  let previous := state.receipt receiptId
  let observed := max previous (max 0 cumulativeTokens)
  if written then
    some ⟨state.tokens + (observed - previous), fun other =>
      if other = receiptId then some observed else state.usageReceipts other⟩
  else none

/-! ### What the loop meets -/

structure EpisodeHandoff where
  status : String
  candidateCommit : String
  lastTrialCommit : String
  deriving DecidableEq, Repr

inductive FailureKind where
  | rateLimit | outputLimit | providerError
  deriving DecidableEq, Repr

inductive Purpose where
  | optimization | handoffResume | rateLimitRecovery | outputLimitRecovery
  deriving DecidableEq, Repr

/-- `NativeInvocation`, with what the adapters read in its output. -/
structure Turn where
  exitStatus : Int
  timedOut : Bool
  sessionId : String
  stdout : String
  stderr : String
  /-- `terminal_usage.total_tokens`; the counters that are read are never negative. -/
  totalTokens : Option Nat
  /-- `classify_terminal_failure` of the adapter of the CLI. -/
  failure : Option (FailureKind × String)
  /-- `_claude_transient_api_error` -/
  transientApiError : String
  deriving DecidableEq, Repr

/-- What `read_handoff` finds after a turn, with what is said of it: by the completion check, where there is a
handoff, and by `handoff_diagnosis`, where there is none. -/
inductive Terminal where
  | missing (diagnosis : String)
  | observed (handoff : EpisodeHandoff) (diagnosis : String)
  | raises
  deriving DecidableEq, Repr

/-- What one round of the loop finds, in the order in which it looks. -/
structure Round where
  /-- `current_budget().remaining` at the head of the loop. -/
  remaining : ℚ
  cancelled : Bool
  /-- `handoff_diagnosis` before a resume. -/
  diagnosis : String
  /-- Nothing where `invoke` raises. -/
  turn : Option Turn
  /-- Whether `record_usage` returns. -/
  written : Bool
  /-- Whether `raise_if_environment_blocked` raises. -/
  blocked : Bool
  terminal : Terminal
  /-- `current_budget().remaining` after the turn. -/
  remainingAfter : ℚ
  /-- Whether the wait before a retry is cancelled. -/
  waitCancelled : Bool
  /-- `recovery_prompt`; nothing where it raises. -/
  recoveryPrompt : Option String
  /-- The id of a fresh session; nothing where it cannot be opened. -/
  opened : Option String
  deriving DecidableEq

/-- The arguments of `_run`. -/
structure Arguments where
  agentCli : String
  prompt : String
  /-- `session_id or str(uuid.uuid4())` -/
  sessionId : String
  handoffResumes : Int
  outputLimitRecoveryRetries : Int
  remainingTokenBudget : Option Int
  /-- `ATREX_TELEMETRY_ATTEMPT_ID` -/
  telemetryAttemptPrefix : String
  deriving DecidableEq, Repr

inductive Failure where
  | value (message : String)
  | infrastructureUnavailable (message : String)
  | cancelled (message : String)
  | environmentBlocked
  | other
  deriving DecidableEq, Repr

/-- `InvocationObservation`, as far as the loop fills it. -/
structure InvocationObservation where
  totalTokens : Option Nat
  sessionId : String
  purpose : Purpose
  failureKind : Option FailureKind
  providerErrorCode : Option String
  deriving DecidableEq, Repr

structure SessionResult where
  exitStatus : Int
  timedOut : Bool
  tokens : Nat
  sessionId : String
  resumeCount : Nat
  handoff : Option EpisodeHandoff
  stdoutTail : String
  stderrTail : String
  completionDiagnosis : String
  invocations : List InvocationObservation
  outputLimitRecoveries : Nat
  deriving DecidableEq, Repr

/-- The variables of the loop. -/
structure Session where
  activeSessionId : String
  stdoutParts : List String
  stderrParts : List String
  totalTokens : Nat
  completionDiagnosis : String
  handoff : Option EpisodeHandoff
  exitStatus : Int
  timedOut : Bool
  resumeCount : Nat
  invocations : List InvocationObservation
  recoveries : Nat
  nextPrompt : Option String
  purpose : Purpose
  attempt : Nat
  rateLimitRetries : Nat
  retryResume : Bool
  deriving DecidableEq, Repr

/-! ### The head of the loop -/

/-- `supports_same_session_resume` -/
def supportsResume (agentCli : String) : Bool := agentCli = "claude" || agentCli = "codex"

/-- `value or otherwise`, for text -/
def orText (value otherwise : String) : String := if value = "" then otherwise else value

/-- `value or otherwise`, for a status -/
def orStatus (value otherwise : Int) : Int := if value = 0 then otherwise else value

def SIGTERM : Int := 15
def SIGKILL : Int := 9

/-- `total_tokens >= remaining_token_budget`, where there is one -/
def tokensSpent (arguments : Arguments) (tokens : Nat) : Bool :=
  match arguments.remainingTokenBudget with
  | some budget => budget ≤ tokens
  | none => false

def resumePrompt (diagnosis : String) : String :=
  "Continue the same long-horizon optimization episode. The previous turn did " ++
    "not satisfy the terminal contract: " ++ diagnosis ++ ". Resume concrete engineering " ++
    "work from the current draft. Submit tools/sandbox.py --kind episode-report; " ++
    "the Supervisor seals the candidate. Do not merely explain the problem. " ++
    "Correct the report fields indicated by Runtime feedback and resubmit " ++
    "episode-report. Do not create Git commits or hand-write a handoff."

inductive Head where
  | raises (failure : Failure)
  | breaks (session : Session)
  | starts (session : Session) (prompt : String) (resume : Bool)

/-- The loop up to the invocation. -/
def Session.head (arguments : Arguments) (session : Session) (round : Round) : Head :=
  if round.remaining ≤ 0 then
    if session.purpose = .rateLimitRecovery then
      .raises (.infrastructureUnavailable
        "Rate-limited Episode exhausted its active-time budget; draft preserved")
    else .breaks { session with
      timedOut := true
      exitStatus := orStatus session.exitStatus (-SIGKILL)
      completionDiagnosis := "Episode active-time budget exhausted; no continuation started" }
  else if round.cancelled then .raises (.cancelled "Search coordinator stopped this Episode")
  else if tokensSpent arguments session.totalTokens then
    if session.purpose = .rateLimitRecovery then
      .raises (.infrastructureUnavailable "Rate-limited Episode exhausted its token budget; draft preserved")
    else .breaks { session with
      completionDiagnosis := "Episode token budget exhausted; no continuation started"
      exitStatus := orStatus session.exitStatus 1 }
  else
    match session.nextPrompt with
    | some prompt => .starts { session with retryResume := false } prompt session.retryResume
    | none =>
        if max 0 arguments.handoffResumes ≤ session.resumeCount then .breaks session
        else if !supportsResume arguments.agentCli then
          .breaks { session with
            completionDiagnosis := orText session.completionDiagnosis
              (arguments.agentCli ++ " ended without a valid terminal handoff") }
        else if session.activeSessionId = "" then
          .breaks { session with
            completionDiagnosis := orText session.completionDiagnosis
              (arguments.agentCli ++ " ended without exposing a resumable session id") }
        else
          .starts { session with resumeCount := session.resumeCount + 1, purpose := .handoffResume }
            (resumePrompt (orText session.completionDiagnosis round.diagnosis)) true

/-- The value of `ATREX_TELEMETRY_ATTEMPT_ID` for an invocation. -/
def Session.attemptId (arguments : Arguments) (session : Session) : Option String :=
  if arguments.telemetryAttemptPrefix = "" then none
  else some (arguments.telemetryAttemptPrefix ++ "-" ++ toString (session.attempt + 1))

/-! ### After an invocation -/

/-- The `usage_policy` of the callers: `turn.terminal_usage.total_tokens or 0`. -/
def usagePolicy (turn : Turn) : Nat := turn.totalTokens.getD 0

/-- Only the output of two CLIs is classified. -/
def failureOf (arguments : Arguments) (turn : Turn) : Option (FailureKind × String) :=
  if arguments.agentCli = "claude" ∨ arguments.agentCli = "pi" then turn.failure else none

/-- The account of a turn. -/
def Session.account (arguments : Arguments) (session : Session) (turn : Turn) : Session :=
  let failure := failureOf arguments turn
  let active := orText turn.sessionId session.activeSessionId
  { session with
    attempt := session.attempt + 1
    nextPrompt := none
    exitStatus := if failure.isSome then orStatus turn.exitStatus 1 else turn.exitStatus
    stdoutParts := session.stdoutParts ++ [turn.stdout]
    stderrParts := session.stderrParts ++ [turn.stderr]
    activeSessionId := active
    totalTokens := session.totalTokens + usagePolicy turn
    invocations := session.invocations ++
      [⟨turn.totalTokens, active, session.purpose, failure.map Prod.fst, failure.map Prod.snd⟩]
    purpose :=
      if session.purpose = .rateLimitRecovery ∧ failure.map Prod.fst ≠ some .rateLimit then .optimization
      else session.purpose }

inductive Next where
  | continues (session : Session)
  | breaks (session : Session)
  | raises (failure : Failure)

/-- `str.isspace`, for one character -/
def isSpace (c : Char) : Bool :=
  let n := c.toNat
  (9 ≤ n && n ≤ 13) || (28 ≤ n && n ≤ 32) || n = 133 || n = 160 || n = 5760 || (8192 ≤ n && n ≤ 8202) ||
    n = 8232 || n = 8233 || n = 8239 || n = 8287 || n = 12288

def rstrip (text : String) : String := String.ofList (text.toList.reverse.dropWhile isSpace).reverse

def continuation : String :=
  "Continue the SAME optimization Episode after provider throttling. " ++
    "Preserve the existing kernel/source tree and scratch. Inspect saved progress " ++
    "and reconcile existing Runtime/Gateway results before repeating work. " ++
    "Finish the existing episode-report contract; do not reset the candidate."

/-- The provider has limited the rate: the session is resumed, or begun anew where it cannot be. -/
def Session.retryRateLimit (arguments : Arguments) (session : Session) (round : Round) : Next :=
  let session := { session with rateLimitRetries := session.rateLimitRetries + 1, purpose := .rateLimitRecovery }
  if round.remainingAfter ≤ 0 ∨ tokensSpent arguments session.totalTokens then
    .raises (.infrastructureUnavailable "Rate-limited Episode reached its budget; draft preserved")
  else if round.waitCancelled then .raises (.cancelled "Search coordinator stopped rate-limit recovery")
  else if supportsResume arguments.agentCli ∧ session.activeSessionId ≠ "" then
    .continues { session with nextPrompt := some continuation, retryResume := true }
  else
    match round.opened with
    | none => .raises .other
    | some fresh => .continues { session with
        activeSessionId := fresh
        nextPrompt := some (rstrip arguments.prompt ++ "\n\n" ++ continuation) }

/-- The response was longer than the limit: a fresh session goes on, as often as it may. -/
def Session.recoverOutputLimit (arguments : Arguments) (session : Session) (turn : Turn) (round : Round) : Next :=
  let diagnosis := "Claude max_output_tokens: response output limit exceeded; " ++ toString session.recoveries ++
    "/" ++ toString arguments.outputLimitRecoveryRetries ++ " fresh-session recoveries used"
  if session.exitStatus ≠ 1 ∨ arguments.outputLimitRecoveryRetries ≤ session.recoveries then
    .breaks { session with completionDiagnosis := diagnosis }
  else if turn.totalTokens = none then
    .breaks { session with
      completionDiagnosis := diagnosis ++ "; usage unavailable, cannot safely extend execution" }
  else if tokensSpent arguments session.totalTokens then
    .breaks { session with completionDiagnosis := diagnosis ++ "; Episode token budget exhausted" }
  else
    match round.recoveryPrompt, round.opened with
    | some prompt, some fresh => .continues { session with
        completionDiagnosis := diagnosis
        recoveries := session.recoveries + 1
        nextPrompt := some prompt
        activeSessionId := fresh
        purpose := .outputLimitRecovery }
    | _, _ => .raises .other

/-- Whether the session may be resumed to repair the handoff. -/
def Session.canResume (arguments : Arguments) (session : Session) : Bool :=
  session.activeSessionId ≠ "" && supportsResume arguments.agentCli &&
    session.resumeCount < max 0 arguments.handoffResumes

/-- The CLI has failed without a handoff. -/
def Session.recoverExit (arguments : Arguments) (session : Session) (turn : Turn) (round : Round) : Next :=
  if (failureOf arguments turn).map Prod.fst = some .outputLimit then
    session.recoverOutputLimit arguments turn round
  else
    let externallyTerminated := session.exitStatus = -SIGTERM || session.exitStatus = 128 + SIGTERM
    let transient := if arguments.agentCli = "claude" then turn.transientApiError else ""
    if (externallyTerminated || transient ≠ "") && session.canResume arguments then
      .continues { session with
        completionDiagnosis :=
          if transient ≠ "" then
            "Claude coding session hit transient " ++ transient ++ " before publishing a valid handoff"
          else "coding session received SIGTERM before publishing a valid handoff" }
    else .breaks session

/-- An error of the provider is the diagnosis. -/
def Session.diagnoseFailure (session : Session) (failure : Option (FailureKind × String)) : Session :=
  match failure with
  | some (.providerError, code) => { session with completionDiagnosis := "Provider session failed: " ++ code }
  | _ => session

/-- What the loop does without a complete handoff. -/
def Session.recover (arguments : Arguments) (session : Session) (turn : Turn) (round : Round) : Next :=
  let failure := failureOf arguments turn
  if failure.map Prod.fst = some .rateLimit ∧ !session.timedOut then session.retryRateLimit arguments round
  else
    let session := session.diagnoseFailure failure
    if session.timedOut then
      if round.remainingAfter ≤ 0 then
        .breaks { session with
          completionDiagnosis := "Episode active-time budget exhausted; no continuation started" }
      else if session.canResume arguments then
        .continues { session with
          completionDiagnosis := "coding session timed out before a valid terminal handoff" }
      else .breaks session
    else if session.exitStatus ≠ 0 then session.recoverExit arguments turn round
    else .continues session

/-- The loop from the handoff on. -/
def Session.settle (arguments : Arguments) (session : Session) (turn : Turn) (round : Round) : Next :=
  let session := { session with timedOut := turn.timedOut }
  match round.terminal with
  | .raises => .raises .other
  | .observed handoff diagnosis =>
      if diagnosis = "" then
        .breaks { session with
          completionDiagnosis := ""
          handoff := some handoff
          exitStatus := 0
          timedOut := false }
      else { session with completionDiagnosis := diagnosis }.recover arguments turn round
  | .missing diagnosis => { session with completionDiagnosis := diagnosis }.recover arguments turn round

/-! ### Runs -/

/-- The last 4000 characters of the joined parts. -/
def tail (parts : List String) : String :=
  let joined := ("\n".intercalate parts).toList
  String.ofList (joined.drop (joined.length - 4000))

def Session.result (arguments : Arguments) (session : Session) : SessionResult :=
  ⟨session.exitStatus, session.timedOut, session.totalTokens, orText session.activeSessionId arguments.sessionId,
    session.resumeCount, session.handoff, tail session.stdoutParts, tail session.stderrParts,
    session.completionDiagnosis, session.invocations, session.recoveries⟩

def Session.initial (arguments : Arguments) : Session where
  activeSessionId := if arguments.agentCli = "codex" then "" else arguments.sessionId
  stdoutParts := []
  stderrParts := []
  totalTokens := 0
  completionDiagnosis := ""
  handoff := none
  exitStatus := 0
  timedOut := false
  resumeCount := 0
  invocations := []
  recoveries := 0
  nextPrompt := some arguments.prompt
  purpose := .optimization
  attempt := 0
  rateLimitRetries := 0
  retryResume := false

/-- An invocation that was started, with what its round found. -/
structure Invocation where
  prompt : String
  resume : Bool
  purpose : Purpose
  attemptId : Option String
  round : Round
  deriving DecidableEq

inductive Status where
  | running (session : Session)
  | returned (result : SessionResult)
  | raised (failure : Failure)
  deriving DecidableEq

/-- A run up to a round: the invocations that were started, the last one first, and the totals that `record_usage`
has taken, in their order. -/
structure Run where
  status : Status
  log : List Invocation
  reports : List Nat
  deriving DecidableEq

def Run.start (arguments : Arguments) : Run :=
  if 0 ≤ arguments.outputLimitRecoveryRetries ∧ arguments.outputLimitRecoveryRetries ≤ 10 then
    ⟨.running (.initial arguments), [], []⟩
  else ⟨.raised (.value "output_limit_recovery_retries must be an integer from 0 to 10"), [], []⟩

/-- The rest of a round whose invocation was started. -/
def Session.invoked (arguments : Arguments) (session : Session) (log : List Invocation) (reports : List Nat)
    (round : Round) : Run :=
  match round.turn with
  | none => ⟨.raised .other, log, reports⟩
  | some turn =>
      let session := session.account arguments turn
      if !round.written then ⟨.raised .other, log, reports⟩
      else
        let reports := reports ++ [session.totalTokens]
        if round.blocked then ⟨.raised .environmentBlocked, log, reports⟩
        else
          match session.settle arguments turn round with
          | .continues session => ⟨.running session, log, reports⟩
          | .breaks session => ⟨.returned (session.result arguments), log, reports⟩
          | .raises failure => ⟨.raised failure, log, reports⟩

/-- One round of the loop. -/
def Run.advance (arguments : Arguments) (run : Run) (round : Round) : Run :=
  match run.status with
  | .running session =>
      match session.head arguments round with
      | .raises failure => ⟨.raised failure, run.log, run.reports⟩
      | .breaks session => ⟨.returned (session.result arguments), run.log, run.reports⟩
      | .starts session prompt resume =>
          session.invoked arguments
            (⟨prompt, resume, session.purpose, session.attemptId arguments, round⟩ :: run.log) run.reports round
  | _ => run

/-- `_run`, as far as some rounds go. -/
def runRounds (arguments : Arguments) (rounds : List Round) : Run :=
  rounds.foldl (Run.advance arguments) (.start arguments)

end AtrexAgent.LongSession
