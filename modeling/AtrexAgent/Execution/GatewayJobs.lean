import Mathlib.Data.Rat.Floor
import AtrexAgent.Library.Interaction

/-! Physical-job recovery: `execute_job` polls known job ids and resubmits after
confirmed rejections and infrastructure outcomes. The submit and poll transports,
the clock and the checkpoint file are the world it acts on. -/

namespace AtrexAgent.Gateway

open AtrexAgent.Interaction
open AtrexAgent.Interaction.Program

/-! ### What the loop reads off a completed process -/

inductive RetryKind where
  | transport | submission | infra | device
  deriving DecidableEq, Repr

structure JobError where
  errorClass : Option String
  reason : Option String
  deriving DecidableEq, Repr

/-- A job object. A field that is absent or no string is `none`, and so is an
`error` that is falsy or no object. -/
structure Job where
  jobId : Option String
  status : Option String
  error : Option JobError
  /-- Does `embedded_device_failure` return a diagnostic? -/
  deviceFailure : Bool
  deriving DecidableEq, Repr

/-- A completed process as the loop reads it. -/
structure Process where
  /-- `job_from_process`. -/
  job : Option Job
  /-- `submission_rejection`, with the HTTP status it found. -/
  rejection : Option (Option Nat)
  /-- `request_is_infrastructure`. -/
  infrastructure : Bool
  deriving DecidableEq, Repr

/-- `SubmissionRejected`. -/
structure Rejection where
  process : Process
  status : Option Nat
  deriving DecidableEq, Repr

def Rejection.retryable (r : Rejection) : Bool :=
  r.status = some 408 ∨ r.status = some 429 ∨ r.status = some 503 ∨ r.process.infrastructure

def retryDelay (count : Nat) : ℚ := if count < 5 then 5 * 2 ^ (count - 1) else 60

def retryKind : Option Job → Option RetryKind
  | none => none
  | some job =>
      if job.status ≠ some "failed" then none
      else match job.error with
        | none => none
        | some error => if error.errorClass = some "infra" then some .infra else none

def Job.terminal (job : Job) : Bool :=
  job.status = some "succeeded" ∨ job.status = some "failed" ∨
    job.status = some "cancelled" ∨ job.status = some "canceled"

/-- The job id of an accepted submission: a string, and not empty. -/
def Process.confirmedId (process : Process) : Option String :=
  match process.job with
  | none => none
  | some job => job.jobId.filter (· ≠ "")

/-! ### Checkpoints -/

inductive Phase where
  | submitting | accepted | rejected | terminal | retryPending
  deriving DecidableEq, Repr

structure Retries where
  transport : Nat
  submission : Nat
  infra : Nat
  device : Nat
  deriving DecidableEq, Repr

def Retries.bump (r : Retries) : RetryKind → Retries
  | .transport => { r with transport := r.transport + 1 }
  | .submission => { r with submission := r.submission + 1 }
  | .infra => { r with infra := r.infra + 1 }
  | .device => { r with device := r.device + 1 }

/-- `sum(retries.values())`. -/
def Retries.total (r : Retries) : Nat := r.transport + r.submission + r.infra + r.device

/-- The content of `state.json`. -/
structure Checkpoint where
  phase : Phase
  submission : Nat
  retries : Retries
  identity : String
  idempotencyKey : Option String
  process : Option Process
  deriving DecidableEq, Repr

structure Config where
  identity : String
  waitBudget : ℚ
  retryClassifier : Option Job → Option RetryKind
  maxRetries : Option Int
  maxInfraRetries : Option Int
  idempotentSubmission : Bool
  maxDeviceRetries : Option Int
  deviceRetryDelay : Option ℚ
  maxWaitRetries : Int
  /-- Is there a job root, hence a directory to keep checkpoints in? -/
  directory : Bool

/-! ### The world -/

/-- What the loop prints. -/
inductive Notice where
  | waitRecovery
  | priorSubmission
  | sameKey
  | resubmitting (kind : RetryKind)
  deriving DecidableEq, Repr

inductive Op where
  | monotonic
  | uuid
  | read
  | write (checkpoint : Checkpoint)
  | submit (key : Option String)
  | poll (process : Process) (seconds : Int) (recoveryProbe : Bool)
  | sleep (seconds : ℚ)
  | print (notice : Notice)

inductive Submitted where
  | returned (process : Process)
  | rejected (rejection : Rejection)
  | uncertain (process : Process)
  | raised
  deriving DecidableEq, Repr

inductive Polled where
  | returned (process : Process)
  | missing (jobId : String)
  | unavailable
  | raised
  deriving DecidableEq, Repr

abbrev Answer : Op → Type
  | .monotonic => ℚ
  | .uuid => String
  | .read => Option Checkpoint
  | .submit _ => Submitted
  | .poll _ _ _ => Polled
  | _ => Unit

inductive Event where
  | submitted (key : Option String)
  | recorded (phase : Phase) (key : Option String)
  | printed (notice : Notice)
  deriving DecidableEq, Repr

/-- `log` is a history variable, newest first. -/
structure World where
  clock : ℚ
  disk : Option Checkpoint
  log : List Event

/-- Any clock that advances by at least each requested sleep, and transports that
answer as they like. -/
inductive Effect : World → (op : Op) → World → Answer op → Prop
  | monotonic {w : World} {time : ℚ} : w.clock ≤ time →
      Effect w .monotonic { w with clock := time } time
  | uuid {w : World} {hex : String} : hex ≠ "" → Effect w .uuid w hex
  | read {w : World} : Effect w .read w w.disk
  | write {w : World} {c : Checkpoint} : Effect w (.write c)
      { w with disk := some c, log := .recorded c.phase c.idempotencyKey :: w.log } ()
  | submit {w : World} {key : Option String} {time : ℚ} {answer : Submitted} : w.clock ≤ time →
      Effect w (.submit key) { w with clock := time, log := .submitted key :: w.log } answer
  | poll {w : World} {process : Process} {seconds : Int} {probe : Bool} {time : ℚ}
      {answer : Polled} : w.clock ≤ time →
      Effect w (.poll process seconds probe) { w with clock := time } answer
  | sleep {w : World} {seconds time : ℚ} : w.clock + seconds ≤ time →
      Effect w (.sleep seconds) { w with clock := time } ()
  | print {w : World} {notice : Notice} :
      Effect w (.print notice) { w with log := .printed notice :: w.log } ()

/-- How an invocation ends. -/
inductive Stop where
  | returned (process : Process)
  | valueError (message : String)
  | evidenceUnavailable (message : String)
  | deviceUnavailable (message : String)
  | keyError (key : String)
  | transportError
  deriving DecidableEq, Repr

abbrev Prog := Program Op Answer Stop

/-- The variables of the loop. -/
structure Variables where
  deadline : ℚ
  waitRetries : Int
  probeSavedJob : Bool
  submission : Nat
  retries : Retries
  wireKey : String
  state : Option Checkpoint
  rejection : Option Rejection

def monotonic : Prog ℚ := perform Op.monotonic

def sleep (seconds : ℚ) : Prog Unit :=
  if seconds < 0 then stop (.valueError "sleep length must be non-negative")
  else perform (Op.sleep seconds)

section ExecuteJob

-- `sha256` is the hex digest of a string.
variable (sha256 : String → String) (cfg : Config)

def Variables.checkpoint (v : Variables) (phase : Phase) (process : Option Process) :
    Checkpoint where
  phase := phase
  submission := v.submission
  retries := v.retries
  identity := cfg.identity
  idempotencyKey := if cfg.idempotentSubmission then some v.wireKey else none
  process := process

def save (v : Variables) (phase : Phase) (process : Option Process) : Prog Checkpoint := do
  let value := v.checkpoint cfg phase process
  if cfg.directory then
    let _ ← perform (Op.write value)
    pure value
  else pure value

/-- The job id in the saved process, if it has one. -/
def savedJobId (state : Option Checkpoint) : Option String :=
  state.bind fun c => c.process.bind Process.confirmedId

/-- The key of a submission that must not resolve to the job before it. -/
def waitRetryKey (wireKey : String) (previousJobId : Option String) : String :=
  "wait-retry:" ++ sha256 ((previousJobId.filter (· ≠ "")).getD wireKey)

/-- One fresh wait window, or `none` where no wait recovery is left. -/
def retryWait (v : Variables) (previousJobId : Option String) : Prog (Option Variables) := do
  if cfg.maxWaitRetries ≤ v.waitRetries then pure none
  else do
    let now ← monotonic
    let v := { v with
      waitRetries := v.waitRetries + 1
      deadline := now + cfg.waitBudget
      wireKey := if cfg.idempotentSubmission then waitRetryKey sha256 v.wireKey previousJobId
        else v.wireKey }
    let state ← save cfg v .retryPending none
    let _ ← perform (Op.print .waitRecovery)
    pure (some { v with state := some state })

def resubmitDelay (kind : RetryKind) (retries : Retries) : ℚ :=
  match kind, cfg.deviceRetryDelay with
  | .device, some delay => delay
  | _, _ => retryDelay retries.total

/-- The end of a turn: stop with `process`, or resubmit after a delay. -/
def resubmit (v : Variables) (kind : Option RetryKind) (process : Process) : Prog Variables :=
  match kind with
  | none => stop (.returned process)
  | some kind =>
      if (kind = .infra ∧ ∃ m ∈ cfg.maxInfraRetries, m ≤ v.retries.infra) ∨
          ∃ m ∈ cfg.maxRetries, m ≤ v.retries.total then stop (.returned process)
      else do
        let v := { v with retries := v.retries.bump kind }
        let delay := resubmitDelay cfg kind v.retries
        let now ← monotonic
        if v.deadline - now ≤ delay then
          if kind = .device then stop (.deviceUnavailable
            "Evaluation device unavailable; retry deadline reached. No Kernel verdict was recorded.")
          else stop (.returned process)
        else do
          let _ ← perform (Op.print (.resubmitting kind))
          let state ← save cfg v .retryPending none
          sleep delay
          pure { v with state := some state }

/-- The key of the resubmission that a terminal job is retried by. -/
def jobRetryKey (kind : RetryKind) (job : Job) (jobId : String) : String :=
  (if kind = .device then "eval-device-retry:"
    else if (job.error.bind JobError.reason) = some "logs_unavailable" then "logs-retry:"
    else "infra-retry:") ++ sha256 jobId

/-- What to do about a job seen terminal. -/
def classify (v : Variables) (process : Process) : Prog Variables := do
  let kind := cfg.retryClassifier process.job
  let diagnostic := cfg.maxDeviceRetries.isSome ∧ ∃ job ∈ process.job, job.deviceFailure
  if kind = none ∧ diagnostic ∧ ∃ m ∈ cfg.maxDeviceRetries, m ≤ v.retries.device then
    stop (.deviceUnavailable
      "Evaluation device unavailable; automatic retries exhausted. No Kernel correctness verdict was recorded. Ask the operator to restore GPU availability.")
  else
    match if kind = none ∧ diagnostic then some .device else kind with
    | none => resubmit cfg v none process
    | some kind =>
        if cfg.idempotentSubmission then
          match process.job with
          | none => stop (.keyError "job_id")
          | some job =>
              match job.jobId with
              | none => stop (.keyError "job_id")
              | some jobId =>
                  resubmit cfg { v with wireKey := jobRetryKey sha256 kind job jobId }
                    (some kind) process
        else resubmit cfg v (some kind) process

def rejected (v : Variables) (rejection : Rejection) : Prog Variables := do
  let state ← save cfg v .rejected (some rejection.process)
  if rejection.retryable then
    resubmit cfg { v with state := some state, rejection := none } (some .submission)
      rejection.process
  else stop (.returned rejection.process)

/-- A fresh wait window after a poll without a terminal job, or the end. -/
def recover (v : Variables) (previousJobId : Option String) (otherwise : Stop) :
    Prog Variables := do
  match ← retryWait sha256 cfg v previousJobId with
  | some v => pure v
  | none => stop otherwise

/-- `int(seconds)`, which rounds towards zero. -/
def truncate (seconds : ℚ) : Int := if 0 ≤ seconds then ⌊seconds⌋ else ⌈seconds⌉

/-- Poll the accepted job of `process`. -/
def collect (v : Variables) (process : Process) : Prog Variables := do
  let probe := v.probeSavedJob
  let v := { v with probeSavedJob := false }
  let now ← monotonic
  match ← (perform (Op.poll process (max 1 (truncate (v.deadline - now))) probe) : Prog Polled) with
  | .raised => stop .transportError
  | .missing jobId => recover sha256 cfg v (some jobId) (.evidenceUnavailable
      "Accepted Gateway Job is missing after automatic recovery; saved request requires reconciliation")
  | .unavailable => recover sha256 cfg v (process.job.bind Job.jobId) (.evidenceUnavailable
      "Saved Gateway Job could not be read by the recovery probe")
  | .returned result =>
      if ∃ job ∈ result.job, job.terminal then do
        let state ← save cfg v .terminal (some result)
        classify sha256 cfg { v with state := some state } result
      else if result.rejection = some (some 404) ∧ (savedJobId v.state).isSome then
        recover sha256 cfg v (savedJobId v.state) (.returned result)
      else
        recover sha256 cfg v
          (match result.job with
            | some job => job.jobId
            | none => savedJobId v.state) (.returned result)

/-- An uncertain submission is repeated under the same key. -/
def uncertain (v : Variables) (process : Process) : Prog Variables := do
  let _ ← save cfg v .submitting (some process)
  if cfg.idempotentSubmission then do
    let v := { v with retries := v.retries.bump .transport }
    let _ ← save cfg v .submitting (some process)
    let delay := retryDelay v.retries.transport
    let now ← monotonic
    if v.deadline - now ≤ delay then stop (.evidenceUnavailable
      "Gateway submission pending reconciliation; retry deadline reached")
    else do
      let _ ← perform (Op.print .sameKey)
      sleep delay
      pure v
  else stop (.returned process)

def confirm (v : Variables) (process : Process) : Prog Variables :=
  match process.confirmedId, process.rejection with
  | some _, _ => do
      let state ← save cfg v .accepted (some process)
      collect sha256 cfg { v with state := some state } process
  | none, some status => rejected cfg v ⟨process, status⟩
  | none, none => uncertain cfg v process

def submitNext (v : Variables) : Prog Variables := do
  let v := { v with submission := v.submission + 1 }
  let _ ← save cfg v .submitting none
  let key := if cfg.idempotentSubmission then some v.wireKey else none
  match ← (perform (Op.submit key) : Prog Submitted) with
  | .raised => stop .transportError
  | .rejected rejection => rejected cfg v rejection
  | .uncertain process => confirm sha256 cfg v process
  | .returned process => confirm sha256 cfg v process

/-- One turn of `while True`. -/
def turn (v : Variables) : Prog Variables := do
  let now ← monotonic
  if v.deadline - now ≤ 0 then
    recover sha256 cfg v (savedJobId v.state) (.evidenceUnavailable
      "Gateway request retry/poll deadline reached; saved Job state requires reconciliation")
  else
    match v.rejection with
    | some rejection => rejected cfg v rejection
    | none =>
        match v.state.map Checkpoint.phase, v.state.bind Checkpoint.process with
        | some .accepted, some process => collect sha256 cfg v process
        | some .terminal, some process => classify sha256 cfg v process
        | some .accepted, none => stop (.keyError "process")
        | some .terminal, none => stop (.keyError "process")
        | _, _ => submitNext sha256 cfg v

/-- The saved submission that has no outcome, with what follows from it. -/
def resume (v : Variables) : Prog Variables :=
  match v.state with
  | none => pure v
  | some c =>
      if c.phase ≠ .submitting then pure v
      else
        match c.process.bind fun process => process.rejection.map (Rejection.mk process) with
        | some rejection => pure { v with rejection := some rejection }
        | none =>
            if cfg.idempotentSubmission then pure v
            else if cfg.maxWaitRetries ≤ v.waitRetries then stop (.evidenceUnavailable
              "Prior Gateway submission has no confirmed job ID and automatic resubmission is disabled")
            else do
              let v := { v with waitRetries := v.waitRetries + 1 }
              let state ← save cfg v .retryPending none
              let _ ← perform (Op.print .priorSubmission)
              pure { v with state := some state }

def readState : Prog (Option Checkpoint) :=
  if cfg.directory then perform Op.read else pure none

/-- From the saved state to the variables of the loop. -/
def prepare (state : Option Checkpoint) : Prog Variables := do
  if ∃ c ∈ state, c.identity ≠ cfg.identity then stop (.evidenceUnavailable
    "Gateway job checkpoint identity is inconsistent; operator reconciliation required")
  else do
    let now ← monotonic
    let saved := (state.bind Checkpoint.idempotencyKey).filter (· ≠ "")
    if cfg.idempotentSubmission ∧ saved = none ∧
        state.map Checkpoint.phase = some .submitting then stop (.evidenceUnavailable
      "Old submission has no persisted wire key; operator reconciliation required")
    else do
      let wireKey ← match saved with
        | some key => pure key
        | none => (perform Op.uuid : Prog String)
      resume cfg
        { deadline := now + cfg.waitBudget
          waitRetries := 0
          probeSavedJob := state.map Checkpoint.phase = some .accepted
          submission := (state.map Checkpoint.submission).getD 0
          retries := (state.map Checkpoint.retries).getD ⟨0, 0, 0, 0⟩
          wireKey := wireKey
          state := state
          rejection := none }

/-- `execute_job` up to its loop. -/
def executeJob : Prog Variables := do
  if cfg.maxWaitRetries < 0 then stop (.valueError "max_wait_retries must be non-negative")
  else if ∃ m ∈ cfg.maxInfraRetries, m < 0 then
    stop (.valueError "max_infra_retries must be non-negative")
  else do
    let state ← readState cfg
    prepare cfg state

end ExecuteJob

end AtrexAgent.Gateway
