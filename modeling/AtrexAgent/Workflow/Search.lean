import Mathlib.Data.Rat.Defs
import Mathlib.Algebra.Order.Ring.Rat
import AtrexAgent.Library.Transition

/-! `PooledSearch`: a coordinator thread that keeps its state in one file, a pool
of threads that run one Episode each, and crashes at any point between two of its
writes. A completed Epoch publishes the fastest Kernel. -/

namespace AtrexAgent.Search

open AtrexAgent.Transition

/-- `SearchOptions`, with the ranges `__post_init__` checks. -/
structure SearchOptions where
  epochs : Nat
  trajectories : Nat
  episodesPerTrajectory : Nat
  maxParallelEpisodes : Nat
  epochs_range : 1 ≤ epochs ∧ epochs ≤ 10000
  trajectories_range : 1 ≤ trajectories ∧ trajectories ≤ 64
  episodes_range : 1 ≤ episodesPerTrajectory ∧ episodesPerTrajectory ≤ 100
  parallel_range : 1 ≤ maxParallelEpisodes ∧ maxParallelEpisodes ≤ 64
  parallel_le : maxParallelEpisodes ≤ trajectories
  deriving DecidableEq

/-- The value under `latency_us_geomean`: a finite number, or one of those that
`latency` refuses whatever they are. -/
inductive Metric where
  | finite (value : ℚ)
  | nonfinite
  | notNumber
  deriving DecidableEq

structure Kernel where
  workspace : String
  commit : String
  sha256 : String
  record : String
  trajectory : Nat
  episode : Nat
  latencyUsGeomean : Metric
  deriving DecidableEq

inductive SearchError where
  | latency
  | configuration
  | identity
  | missingKey
  | raised
  deriving DecidableEq, Repr

def SearchError.message : SearchError → Option String
  | .latency => some "Search selection requires a finite positive authoritative GeoMean latency"
  | .configuration => some ("Search configuration or Campaign contract changed; " ++
      "resume with the original configuration")
  | .identity => some "Episode result does not match its scheduled identity"
  | .missingKey => none
  | .raised => none

def latency (kernel : Kernel) : Except SearchError ℚ :=
  match kernel.latencyUsGeomean with
  | .finite value => if value ≤ 0 then .error .latency else .ok value
  | .nonfinite => .error .latency
  | .notNumber => .error .latency

inductive JobStatus where
  | pending
  | running
  | completed
  deriving DecidableEq, Repr

structure JobResult where
  epoch : Nat
  trajectory : Nat
  episode : Nat
  retainedKernel : Option Kernel
  deriving DecidableEq

structure Job where
  epoch : Nat
  trajectory : Nat
  step : Nat
  episode : Nat
  status : JobStatus
  result : Option JobResult
  deriving DecidableEq

inductive Phase where
  | preparing
  | running
  | publishing
  deriving DecidableEq, Repr

structure Active where
  epoch : Nat
  seed : Kernel
  phase : Phase
  jobs : List Job
  winner : Option Kernel
  deriving DecidableEq

/-- What `state.json` holds. -/
structure State where
  schemaVersion : Nat
  options : SearchOptions
  binding : String
  tokenBudget : Nat
  bootstrap : Kernel
  seed : Kernel
  epoch : Nat
  active : Option Active
  completedEpochs : Nat
  consecutiveWithoutImprovement : Option Nat
  stopReason : Option String
  deriving DecidableEq

/-- The coordinator with its injected driver: `identity` and `stop_reason` are the
driver's pure answers, the rest of it acts by events. -/
structure PooledSearch where
  options : SearchOptions
  identity : String
  tokenBudget : Nat
  stopReason : State → String

/-- `min(best :: others, key=latency)`: the first of the least. -/
def fastest (best : Kernel) : List Kernel → Except SearchError Kernel
  | [] => .ok best
  | candidate :: others => do
      let incumbent ← latency best
      let challenger ← latency candidate
      fastest (if challenger < incumbent then candidate else best) others

def retained : List Job → Except SearchError (List Kernel)
  | [] => .ok []
  | job :: jobs =>
      match job.result with
      | none => .error .missingKey
      | some result =>
          match result.retainedKernel with
          | none => retained jobs
          | some candidate => do
              let _ ← latency candidate
              let others ← retained jobs
              .ok (candidate :: others)

def selectWinner (seed : Kernel) (jobs : List Job) : Except SearchError Kernel := do
  let candidates ← retained jobs
  let _ ← latency seed
  fastest seed candidates

/-- The jobs of a new Epoch: all trajectories of its first step, then of the next. -/
def plan (options : SearchOptions) (epoch : Nat) : List Job :=
  (List.range options.episodesPerTrajectory).flatMap fun step =>
    (List.range options.trajectories).map fun trajectory =>
      { epoch, trajectory := trajectory + 1, step := step + 1,
        episode := (epoch - 1) * options.episodesPerTrajectory + (step + 1),
        status := .pending, result := none }

/-- What the outside can see of a run: the calls of the driver, the archived
summaries, and what each write of `state.json` changed. -/
inductive Event where
  | loaded
  | initialized (bootstrap : Kernel)
  | seeded (seed : Kernel)
  | opened (epoch : Nat) (seed : Kernel)
  | prepared (epoch : Nat) (seed : Kernel)
  | marked (trajectory episode : Nat)
  | started (trajectory episode : Nat) (reading : Option Nat) (tokens : Nat)
  | recorded (trajectory episode : Nat) (result : JobResult)
  | published (epoch : Nat) (seed winner : Kernel)
  | archived (epoch : Nat) (winner : Kernel) (tokens : Nat)
  | closed (epoch : Nat) (seed winner : Kernel)
  deriving DecidableEq

/-- How a pool thread ended: with a result, an `Exception`, or a `BaseException`. -/
inductive Ending where
  | returned (result : JobResult)
  | failed
  | fatal
  deriving DecidableEq

/-- A future of `running` with the index of its job. -/
structure Worker where
  job : Nat
  ending : Option Ending
  deriving DecidableEq

/-- Where the coordinator stands: before its next write, driver call or test. -/
inductive Point where
  | create
  | check
  | resume
  | head
  | prepare
  | prepared
  | dispatch (index : Nat)
  | admitted (index : Nat) (reading : Option Nat)
  | submit (index : Nat) (reading : Option Nat)
  | wait
  | collect (done : List Nat)
  | select
  | publish
  | summarize
  | close
  | leave
  deriving DecidableEq

structure Coordinator where
  state : State
  point : Point
  running : List Worker
  failure : Option SearchError
  deriving DecidableEq

inductive Process where
  | absent
  | loading
  | coordinating (k : Coordinator)
  deriving DecidableEq

/-- The file, the process that holds the lock (with its pool), the tokens that the
trajectories have recorded, and the history. -/
structure Config where
  disk : Option State
  process : Process
  tokens : Nat
  log : List Event
  deriving DecidableEq

/-- The coordinator's next operation: a local step, a `_save` of the state it goes
on with, a call of the driver, the end of `_run`, an exception, or nothing before a
future is done. -/
inductive Operation where
  | go (next : Coordinator)
  | save (next : Coordinator)
  | call (event : Event) (next : Coordinator)
  | exit
  | raise
  | block
  deriving DecidableEq

namespace Job

def complete (result : JobResult) (job : Job) : Job :=
  { job with status := .completed, result := some result }

def mark (job : Job) : Job := { job with status := .running }

/-- An earlier Episode of its trajectory is not completed. -/
def waits (job : Job) (jobs : List Job) : Bool :=
  jobs.any fun previous => previous.trajectory == job.trajectory &&
    decide (previous.episode < job.episode) && previous.status != .completed

def Matches (job : Job) (result : JobResult) : Prop :=
  (result.epoch, result.trajectory, result.episode) = (job.epoch, job.trajectory, job.episode)

instance (job : Job) (result : JobResult) : Decidable (job.Matches result) := by
  unfold Matches; infer_instance

end Job

def State.jobs (state : State) : List Job := (state.active.map (·.jobs)).getD []

/-- `f` on the active Epoch, if there is one. -/
def State.onActive (state : State) (f : Active → Active) : State :=
  { state with active := state.active.map f }

/-- `f` on one job of the active Epoch. -/
def State.onJob (state : State) (index : Nat) (f : Job → Job) : State :=
  state.onActive fun active => { active with jobs := active.jobs.modify index f }

/-- The trajectories that have a job in `running`. -/
def Coordinator.busy (k : Coordinator) : List Nat :=
  k.running.filterMap fun worker => (k.state.jobs[worker.job]?).map (·.trajectory)

def Coordinator.fail (k : Coordinator) (error : SearchError) : Coordinator :=
  { k with failure := k.failure <|> some error }

namespace PooledSearch

def budgetReached (search : PooledSearch) (tokens : Nat) : Bool :=
  decide (search.tokenBudget > 0) && decide (tokens ≥ search.tokenBudget)

def initialState (search : PooledSearch) (seed : Kernel) : State where
  schemaVersion := 1
  options := search.options
  binding := search.identity
  tokenBudget := search.tokenBudget
  bootstrap := seed
  seed := seed
  epoch := 1
  active := none
  completedEpochs := 0
  consecutiveWithoutImprovement := none
  stopReason := none

def Configured (search : PooledSearch) (state : State) : Prop :=
  state.schemaVersion = 1 ∧ state.options = search.options ∧ state.binding = search.identity ∧
    state.tokenBudget = search.tokenBudget

instance (search : PooledSearch) (state : State) : Decidable (search.Configured state) := by
  unfold Configured; infer_instance

def openEpoch (search : PooledSearch) (state : State) : State :=
  { state with active := some {
      epoch := state.epoch, seed := state.seed, phase := .preparing,
      jobs := plan search.options state.epoch, winner := none } }

/-- `consecutive_without_improvement` after an Epoch with this winner. -/
def stalls (state : State) (winner seed : ℚ) : Nat :=
  if winner ≥ seed then state.consecutiveWithoutImprovement.getD 0 + 1 else 0

/-- The state after the Epoch of `active`, or the exception of the comparison. -/
def closeEpoch (search : PooledSearch) (state : State) (active : Active) :
    Except SearchError State := do
  let some winner := active.winner | .error .missingKey
  let best ← latency winner
  let incumbent ← latency active.seed
  let next := { state with
    consecutiveWithoutImprovement := some (stalls state best incumbent)
    seed := winner
    completedEpochs := state.epoch
    epoch := state.epoch + 1
    active := none }
  let stop := search.stopReason next
  .ok (if stop = "" then next else { next with stopReason := some stop })

/-- One turn of `for job in jobs` of `_run_jobs`. -/
def dispatch (search : PooledSearch) (tokens : Nat) (index : Nat) (k : Coordinator) : Operation :=
  match k.state.jobs[index]? with
  | none => .go { k with point := .wait }
  | some job =>
      if k.failure.isSome ∨ k.running.length ≥ search.options.maxParallelEpisodes then
        .go { k with point := .wait }
      else if job.status = .completed ∨ job.trajectory ∈ k.busy then
        .go { k with point := .dispatch (index + 1) }
      else if job.waits k.state.jobs then
        .go { k with point := .dispatch (index + 1) }
      else if job.status ≠ .running ∧ search.budgetReached tokens then
        .go { k with point := .dispatch (index + 1) }
      else
        .go { k with point := .admitted index (if job.status = .running then none else some tokens) }

/-- One turn of `for future in done` of `_run_jobs`. -/
def collect (k : Coordinator) (index : Nat) (rest : List Nat) : Operation :=
  let popped := { k with running := k.running.filter (·.job ≠ index), point := .collect rest }
  match k.state.jobs[index]?, k.running.find? (·.job = index) with
  | some job, some ⟨_, some (.returned result)⟩ =>
      if job.Matches result then
        .save { popped with state := k.state.onJob index (Job.complete result) }
      else .go (popped.fail .identity)
  | some _, some ⟨_, some .failed⟩ => .go (popped.fail .raised)
  | _, _ => .raise

/-- `wait(running, return_when=FIRST_COMPLETED)`; the set it returns is iterated in
the given order. -/
def await (order : List Nat) (k : Coordinator) : Operation :=
  let done := (k.running.filter (·.ending.isSome)).map (·.job)
  if k.running = [] then
    if k.failure.isSome then .raise
    else if k.state.jobs.all (·.status = .completed) then .go { k with point := .select }
    else .exit
  else if done ≠ [] ∧ order.isPerm done then .go { k with point := .collect order }
  else .block

def operation (search : PooledSearch) (tokens : Nat) (order : List Nat) (k : Coordinator) :
    Operation :=
  match k.point with
  | .create => .save { k with point := .check }
  | .check =>
      if search.Configured k.state then
        .call (.initialized k.state.bootstrap) { k with point := .resume }
      else .raise
  | .resume => if k.state.stopReason.isSome then .exit else .go { k with point := .head }
  | .head =>
      if k.state.epoch ≤ search.options.epochs then
        match k.state.active with
        | some _ => .go { k with point := .prepare }
        | none =>
            if search.budgetReached tokens then .exit
            else .save { k with state := search.openEpoch k.state, point := .prepare }
      else .exit
  | .prepare =>
      match k.state.active with
      | none => .raise
      | some active =>
          match active.phase with
          | .preparing => .call (.prepared k.state.epoch active.seed) { k with point := .prepared }
          | .running => .go { k with point := .dispatch 0 }
          | .publishing => .go { k with point := .publish }
  | .prepared =>
      .save { k with
        state := k.state.onActive fun active => { active with phase := .running }
        point := .dispatch 0 }
  | .dispatch index => search.dispatch tokens index k
  | .admitted index reading =>
      .save { k with state := k.state.onJob index Job.mark, point := .submit index reading }
  | .submit index reading =>
      match k.state.jobs[index]? with
      | none => .raise
      | some job =>
          .call (.started job.trajectory job.episode reading tokens)
            { k with running := k.running ++ [⟨index, none⟩], point := .dispatch (index + 1) }
  | .wait => await order k
  | .collect [] => .go { k with point := .dispatch 0 }
  | .collect (index :: rest) => collect k index rest
  | .select =>
      match k.state.active with
      | none => .raise
      | some active =>
          match selectWinner active.seed active.jobs with
          | .error _ => .raise
          | .ok winner =>
              .save { k with
                state := k.state.onActive fun active =>
                  { active with winner := some winner, phase := .publishing }
                point := .publish }
  | .publish =>
      match k.state.active with
      | some ⟨_, seed, _, _, some winner⟩ =>
          .call (.published k.state.epoch seed winner) { k with point := .summarize }
      | _ => .raise
  | .summarize =>
      match k.state.active with
      | some ⟨_, _, _, _, some winner⟩ =>
          .call (.archived k.state.epoch winner tokens) { k with point := .close }
      | _ => .raise
  | .close =>
      match k.state.active with
      | none => .raise
      | some active =>
          match search.closeEpoch k.state active with
          | .error _ => .raise
          | .ok next =>
              .save { k with state := next, point := .resume }
  | .leave => if k.running.all (·.ending.isSome) then .exit else .block

end PooledSearch

/-- What a write turned one job of the file into. -/
def Job.change (old new : Job) : List Event :=
  if old.status = new.status then []
  else match new.status, new.result with
    | .running, _ => [.marked new.trajectory new.episode]
    | .completed, some result => [.recorded new.trajectory new.episode result]
    | _, _ => []

/-- What a write of `state.json` changed. -/
def changes : Option State → State → List Event
  | none, new => [.seeded new.seed]
  | some old, new =>
      match old.active, new.active with
      | some before, some after => (List.zipWith Job.change before.jobs after.jobs).flatten
      | some before, none => [.closed before.epoch before.seed new.seed]
      | none, some after => [.opened after.epoch after.seed]
      | none, none => []

namespace Config

def write (c : Config) (state : State) : Config :=
  { c with disk := some state, log := changes c.disk state ++ c.log }

def become (c : Config) (k : Coordinator) : Config := { c with process := .coordinating k }

def note (c : Config) (event : Event) : Config := { c with log := event :: c.log }

def leave (c : Config) : Config := { c with process := .absent }

end Config

inductive Action where
  | start
  | boot (seed : Kernel)
  | advance (order : List Nat)
  | saveFails (written : Bool)
  | finish (job : Nat) (ending : Ending)
  | spend (tokens : Nat)
  | interrupt
  | crash
  deriving DecidableEq

def Worker.finish (job : Nat) (ending : Ending) (worker : Worker) : Worker :=
  if worker.job = job ∧ worker.ending = none then { worker with ending := some ending } else worker

namespace PooledSearch

/-- `read_state`, or a bootstrap if there is no file. -/
def boot (search : PooledSearch) (seed : Kernel) (c : Config) : Config :=
  match c.disk with
  | some state => (c.note .loaded).become ⟨state, .check, [], none⟩
  | none =>
      match latency seed with
      | .ok _ => c.become ⟨search.initialState seed, .create, [], none⟩
      | .error _ => c.leave

def perform (c : Config) (k : Coordinator) : Operation → Option Config
  | .go next => some (c.become next)
  | .save next => some ((c.write next.state).become next)
  | .call event next => some ((c.note event).become next)
  | .exit => some c.leave
  | .raise => some (c.become { k with point := .leave })
  | .block => none

/-- One step of the whole system. A save or a driver call that raises is a step
before or after which the coordinator is interrupted, except in `for future in done`,
where the exception is caught. -/
def step (search : PooledSearch) (c : Config) : Action → Option Config
  | .start =>
      match c.process with
      | .absent => some { c with process := .loading }
      | _ => none
  | .boot seed =>
      match c.process with
      | .loading => some (search.boot seed c)
      | _ => none
  | .advance order =>
      match c.process with
      | .coordinating k => perform c k (search.operation c.tokens order k)
      | _ => none
  | .saveFails written =>
      match c.process with
      | .coordinating k =>
          match k.point, search.operation c.tokens [] k with
          | .collect (_ :: _), .save next =>
              some ((if written then c.write next.state else c).become (next.fail .raised))
          | _, _ => none
      | _ => none
  | .finish job ending =>
      match c.process with
      | .coordinating k =>
          some (c.become { k with running := k.running.map (Worker.finish job ending) })
      | _ => none
  | .spend tokens => some { c with tokens := c.tokens + tokens }
  | .interrupt =>
      match c.process with
      | .coordinating k => some (c.become { k with point := .leave })
      | .loading => some c.leave
      | .absent => none
  | .crash => some c.leave

/-- Before the first run there is no file, and no history. -/
def Fresh (c : Config) : Prop := c.disk = none ∧ c.process = .absent ∧ c.log = []

def Reached (search : PooledSearch) : Config → Prop :=
  Reachable Fresh fun c c' => ∃ action, search.step c action = some c'

end PooledSearch

end AtrexAgent.Search
