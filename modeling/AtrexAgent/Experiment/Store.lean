import Mathlib.Logic.Function.Basic
import AtrexAgent.Library.Transition

/-! `MeasurementStore`: reservations of one request digest by any number of
processes, over a lock file, a marker and the files of each record, each written in
one step, with a crash possible between any two. -/

namespace AtrexAgent.Measurement

open AtrexAgent.Transition

inductive Operation where
  | evaluate
  | sameAllocationAbba
  | other (name : String)
  deriving DecidableEq, Repr

inductive Status where
  | running
  | validationPending
  | completed
  | notCacheable
  deriving DecidableEq, Repr

/-- What `tasks/<digest>.json` says; the id is missing if it is not a record id. -/
structure Marker (Id : Type) where
  status : Status
  gatewayRecordId : Option Id
  deriving DecidableEq

structure Record (Id Request Response Kernels : Type) where
  schemaVersion : Nat
  gatewayRecordId : Id
  taskDigest : String
  request : Request
  kernels : Kernels
  operation : Operation
  response : Response
  resultDigest : String
  cacheable : Bool
  deriving DecidableEq

/-- A sealed `jobs/*/state.json`: whether `embedded_device_failure` finds one in it,
and what else `cacheable_job` asks of it. -/
structure JobState where
  deviceFailure : Bool
  conclusive : Bool
  deriving DecidableEq, Repr

def JobState.cacheableJob (job : JobState) : Bool := !job.deviceFailure && job.conclusive

/-- The directory of a record. -/
structure Files (Id Request Response Kernels : Type) where
  request : Option Request
  record : Option (Record Id Request Response Kernels)
  jobs : List JobState

/-- The pure functions that `finish` and `_cached` apply to requests and responses.
`verdict` reads the result lines of the response: nothing if one is broken or has a
device failure, else whether one is negative. -/
structure Evidence (Id Request Response Kernels : Type) where
  digestRequest : Request → String
  digestResponse : Response → String
  operation : Request → Operation
  sealResponse : Response → Request → Id → Kernels → Response
  kernelsMatch : Kernels → Request → Bool
  cacheableEvaluation : Response → Request → Bool
  verdict : Response → Option Bool
  withinLimit : Record Id Request Response Kernels → Bool

variable {Id Request Response Kernels : Type}

def Operation.evaluates : Operation → Bool
  | .evaluate => true
  | .sameAllocationAbba => true
  | .other _ => false

def Files.blank : Files Id Request Response Kernels := ⟨none, none, []⟩

section Reading

variable [DecidableEq Id] (e : Evidence Id Request Response Kernels)

/-- `MeasurementStore.read`. -/
def read (id : Id) (files : Files Id Request Response Kernels) :
    Option (Record Id Request Response Kernels) :=
  match files.record with
  | none => none
  | some record =>
      if record.gatewayRecordId ≠ id ∨ record.schemaVersion ≠ 1 then none
      else if record.taskDigest ≠ e.digestRequest record.request then none
      else if record.resultDigest ≠ e.digestResponse record.response then none
      else if e.kernelsMatch record.kernels record.request = false then none
      else some record

/-- `MeasurementStore._cached`, without storage outages. -/
def cached (id : Id) (taskDigest : String) (files : Files Id Request Response Kernels) :
    Option (Record Id Request Response Kernels) :=
  match read e id files with
  | none => none
  | some record =>
      if record.taskDigest ≠ taskDigest ∨ record.cacheable = false then none
      else if record.operation.evaluates ∧
          e.cacheableEvaluation record.response record.request = false then none
      else match e.verdict record.response with
        | none => none
        | some negative =>
            if negative = true ∧ files.jobs.any (·.deviceFailure) = true then none
            else some record

end Reading

/-- What the owner writes into the lock file: its deadline and request id. -/
structure Description where
  deadline : Option Nat
  requestId : String
  deriving DecidableEq, Repr

/-- The arguments of one `reserve` besides the request. -/
structure Reservation (Kernels : Type) where
  description : Description
  kernels : Kernels
  deriving DecidableEq

/-- Where a process stands in `reserve`, `finish` and the `finally` of `reserve`:
before its next system call. -/
inductive Stage (Id Request Response Kernels : Type) where
  | idle
  | opened (call : Reservation Kernels)
  | acquired (call : Reservation Kernels)
  | truncated (call : Reservation Kernels)
  | described (call : Reservation Kernels)
  | located (call : Reservation Kernels) (marker : Option (Marker Id))
  | missed (call : Reservation Kernels) (marker : Option (Marker Id))
  | allocating (call : Reservation Kernels)
  | marking (call : Reservation Kernels) (id : Id) (resumed : Bool)
  | active (call : Reservation Kernels) (id : Id)
  | recorded (id : Id) (cacheable pending : Bool)
  | validating (id : Id) (cacheable pending : Bool)
  | validated (id : Id) (cacheable pending : Bool)
  | releasing
  | closing

/-- The descriptor of the process has the lock. -/
def Stage.Holds : Stage Id Request Response Kernels → Prop
  | .idle => False
  | .opened _ => False
  | _ => True

/-- How a `reserve` or a `finish` came out. -/
inductive Event (Id : Type) where
  | running (process : Nat) (owner : Option Description)
  | duplicate (process : Nat) (id : Id)
  | unavailable (process : Nat) (id : Id)
  | reserved (process : Nat) (id : Id) (resumed : Bool)
  | finished (process : Nat) (id : Id) (status : Status)
  deriving DecidableEq

structure World (Id Request Response Kernels : Type) where
  lock : Option Nat
  lockText : Option Description
  marker : Option (Marker Id)
  files : Id → Files Id Request Response Kernels
  stage : Nat → Stage Id Request Response Kernels
  log : List (Event Id)

inductive Action (Id Response Kernels : Type) where
  | enter (process : Nat) (call : Reservation Kernels)
  | lock (process : Nat)
  | proceed (process : Nat)
  | allocate (process : Nat) (id : Id)
  | outage (process : Nat)
  | work (process : Nat) (jobs : List JobState)
  | finish (process : Nat) (response : Response) (cacheable pending : Bool)
  | abandon (process : Nat)
  | crash (process : Nat)

namespace World

def moved (w : World Id Request Response Kernels) (p : Nat)
    (stage : Stage Id Request Response Kernels) : World Id Request Response Kernels :=
  { w with stage := Function.update w.stage p stage }

def noted (w : World Id Request Response Kernels) (event : Event Id) :
    World Id Request Response Kernels :=
  { w with log := event :: w.log }

def marked (w : World Id Request Response Kernels) (status : Status) (id : Id) :
    World Id Request Response Kernels :=
  { w with marker := some ⟨status, some id⟩ }

/-- `f` on the directory of one record. -/
def filed [DecidableEq Id] (w : World Id Request Response Kernels) (id : Id)
    (f : Files Id Request Response Kernels → Files Id Request Response Kernels) :
    World Id Request Response Kernels :=
  { w with files := Function.update w.files id (f (w.files id)) }

end World

section Steps

variable [DecidableEq Id] [DecidableEq Request]
  (e : Evidence Id Request Response Kernels) (request : Request)

/-- The record `finish` writes, and whether it is cacheable. -/
def outcome (id : Id) (kernels : Kernels) (response : Response) (cacheable : Bool) :
    Record Id Request Response Kernels :=
  let sealed := e.sealResponse response request id kernels
  let cacheable := if (e.operation request).evaluates then
    cacheable && e.cacheableEvaluation sealed request else cacheable
  { schemaVersion := 1, gatewayRecordId := id, taskDigest := e.digestRequest request,
    request, kernels, operation := e.operation request, response := sealed,
    resultDigest := e.digestResponse sealed, cacheable }

/-- The record an interrupted request goes on with. -/
def resumable (w : World Id Request Response Kernels) : Option (Marker Id) → Option Id
  | some ⟨.running, some id⟩ => if (w.files id).request = some request then some id else none
  | some ⟨.validationPending, some id⟩ =>
      if (w.files id).request = some request then some id else none
  | _ => none

/-- The next operation of a process that has the lock. -/
def proceed (w : World Id Request Response Kernels) (p : Nat) :
    Option (World Id Request Response Kernels) :=
  match w.stage p with
  | .acquired call => some ({ w with lockText := none }.moved p (.truncated call))
  | .truncated call =>
      some ({ w with lockText := some call.description }.moved p (.described call))
  | .described call => some (w.moved p (.located call w.marker))
  | .located call marker =>
      match marker.bind (·.gatewayRecordId) with
      | none => some (w.moved p (.missed call marker))
      | some id =>
          match cached e id (e.digestRequest request) (w.files id) with
          | some _ => some ((w.noted (.duplicate p id)).moved p .releasing)
          | none => some (w.moved p (.missed call marker))
  | .missed call marker =>
      match resumable request w marker with
      | some id => some (w.moved p (.marking call id true))
      | none => some (w.moved p (.allocating call))
  | .marking call id resumed =>
      some (((w.marked .running id).noted (.reserved p id resumed)).moved p (.active call id))
  | .recorded id cacheable pending =>
      some ((w.marked .validationPending id).moved p (.validating id cacheable pending))
  | .validating id cacheable pending =>
      if cacheable = true ∧ cached e id (e.digestRequest request) (w.files id) = none then
        some (w.moved p .releasing)
      else some (w.moved p (.validated id cacheable pending))
  | .validated id cacheable pending =>
      let status := if pending then Status.running
        else if cacheable then .completed else .notCacheable
      some (((w.marked status id).noted (.finished p id status)).moved p .releasing)
  | .releasing => some ({ w with lockText := none }.moved p .closing)
  | .closing => some ({ w with lock := none }.moved p .idle)
  | _ => none

/-- One step of any process. A new record id is one that no directory has; a caller
of `finish` takes as cacheable only what `cacheable_job` let pass. -/
def step (w : World Id Request Response Kernels) :
    Action Id Response Kernels → Option (World Id Request Response Kernels)
  | .enter p call =>
      match w.stage p with
      | .idle => some (w.moved p (.opened call))
      | _ => none
  | .lock p =>
      match w.stage p with
      | .opened call =>
          match w.lock with
          | none => some ({ w with lock := some p }.moved p (.acquired call))
          | some _ => some ((w.noted (.running p w.lockText)).moved p .idle)
      | _ => none
  | .proceed p => proceed e request w p
  | .allocate p id =>
      match w.stage p, w.files id with
      | .allocating call, ⟨none, none, []⟩ =>
          some ((w.filed id fun files => { files with request := some request }).moved p
            (.marking call id false))
      | _, _ => none
  | .outage p =>
      match w.stage p with
      | .located _ (some ⟨_, some id⟩) =>
          some ((w.noted (.unavailable p id)).moved p .releasing)
      | .validating id true _ => some ((w.noted (.unavailable p id)).moved p .releasing)
      | _ => none
  | .work p jobs =>
      match w.stage p with
      | .active _ id => some (w.filed id fun files => { files with jobs := jobs })
      | _ => none
  | .finish p response cacheable pending =>
      match w.stage p with
      | .active call id =>
          let record := outcome e request id call.kernels response cacheable
          if e.withinLimit record = false then some (w.moved p .releasing)
          else if cacheable = true ∧ (w.files id).jobs.any (·.deviceFailure) = true then none
          else some ((w.filed id fun files => { files with record := some record }).moved p
            (.recorded id record.cacheable pending))
      | _ => none
  | .abandon p =>
      match w.stage p with
      | .idle => none
      | .opened _ => some (w.moved p .idle)
      | .closing => none
      | _ => some (w.moved p .releasing)
  | .crash p =>
      some ({ w with lock := if w.lock = some p then none else w.lock }.moved p .idle)

/-- No file, no process. -/
def Fresh (w : World Id Request Response Kernels) : Prop :=
  w.lock = none ∧ w.marker = none ∧ (∀ id, w.files id = .blank) ∧ (∀ p, w.stage p = .idle) ∧
    w.log = []

def Reached : World Id Request Response Kernels → Prop :=
  Reachable Fresh fun w w' => ∃ action, step e request w action = some w'

end Steps

end AtrexAgent.Measurement
