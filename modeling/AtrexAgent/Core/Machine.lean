import AtrexAgent.Library.Computation
import AtrexAgent.Core.Model

/-! The procedures of `Fiber`, `Root`, `Context` and `EffectStack`. A procedure
reaches code it does not own (a plugin callback, and through it any operation)
by the parameter `call`; `exec` ties the knot with fuel for the nesting. -/

namespace AtrexAgent.Core

open AtrexAgent.Computation
open AtrexAgent.Computation.Comp

abbrev M := Comp Root Exc

/-- The operations a host or a plugin callback can perform. -/
inductive Op where
  | mount (declaration : Declaration) (entryId : String) (isolated : List String)
      (parent : Option Nat) (realm : Option Realm)
  | plugin (declaration : Declaration) (entryId : String) (isolated : List String)
      (parent : Nat) (realm : Realm)
  | provide (f : Nat) (name : String) (realm : Option Realm) (wellShaped : Bool)
  | effect (f : Nat) (disposer : Nat)
  | callDisposer (f : Nat) (effect : Nat)
  | on (f : Nat) (event : BusEvent) (listener : Nat) (order : Int)
  | isolate
  | restart (f : Nat)
  | dispose (f : Nat)
  | settle
  deriving DecidableEq, Repr

/-- What a callback does in one call: operations, whose results it can branch
on, and in the end a return (with the callable it returns, if any) or a raise. -/
inductive Prog where
  | ret (disposer : Option Nat)
  | raise (error : Exc)
  | op (o : Op) (next : Except Exc Nat → Prog)

/-- Every operation of the callback satisfies `P`, and so does what it raises. -/
def Prog.All (P : Op → Prop) (R : Exc → Prop) : Prog → Prop
  | .ret _ => True
  | .raise error => R error
  | .op o next => P o ∧ ∀ result, (next result).All P R

/-- The operations one after another, whatever they return or raise. -/
def Prog.sequence : List Op → Prog
  | [] => .ret none
  | o :: rest => .op o fun _ => sequence rest

/-- The operations one after another, up to the first that raises. -/
def Prog.strict : List Op → Prog
  | [] => .ret none
  | o :: rest => .op o fun
      | .ok _ => strict rest
      | .error error => .raise error

theorem Prog.all_sequence {P : Op → Prop} {R : Exc → Prop} (ops : List Op)
    (each : ∀ o ∈ ops, P o) : (Prog.sequence ops).All P R := by
  induction ops with
  | nil => trivial
  | cons o rest ih =>
      exact ⟨each o List.mem_cons_self, fun _ => ih fun o' member =>
        each o' (List.mem_cons_of_mem o member)⟩

/-- The code of all plugins, a table for each kind of callback: what it does for a
fiber. It may act differently each time, so it also depends on how many calls of any
callback there were before. -/
structure Code where
  apply : Nat → Nat → Nat → Prog
  resolveConfig : Nat → Nat → Nat → Prog
  disposer : Nat → Nat → Nat → Prog
  listener : Nat → Nat → Nat → Prog

/-- What can be reached again while a procedure runs: an operation, and another
turn of the two unbounded loops. -/
inductive Call where
  | op (o : Op)
  | settleLoop (rounds : Nat)
  | unwindLoop (f : Nat) (failures : Nat) (abort : Option Exc)

def runProg (call : Call → M Nat) : Prog → M (Option Nat)
  | .ret disposer => pure disposer
  | .raise error => raise error
  | .op o next => do
      let result ← attempt (call (.op o))
      runProg call (next result)

/-- `call_sync` of a plugin callback. -/
def callback (call : Call → M Nat) (body : Nat → Prog) : M (Option Nat) := do
  let r ← get
  modify fun r => { r with calls := r.calls + 1 }
  runProg call (body r.calls)

section Procedures

variable (code : Code) (call : Call → M Nat)

/-! ### Diagnostics -/

/-- One turn of the loop of `emit`; a listener disposed since is passed over. -/
def deliver (handle : Exc → M Unit) (listener : Listener) : M Unit := do
  let r ← get
  if listener ∈ r.listeners then
    match ← attempt (callback call (code.listener listener.callback listener.fiber)) with
    | .ok _ => pure ()
    | .error error => if error.isException then handle error else raise error
  else pure ()

def emitTo (handle : Exc → M Unit) : List Listener → M Unit
  | [] => pure ()
  | listener :: rest => do
      deliver code call handle listener
      emitTo handle rest

/-- `EventBus.emit`, with what the error sink does as `handle`. -/
def emit (handle : Exc → M Unit) (event : BusEvent) : M Unit := do
  let r ← get
  if r.busClosed then pure () else
    emitTo code call handle
      ((r.listeners.filter (·.event = event)).insertionSort fun a b =>
        a.order < b.order ∨ (a.order = b.order ∧ a.sequence ≤ b.sequence))

def recordError (error : Exc) : M Unit := modify fun r => { r with errors := r.errors ++ [error] }

def report (error : Exc) : M Unit := do
  recordError error
  let r ← get
  if r.reporting then pure () else do
    modify fun r => { r with reporting := true }
    andFinally (emit code call recordError .internalError)
      (modify fun r => { r with reporting := false })

/-- `Fiber._transition` with `Root.observe`. -/
def transition (f : Nat) (state : FiberState) : M Unit := do
  modify fun r => r.recordTransition f state
  emit code call (report code call) .internalFiber

def fail (f : Nat) (error : Exc) : M Unit := do
  modify fun r => r.update f fun fiber => { fiber with error := some error, epoch := none }
  transition code call f .failed
  report code call error

/-! ### Effects and services -/

/-- `Root._service_changed` for a change of `name` that `change` makes. -/
def notify (name : String) (change : Root → Root) : M Unit := do
  modify fun r => (change r).wake name
  let r ← get
  if r.watching ∧ r.fibers.any (r.depends name) ∧ ¬ r.settling ∧ ¬ r.disposing then
    let _ ← call (.op .settle)
    pure ()
  else pure ()

/-- Run what an effect of `f` has to undo. -/
def runUndo (f : Nat) : Undo → M Unit
  | .callback disposer => do
      modify fun r => { r with undoLog := r.undoLog ++ [r.view f] }
      let _ ← callback call (code.disposer disposer f)
      pure ()
  | .withdraw owner name serial => do
      modify fun r => r.update f fun fiber =>
        { fiber with provided := fiber.provided.filter (· ≠ name) }
      let r ← get
      if r.registered owner name serial then
        notify call name fun r => r.unregister owner name
      else pure ()
  | .unlisten sequence =>
      modify fun r => { r with listeners := r.listeners.filter (·.sequence ≠ sequence) }

/-- `EffectStack.add`; the result stands for the disposer it returns. -/
def addEffect (f : Nat) (undo : Undo) : M Nat := do
  let r ← get
  if (r.fiber f).unwinding then
    runUndo code call f undo
    pure 0
  else
    modify fun r => r.filed f undo
    pure (r.effectIds + 1)

/-- The disposer `EffectStack.add` returned. -/
def callDisposer (f : Nat) (id : Nat) : M Unit := do
  let r ← get
  match (r.fiber f).effects.find? (·.id = id) with
  | none => pure ()
  | some effect =>
      modify fun r => r.update f fun fiber =>
        { fiber with effects := fiber.effects.eraseP (·.id = id) }
      runUndo code call f effect.undo

def unwindLoop (f : Nat) (failures : Nat) (abort : Option Exc) : M Unit := do
  let r ← get
  match (r.fiber f).effects with
  | effect :: rest =>
      modify fun r => r.update f fun fiber => { fiber with effects := rest }
      match ← attempt (runUndo code call f effect.undo) with
      | .ok _ =>
          let _ ← call (.unwindLoop f failures abort)
          pure ()
      | .error error =>
          if error.isException then
            let _ ← call (.unwindLoop f (failures + 1) abort)
            pure ()
          else
            let _ ← call (.unwindLoop f failures (abort <|> some error))
            pure ()
  | [] =>
      modify fun r => r.update f fun fiber => { fiber with unwinding := false }
      match abort with
      | some error => raise error
      | none => if failures = 0 then pure () else raise (.disposalErrors failures)

def unwind (f : Nat) : M Unit := do
  modify fun r => r.update f fun fiber => { fiber with unwinding := true }
  let _ ← call (.unwindLoop f 0 none)
  pure ()

/-- `Fiber.provide` around `Realm.provide`. -/
def provide (f : Nat) (name : String) (realm : Option Realm) (wellShaped : Bool) : M Nat := do
  let r ← get
  let fiber := r.fiber f
  if fiber.state ≠ .loading ∧ fiber.state ≠ .active then
    raise (.configError fiber.entryId)
  else
    let owner := (realm.getD fiber.realm).ownerOf name
    match r.impls owner name with
    | some existing =>
        raise (.duplicateProvide name (r.fiber existing.fiber).entryId fiber.entryId)
    | none =>
        if wellShaped then do
          notify call name fun r => r.register owner name f
          modify fun r => r.update f fun fiber =>
            { fiber with provided := name :: fiber.provided.filter (· ≠ name) }
          addEffect code call f (.withdraw owner name (r.serial + 1))
        else raise (.registryShape name fiber.entryId)

/-- `Context.on`. -/
def on (f : Nat) (event : BusEvent) (listener : Nat) (order : Int) : M Nat := do
  let r ← get
  if r.busClosed then addEffect code call f (.unlisten 0)
  else do
    modify fun r => { r with
      listenerSequence := r.listenerSequence + 1
      listeners := r.listeners ++ [⟨f, event, listener, order, r.listenerSequence + 1⟩] }
    addEffect code call f (.unlisten (r.listenerSequence + 1))

/-! ### Lifecycle -/

def disposeAll : List Nat → Option Exc → M (Option Exc)
  | [], abort => pure abort
  | child :: rest, abort => do
      match ← attempt (call (.op (.dispose child))) with
      | .ok _ => disposeAll rest abort
      | .error error => disposeAll rest (abort <|> some error)

def raiseAbort : Option Exc → M Unit
  | some error => raise error
  | none => pure ()

/-- The part of `_discard_effects` from `self.provided.clear()` on. -/
def discardStack (f : Nat) (abort : Option Exc) : M Unit := do
  modify fun r => r.update f fun fiber => { fiber with provided := [] }
  match ← attempt (unwind call f) with
  | .ok _ => raiseAbort abort
  | .error (.disposalErrors failures) => do
      report code call (.disposalErrors failures)
      raiseAbort abort
  | .error error => raiseAbort (abort <|> some error)

def discardEffects (f : Nat) : M Unit := do
  let r ← get
  let abort ← disposeAll call (r.fiber f).children none
  discardStack code call f abort

def unload (f : Nat) : M Unit := do
  transition code call f .unloading
  discardEffects code call f
  transition code call f .pending

/-- The first `except BaseException` of `_load`, and the second. -/
def abandon (f : Nat) (error : Exc) : M Unit := do
  discardEffects code call f
  modify fun r => r.update f fun fiber => { fiber with epoch := none }
  transition code call f .pending
  raise error

def applyPlugin (f : Nat) : M Unit := do
  let r ← get
  match ← callback call (code.apply (r.fiber f).declaration.apply f) with
  | some disposer =>
      let _ ← addEffect code call f (.callback disposer)
      pure ()
  | none => pure ()

/-- The end of `_load`: every declared service must have been published. -/
def finishLoad (f : Nat) : M Unit := do
  let r ← get
  if (r.fiber f).declaration.provide.all (· ∈ (r.fiber f).provided) then
    transition code call f .active
  else do
    discardEffects code call f
    fail code call f (.configError (r.fiber f).entryId)

def load (f : Nat) : M Unit := do
  modify fun r => r.update f fun fiber => { fiber with loadedWith := r.resolved f }
  transition code call f .loading
  let r ← get
  match ← attempt (callback call (code.resolveConfig (r.fiber f).declaration.resolveConfig f)) with
  | .error error =>
      if error.isException then fail code call f error else abandon code call f error
  | .ok _ =>
      match ← attempt (applyPlugin code call f) with
      | .error error =>
          if error.isException then do
            discardEffects code call f
            fail code call f error
          else abandon code call f error
      | .ok _ => finishLoad code call f

/-- How a restart ends the current load, or a failure. -/
def stopForRestart (f : Nat) : M Unit := do
  let r ← get
  if (r.fiber f).state = .failed then do
    modify fun r => r.update f fun fiber => { fiber with error := none }
    transition code call f .pending
  else if (r.fiber f).effects ≠ [] ∨ (r.fiber f).children ≠ [] ∨ (r.fiber f).state = .active then
    unload code call f
  else pure ()

/-- The part of `refresh` under `if self._restart_requested`. -/
def refreshRestart (f : Nat) : M Unit := do
  let r ← get
  if (r.fiber f).restartRequested then do
    modify fun r => r.update f fun fiber => { fiber with restartRequested := false }
    stopForRestart code call f
    modify fun r => r.update f fun fiber => { fiber with epoch := none }
  else pure ()

/-- The part of `refresh` from `epoch = self.compute_epoch()` on. -/
def refreshEpoch (f : Nat) : M Unit := do
  let r ← get
  let previous := (r.fiber f).epoch
  let epoch := r.computeEpoch f
  if epoch = previous then pure ()
  else do
    modify fun r => r.update f fun fiber => { fiber with epoch := epoch }
    if epoch = none then
      if (r.fiber f).state = .active then unload code call f else pure ()
    else if previous = none then load code call f
    else do
      unload code call f
      load code call f

def refresh (f : Nat) : M Unit := do
  let r ← get
  if (r.fiber f).state = .disposed then pure ()
  else do
    refreshRestart code call f
    let r ← get
    if (r.fiber f).state = .failed then pure () else refreshEpoch code call f

/-- The `finally` of `dispose`. -/
def disposed (f : Nat) : M Unit := do
  modify fun r => match (r.fiber f).parent with
    | some p => r.update p fun fiber => { fiber with children := fiber.children.erase f }
    | none => r
  transition code call f .disposed
  modify fun r => { r.forget f with disposeStack := r.disposeStack.tail }

def dispose (f : Nat) : M Unit := do
  let r ← get
  if (r.fiber f).state = .disposed then pure ()
  else do
    modify fun r => { r with disposeStack := f :: r.disposeStack }
    andFinally
      (if (r.fiber f).state ≠ .failed then unload code call f else discardEffects code call f)
      (disposed code call f)

def restart (f : Nat) : M Unit := do
  let r ← get
  if (r.fiber f).state = .disposed ∨ r.disposing then pure ()
  else do
    modify fun r =>
      (r.update f fun fiber => { fiber with restartRequested := true }).enqueue f
    if (r.fiber f).state ≠ .loading ∧ (r.fiber f).state ≠ .unloading then
      let _ ← call (.op .settle)
      pure ()
    else pure ()

/-! ### The root -/

def mount (declaration : Declaration) (entryId : String) (isolated : List String)
    (parent : Option Nat) (realm : Option Realm) : M Nat := do
  let r ← get
  if r.fibers.any fun u => (r.fiber u).entryId = entryId then raise (.configError entryId)
  else do
    modify fun r => r.mounted declaration entryId isolated parent realm
    pure (r.uid + 1)

/-- `while batch` of `settle`. -/
def runBatch : List Nat → M Unit
  | [] => pure ()
  | f :: rest => do
      match ← attempt (refresh code call f) with
      | .ok _ => runBatch rest
      | .error error => do
          modify fun r => { r with pending := rest ++ r.pending }
          raise error

/-- `while self._pending` of `settle`. -/
def settleLoop (rounds : Nat) : M Unit := do
  let r ← get
  if r.pending = [] then pure ()
  else if r.settleRounds < rounds + 1 then
    raise (.settleDivergence r.settleRounds
      ((r.pending.map fun u => (r.fiber u).entryId).eraseDups))
  else do
    modify fun r => { r with pending := [] }
    runBatch code call r.pending.eraseDups
    let _ ← call (.settleLoop (rounds + 1))
    pure ()

def settle : M Unit := do
  let r ← get
  if r.settling then pure ()
  else do
    modify fun r => { r with settling := true }
    andFinally (do let _ ← call (.settleLoop 0); pure ())
      (modify fun r => { r with settling := false })
    modify fun r => { r with
      settledLog := r.settledLog ++ [⟨r.disposeStack, r.fibers.map r.view⟩] }

/-- `sorted(self.fibers.values(), key=...)` of `Root.dispose`. -/
def teardownOrder (r : Root) : List Nat :=
  let rank (u : Nat) : Int :=
    if u ∈ r.activationOrder then r.activationOrder.idxOf u else -1
  r.fibers.insertionSort fun a b => rank b < rank a ∨ (rank a = rank b ∧ b ≤ a)

def teardown : List Nat → Option Exc → M (Option Exc)
  | [], abort => pure abort
  | f :: rest, abort => do
      match ← attempt (call (.op (.dispose f))) with
      | .ok _ => teardown rest abort
      | .error error =>
          if error.isException then do
            report code call error
            teardown rest abort
          else teardown rest (abort <|> some error)

/-- `Root.dispose`. -/
def disposeRoot : M Unit := do
  modify fun r => { r with disposing := true }
  let r ← get
  let abort ← andFinally
    (do
      let abort ← teardown code call (teardownOrder r) none
      modify fun r => { r with
        pending := [], watching := false, busClosed := true, listeners := [] }
      pure abort)
    (modify fun r => { r with disposing := false })
  raiseAbort abort

def perform : Op → M Nat
  | .mount declaration entryId isolated parent realm =>
      mount declaration entryId isolated parent realm
  | .plugin declaration entryId isolated parent realm => do
      let child ← mount declaration entryId isolated (some parent) (some realm)
      let _ ← call (.op .settle)
      pure child
  | .provide f name realm wellShaped => provide code call f name realm wellShaped
  | .effect f disposer => addEffect code call f (.callback disposer)
  | .callDisposer f id => do callDisposer code call f id; pure 0
  | .on f event listener order => on code call f event listener order
  | .isolate => do
      let r ← get
      modify fun r => { r with realms := r.realms + 1 }
      pure (r.realms + 1)
  | .restart f => do restart call f; pure 0
  | .dispose f => do dispose code call f; pure 0
  | .settle => do settle call; pure 0

def step : Call → M Nat
  | .op o => perform code call o
  | .settleLoop rounds => do settleLoop code call rounds; pure 0
  | .unwindLoop f failures abort => do unwindLoop code call f failures abort; pure 0

end Procedures

def exec (code : Code) : Nat → Call → M Nat
  | 0, _ => diverge
  | fuel + 1, c => step code (exec code fuel) c

/-- A host drives the root by operations of its own choice. -/
def drive (code : Code) (fuel : Nat) (host : Prog) : M (Option Nat) :=
  runProg (exec code fuel) host

end AtrexAgent.Core
