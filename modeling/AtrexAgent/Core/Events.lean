import Mathlib.Data.List.Sort
import AtrexAgent.Library.Reentry
import AtrexAgent.Library.Transition

/-! The event bus. A callback may call the bus that calls it, so it is a program over the
operations of the bus; the `next` of a waterfall is a closure, which may be kept and called
by any callback at any time. -/

namespace AtrexAgent.Events

open AtrexAgent.Computation
open AtrexAgent.Computation.Comp
open AtrexAgent.Interaction
open AtrexAgent.Reentry
open AtrexAgent.Transition

/-- How an event is used against its contract. -/
inductive Fault where
  | notCallable
  | wrongMode
  | wrongPayload
  | noResult
  | wrongResult
  deriving DecidableEq, Repr

inductive Exc where
  | typeError
  | eventContract (event : String) (fault : Fault)
  | waterfallReentry (event listener : String)
  | monotonicViolation (event listener detail : String)
  | raised (isException : Bool) (tag : Nat)
  deriving DecidableEq, Repr

def Exc.isException : Exc → Bool
  | .raised isException _ => isException
  | _ => true

inductive Mode where
  | emit | waterfall
  deriving DecidableEq, Repr

/-- The values of Python that a bus passes on are those of `V`. The types an event names
are tests of values. -/
structure Event (V : Type) where
  name : String
  mode : Mode
  payload : V → Bool
  result : Option (V → Bool)
  monotonic : Bool
  shrinkCheck : Option (V → V → Except Exc (Option String))

structure Listener where
  event : String
  callback : Nat
  order : Int
  owner : String
  sequence : Nat
  label : String
  deriving DecidableEq, Repr

def Listener.describe (listener : Listener) : String :=
  if listener.label ≠ "" then listener.label
  else (if listener.owner ≠ "" then listener.owner else "<anonymous>") ++ "#" ++
    toString listener.sequence

/-- One closure `delegate` with the variables it closes over. `dispatch`, `forwarded` and
`returned` are history variables: the waterfall it belongs to, what it forwarded first, and
what its listener returned. -/
structure Delegate (V : Type) where
  dispatch : Nat
  event : Event V
  terminal : Nat
  listener : Listener
  rest : List Listener
  value : V
  calls : Nat
  captured : Option V
  spent : Bool
  forwarded : Option V
  returned : Option V

/-- What happened; each `emit` and `waterfall` that starts has a number. -/
inductive Entry where
  | registered (listener : Listener)
  | disposed (sequence : Nat)
  | closed
  | began (dispatch : Nat) (event : String) (snapshot : List Listener)
  /-- A callback is invoked. -/
  | invoked (dispatch : Nat) (listener : Listener)
  /-- A listener that is not live is passed over. -/
  | passed (dispatch : Nat) (listener : Listener)
  | threw (dispatch : Nat) (error : Exc)
  | sinkThrew (dispatch : Nat) (error : Exc)
  | emitted (dispatch : Nat) (outcome : Option Exc)
  deriving DecidableEq, Repr

/-- `listeners` is the dict of buckets, `registered` the listener a disposer closes over.
`log` is a history variable and has its last entry first. -/
structure Bus (V : Type) where
  listeners : String → List Listener
  sequence : Nat
  closed : Bool
  shortCircuits : List (String × String)
  registered : Nat → Option Listener
  delegates : Nat → Option (Delegate V)
  made : Nat
  dispatches : Nat
  calls : Nat
  log : List Entry

def Bus.new (V : Type) : Bus V where
  listeners := fun _ => []
  sequence := 0
  closed := false
  shortCircuits := []
  registered := fun _ => none
  delegates := fun _ => none
  made := 0
  dispatches := 0
  calls := 0
  log := []

/-- `dispose` calls the disposer `on` returned, known by the sequence of the listener (zero for
the one that does nothing), and `next` a delegate. -/
inductive Op (V : Type) where
  | on (event : Event V) (callback : Nat) (order : Int) (owner label : String)
  | dispose (sequence : Nat)
  | close
  | emit (event : Event V) (payload : V)
  | waterfall (event : Event V) (payload : V) (terminal : Nat)
  | next (delegate : Nat) (forward : Option V)

inductive Answer (V : Type) where
  | none
  | disposer (sequence : Nat)
  | value (value : V)

abbrev M (V : Type) := Comp (Bus V) Exc

/-- The code around a bus, which may act differently each time it is called. A listener of a
waterfall is given a delegate. -/
structure Code (V : Type) where
  callable : Nat → Bool
  async : Nat → Bool
  listener : Nat → V → Option Nat → Nat → Callback (Op V) (Answer V) Exc V
  asyncTerminal : Nat → Bool
  terminal : Nat → V → Nat → Callback (Op V) (Answer V) Exc V
  sink : Option (Listener → Exc → Nat → Callback (Op V) (Answer V) Exc Unit)
  isNone : V → Bool

variable {V : Type}

def SHORT_CIRCUIT_HISTORY : Nat := 256

namespace Bus

def record (s : Bus V) (entry : Entry) : Bus V := { s with log := entry :: s.log }

/-- `_is_live`. -/
def live (s : Bus V) (listener : Listener) : Bool := listener ∈ s.listeners listener.event

def before (a b : Listener) : Prop := a.order < b.order ∨ (a.order = b.order ∧ a.sequence ≤ b.sequence)

instance : DecidableRel before := fun _ _ => inferInstanceAs (Decidable (_ ∨ _))

/-- `listeners(event)`. -/
def snapshot (s : Bus V) (event : String) : List Listener := (s.listeners event).insertionSort before

def register (s : Bus V) (event : String) (callback : Nat) (order : Int) (owner label : String) : Bus V :=
  let listener : Listener := ⟨event, callback, order, owner, s.sequence + 1, label⟩
  { s with
    sequence := s.sequence + 1
    listeners := fun name => if name = event then s.listeners event ++ [listener] else s.listeners name
    registered := fun n => if n = s.sequence + 1 then some listener else s.registered n
    log := .registered listener :: s.log }

def unregister (s : Bus V) (listener : Listener) : Bus V :=
  { s with
    listeners := fun name => if name = listener.event
      then (s.listeners listener.event).erase listener else s.listeners name
    log := .disposed listener.sequence :: s.log }

def shut (s : Bus V) : Bus V :=
  { s with closed := true, listeners := fun _ => [], shortCircuits := [], log := .closed :: s.log }

def begin_ (s : Bus V) (event : String) : Bus V :=
  { s with
    dispatches := s.dispatches + 1
    log := .began (s.dispatches + 1) event (s.snapshot event) :: s.log }

/-- A new closure, for the listener that is about to be called. -/
def allocate (s : Bus V) (delegate : Delegate V) : Bus V :=
  { s with
    made := s.made + 1
    delegates := fun i => if i = s.made + 1 then some delegate else s.delegates i }

def change (s : Bus V) (i : Nat) (change : Delegate V → Delegate V) : Bus V :=
  { s with delegates := fun j => if j = i then (s.delegates j).map change else s.delegates j }

/-- `append` to a deque of bounded length. -/
def shortCircuit (s : Bus V) (event listener : String) : Bus V :=
  let appended := s.shortCircuits ++ [(event, listener)]
  { s with shortCircuits := appended.drop (appended.length - SHORT_CIRCUIT_HISTORY) }

end Bus

def truthy : Option String → Bool
  | some detail => detail ≠ ""
  | none => false

section Procedures

variable (code : Code V) (call : Op V → M V (Answer V))

def requireSync (async : Bool) : M V Unit := if async then raise .typeError else pure ()

/-- `call_sync` of a listener, which notes the call. -/
def callListener (dispatch : Nat) (listener : Listener) (value : V) (next : Option Nat) : M V V := do
  requireSync (code.async listener.callback)
  let s ← get
  modify fun s => { s.record (.invoked dispatch listener) with calls := s.calls + 1 }
  play call (code.listener listener.callback value next s.calls)

def callTerminal (terminal : Nat) (value : V) : M V V := do
  requireSync (code.asyncTerminal terminal)
  let s ← get
  modify fun s => { s with calls := s.calls + 1 }
  play call (code.terminal terminal value s.calls)

/-! ### Registration -/

def on (event : Event V) (callback : Nat) (order : Int) (owner label : String) : M V (Answer V) := do
  if code.callable callback then do
    let s ← get
    if s.closed then pure (.disposer 0)
    else do
      requireSync (code.async callback)
      modify fun s => s.register event.name callback order owner label
      pure (.disposer (s.sequence + 1))
  else raise (.eventContract event.name .notCallable)

def dispose (sequence : Nat) : M V Unit := do
  let s ← get
  match s.registered sequence with
  | some listener => modify fun s => s.unregister listener
  | none => pure ()

/-! ### Dispatch -/

def checkResult (event : Event V) (result : V) : M V Unit :=
  match event.result with
  | none => pure ()
  | some isinstance_ =>
      if code.isNone result then raise (.eventContract event.name .noResult)
      else if isinstance_ result then pure ()
      else raise (.eventContract event.name .wrongResult)

def require (event : Event V) (mode : Mode) : M V Unit :=
  if event.mode = mode then pure () else raise (.eventContract event.name .wrongMode)

def checkPayload (event : Event V) (payload : V) : M V Unit :=
  if event.payload payload then pure () else raise (.eventContract event.name .wrongPayload)

/-- `_report`. -/
def report (dispatch : Nat) (listener : Listener) (error : Exc) : M V Unit := do
  match code.sink with
  | none => pure ()
  | some sink => do
      let s ← get
      modify fun s => { s with calls := s.calls + 1 }
      match ← attempt (play call (sink listener error s.calls)) with
      | .ok _ => pure ()
      | .error error => do
          modify fun s => s.record (.sinkThrew dispatch error)
          raise error

/-- One turn of the loop of `emit`. -/
def deliver (dispatch : Nat) (payload : V) (listener : Listener) : M V Unit := do
  let s ← get
  if s.live listener then
    match ← attempt (callListener code call dispatch listener payload none) with
    | .ok _ => pure ()
    | .error error => do
        modify fun s => s.record (.threw dispatch error)
        if error.isException then report code call dispatch listener error else raise error
  else modify fun s => s.record (.passed dispatch listener)

def emitTo (dispatch : Nat) (payload : V) : List Listener → M V Unit
  | [] => pure ()
  | listener :: rest => do
      deliver code call dispatch payload listener
      emitTo dispatch payload rest

def emit (event : Event V) (payload : V) : M V Unit := do
  require event .emit
  let s ← get
  if s.closed then pure ()
  else do
    checkPayload event payload
    modify fun s => s.begin_ event.name
    let dispatch := s.dispatches + 1
    match ← attempt (emitTo code call dispatch payload (s.snapshot event.name)) with
    | .ok _ => modify fun s => s.record (.emitted dispatch none)
    | .error error => do
        modify fun s => s.record (.emitted dispatch (some error))
        raise error

/-- The shrink check of a monotonic event; any other lets everything pass. -/
def shrink (event : Event V) (outer inner : V) : Except Exc (Option String) :=
  match event.monotonic, event.shrinkCheck with
  | true, some check => check outer inner
  | _, _ => .ok none

/-- A listener that did not delegate is remembered; the result of one that did is compared with
what it got, if it got anything. -/
def checkStep (event : Event V) (listener : Listener) (delegate : Delegate V) (result : V) : M V Unit :=
  if delegate.calls = 0 then modify fun s => s.shortCircuit event.name listener.describe
  else match delegate.captured with
    | none => pure ()
    | some captured =>
        match shrink event result captured with
        | .error error => raise error
        | .ok detail =>
            if truthy detail then
              raise (.monotonicViolation event.name listener.describe (detail.getD ""))
            else pure ()

/-- What `step` does after the callback of delegate `i` has returned. -/
def settleStep (event : Event V) (listener : Listener) (i : Nat) (result : V) : M V V := do
  modify fun s => s.change i fun delegate => { delegate with returned := some result }
  let s ← get
  match s.delegates i with
  | none => pure result
  | some delegate => do
      checkStep event listener delegate result
      checkResult code event result
      pure result

/-- What `build` makes of the rest of a chain. -/
def walk (event : Event V) (dispatch terminal : Nat) : List Listener → V → M V V
  | [], value => callTerminal code call terminal value
  | listener :: rest, value => do
      let s ← get
      if s.live listener then do
        let i := s.made + 1
        modify fun s => s.allocate
          ⟨dispatch, event, terminal, listener, rest, value, 0, none, false, none, none⟩
        let result ← andFinally (callListener code call dispatch listener value (some i))
          (modify fun s => s.change i fun delegate => { delegate with spent := true })
        settleStep code event listener i result
      else do
        modify fun s => s.record (.passed dispatch listener)
        walk event dispatch terminal rest value

/-- `delegate`. A callback can only call closures that exist. -/
def next (i : Nat) (forward : Option V) : M V V := do
  let s ← get
  match s.delegates i with
  | none => raise .typeError
  | some delegate =>
      if delegate.spent then
        raise (.waterfallReentry delegate.event.name
          (delegate.listener.describe ++ " (called next() after its dispatch returned)"))
      else do
        modify fun s => s.change i fun delegate => { delegate with calls := delegate.calls + 1 }
        if delegate.calls + 1 > 1 then
          raise (.waterfallReentry delegate.event.name delegate.listener.describe)
        else do
          let forwarded := forward.getD delegate.value
          match shrink delegate.event forwarded delegate.value with
          | .error error => raise error
          | .ok detail =>
              if truthy detail then
                raise (.monotonicViolation delegate.event.name
                  (delegate.listener.describe ++ " (forwarded to next())") (detail.getD ""))
              else do
                modify fun s => s.change i fun delegate =>
                  { delegate with forwarded := some forwarded }
                let captured ← walk code call delegate.event delegate.dispatch delegate.terminal
                  delegate.rest forwarded
                modify fun s => s.change i fun delegate => { delegate with captured := some captured }
                pure captured

def waterfall (event : Event V) (payload : V) (terminal : Nat) : M V V := do
  require event .waterfall
  checkPayload event payload
  let s ← get
  if s.closed then callTerminal code call terminal payload
  else do
    modify fun s => s.begin_ event.name
    let result ← walk code call event (s.dispatches + 1) terminal (s.snapshot event.name) payload
    checkResult code event result
    pure result

def step : Op V → M V (Answer V)
  | .on event callback order owner label => on code event callback order owner label
  | .dispose number => do dispose number; pure .none
  | .close => do modify fun s => s.shut; pure .none
  | .emit event payload => do emit code call event payload; pure .none
  | .waterfall event payload terminal => do
      let result ← waterfall code call event payload terminal
      pure (.value result)
  | .next i forward => do
      let result ← next code call i forward
      pure (.value result)

end Procedures

def exec (code : Code V) : Nat → Op V → M V (Answer V)
  | 0, _ => diverge
  | fuel + 1, o => step code (exec code fuel) o

def drive (code : Code V) (fuel : Nat) (host : Callback (Op V) (Answer V) Exc Unit) : M V Unit :=
  play (exec code fuel) host

/-! ### What the log tells -/

/-- `listener` is registered, and neither disposed nor dropped by a close. -/
def LiveIn (log : List Entry) (listener : Listener) : Prop :=
  .registered listener ∈ log ∧ .disposed listener.sequence ∉ log ∧ .closed ∉ log

def Entry.visits (dispatch : Nat) : Entry → Option Listener
  | .invoked dispatch' listener => if dispatch' = dispatch then some listener else none
  | .passed dispatch' listener => if dispatch' = dispatch then some listener else none
  | _ => none

/-- The listeners one dispatch has come to, invoked or passed over, the first one first. -/
def visited (dispatch : Nat) (log : List Entry) : List Listener :=
  (log.filterMap (Entry.visits dispatch)).reverse

def Entry.invokes (dispatch : Nat) : Entry → Option Listener
  | .invoked dispatch' listener => if dispatch' = dispatch then some listener else none
  | _ => none

def invocations (dispatch : Nat) (log : List Entry) : List Listener :=
  (log.filterMap (Entry.invokes dispatch)).reverse

/-- `rest` is what a dispatch has yet to come to. -/
def Frontier (dispatch : Nat) (rest : List Listener) (log : List Entry) : Prop :=
  ∃ event snapshot, .began dispatch event snapshot ∈ log ∧ visited dispatch log ++ rest = snapshot

/-- The order of a dispatch. -/
def Earlier (a b : Listener) : Prop :=
  a.order < b.order ∨ (a.order = b.order ∧ a.sequence < b.sequence)

/-- What was true when something happened, of what happened before it. -/
def law (before : List Entry) : Entry → Prop
  | .registered listener => ∀ listener', .registered listener' ∈ before →
      listener'.sequence < listener.sequence
  | .began dispatch event snapshot => (∀ event' snapshot', .began dispatch event' snapshot' ∉ before) ∧
      snapshot.Pairwise Earlier ∧
      ∀ listener, listener ∈ snapshot ↔ LiveIn before listener ∧ listener.event = event
  | .invoked dispatch listener => (∃ rest, Frontier dispatch (listener :: rest) before) ∧
      LiveIn before listener
  | .passed dispatch listener => (∃ rest, Frontier dispatch (listener :: rest) before) ∧
      (.disposed listener.sequence ∈ before ∨ .closed ∈ before)
  | .emitted dispatch none => Frontier dispatch [] before
  | .emitted dispatch (some error) => (error.isException = false ∧ .threw dispatch error ∈ before) ∨
      .sinkThrew dispatch error ∈ before
  | _ => True

theorem visited_cons_other (dispatch : Nat) (entry : Entry) (log : List Entry)
    (other : entry.visits dispatch = none) : visited dispatch (entry :: log) = visited dispatch log := by
  unfold visited
  rw [List.filterMap_cons_none other]

theorem visited_cons_self (dispatch : Nat) (entry : Entry) (listener : Listener) (log : List Entry)
    (visits : entry.visits dispatch = some listener) :
    visited dispatch (entry :: log) = visited dispatch log ++ [listener] := by
  unfold visited
  rw [List.filterMap_cons_some visits, List.reverse_cons]

theorem frontier_cons (dispatch : Nat) (rest : List Listener) (entry : Entry) (log : List Entry)
    (other : entry.visits dispatch = none) (frontier : Frontier dispatch rest log) :
    Frontier dispatch rest (entry :: log) := by
  obtain ⟨event, snapshot, began, split⟩ := frontier
  exact ⟨event, snapshot, List.mem_cons_of_mem _ began,
    by rw [visited_cons_other dispatch entry log other]; exact split⟩

/-- A dispatch comes to the next listener. -/
theorem frontier_visit (dispatch : Nat) (listener : Listener) (rest : List Listener) (entry : Entry)
    (log : List Entry) (visits : entry.visits dispatch = some listener)
    (frontier : Frontier dispatch (listener :: rest) log) : Frontier dispatch rest (entry :: log) := by
  obtain ⟨event, snapshot, began, split⟩ := frontier
  refine ⟨event, snapshot, List.mem_cons_of_mem _ began, ?_⟩
  rw [visited_cons_self dispatch entry listener log visits, List.append_assoc]
  exact split

/-! ### The invariant -/

/-- No closure of the dispatch can still go on with its chain. -/
def Quiet (dispatch : Nat) (s : Bus V) : Prop :=
  ∀ i delegate, s.delegates i = some delegate → delegate.dispatch = dispatch → delegate.calls ≠ 0

structure Sound (code : Code V) (s : Bus V) : Prop where
  lawful : Lawful law s.log
  buckets : ∀ event listener,
    listener ∈ s.listeners event ↔ LiveIn s.log listener ∧ listener.event = event
  nodup : ∀ event, (s.listeners event).Nodup
  closures : ∀ n listener,
    s.registered n = some listener ↔ .registered listener ∈ s.log ∧ listener.sequence = n
  numbered : ∀ listener, .registered listener ∈ s.log → listener.sequence ≤ s.sequence
  single : ∀ listener listener', .registered listener ∈ s.log → .registered listener' ∈ s.log →
    listener.sequence = listener'.sequence → listener = listener'
  retired : ∀ n, .disposed n ∈ s.log → n ≤ s.sequence
  sync : ∀ listener, .registered listener ∈ s.log → code.async listener.callback = false
  closed : s.closed = true ↔ .closed ∈ s.log
  started : ∀ dispatch, (∃ event snapshot, .began dispatch event snapshot ∈ s.log) ↔
    1 ≤ dispatch ∧ dispatch ≤ s.dispatches
  fresh : ∀ dispatch, s.dispatches < dispatch → visited dispatch s.log = []
  owned : ∀ i delegate, s.delegates i = some delegate →
    i ≤ s.made ∧ delegate.dispatch ≤ s.dispatches
  armed : ∀ i delegate, s.delegates i = some delegate → delegate.calls = 0 →
    Frontier delegate.dispatch delegate.rest s.log
  one : ∀ i j delegate delegate', s.delegates i = some delegate → s.delegates j = some delegate' →
    delegate.calls = 0 → delegate'.calls = 0 → delegate.dispatch = delegate'.dispatch → i = j

/-- An entry that changes neither who is registered nor where a dispatch is. -/
def Entry.Plain : Entry → Prop
  | .threw _ _ => True
  | .sinkThrew _ _ => True
  | .emitted _ _ => True
  | _ => False

section Changes

variable {code : Code V} {s : Bus V}

theorem live_iff (sound : Sound code s) (listener : Listener) :
    s.live listener = true ↔ LiveIn s.log listener := by
  unfold Bus.live
  rw [decide_eq_true_iff, sound.buckets]
  simp

/-- Whom a dispatch has yet to come to was registered when it began. -/
theorem frontier_registered (sound : Sound code s) {dispatch : Nat} {listener : Listener}
    {rest : List Listener} (frontier : Frontier dispatch (listener :: rest) s.log) :
    .registered listener ∈ s.log := by
  obtain ⟨event, snapshot, began, split⟩ := frontier
  obtain ⟨after, before, log, law, -⟩ := sound.lawful.of_mem began
  have member : listener ∈ snapshot := by
    rw [← split]
    exact List.mem_append_right _ List.mem_cons_self
  have registered := ((law.2.2 listener).mp member).1.1
  rw [log]
  exact List.mem_append_right _ (List.mem_cons_of_mem _ registered)

theorem liveIn_cons (entry : Entry) (log : List Entry) (listener : Listener)
    (registered : ∀ listener', entry ≠ .registered listener')
    (disposed : ∀ n, entry ≠ .disposed n) (closed : entry ≠ .closed) :
    LiveIn (entry :: log) listener ↔ LiveIn log listener := by
  unfold LiveIn
  simp only [List.mem_cons, not_or]
  constructor
  · rintro ⟨registered' | registered', ⟨-, alive⟩, -, open_⟩
    · exact absurd registered'.symm (registered listener)
    · exact ⟨registered', alive, open_⟩
  · rintro ⟨registered', alive, open_⟩
    exact ⟨Or.inr registered', ⟨fun same => disposed _ same.symm, alive⟩, fun same => closed same.symm,
      open_⟩

/-- An entry that only tells where a dispatch is, or how it ended. -/
theorem sound_entry (sound : Sound code s) (entry : Entry) (lawful : law s.log entry)
    (registered : ∀ listener, entry ≠ .registered listener) (disposed : ∀ n, entry ≠ .disposed n)
    (closed : entry ≠ .closed) (began : ∀ dispatch event snapshot, entry ≠ .began dispatch event snapshot)
    (visits : ∀ dispatch listener, entry.visits dispatch = some listener →
      dispatch ≤ s.dispatches ∧ Quiet dispatch s) : Sound code (s.record entry) where
  lawful := ⟨lawful, sound.lawful⟩
  buckets := fun event listener => (sound.buckets event listener).trans
    (and_congr_left' (liveIn_cons entry s.log listener registered disposed closed).symm)
  nodup := sound.nodup
  closures := fun n listener => (sound.closures n listener).trans (by
    have other : Entry.registered listener ≠ entry := fun same => registered listener same.symm
    simp [Bus.record, other])
  numbered := fun listener member => sound.numbered listener
    ((List.mem_cons.mp member).resolve_left fun same => registered listener same.symm)
  single := fun listener listener' first second => sound.single listener listener'
    ((List.mem_cons.mp first).resolve_left fun same => registered listener same.symm)
    ((List.mem_cons.mp second).resolve_left fun same => registered listener' same.symm)
  retired := fun n member => sound.retired n
    ((List.mem_cons.mp member).resolve_left fun same => disposed n same.symm)
  sync := fun listener member => sound.sync listener
    ((List.mem_cons.mp member).resolve_left fun same => registered listener same.symm)
  closed := sound.closed.trans (by
    have other : Entry.closed ≠ entry := fun same => closed same.symm
    simp [Bus.record, other])
  started := fun dispatch => by
    refine Iff.trans ?_ (sound.started dispatch)
    constructor
    · rintro ⟨event, snapshot, member⟩
      exact ⟨event, snapshot, (List.mem_cons.mp member).resolve_left fun same =>
        began dispatch event snapshot same.symm⟩
    · rintro ⟨event, snapshot, member⟩
      exact ⟨event, snapshot, List.mem_cons_of_mem _ member⟩
  fresh := fun dispatch above => by
    refine (visited_cons_other dispatch entry s.log ?_).trans (sound.fresh dispatch above)
    cases found : entry.visits dispatch with
    | none => rfl
    | some listener => exact absurd above (Nat.not_lt.mpr (visits dispatch listener found).1)
  owned := sound.owned
  armed := fun i delegate found uncalled => by
    refine frontier_cons _ _ entry s.log ?_ (sound.armed i delegate found uncalled)
    cases visit : entry.visits delegate.dispatch with
    | none => rfl
    | some listener =>
        exact absurd uncalled ((visits _ listener visit).2 i delegate found rfl)
  one := sound.one

theorem sound_plain (sound : Sound code s) (entry : Entry) (plain : entry.Plain)
    (lawful : law s.log entry) : Sound code (s.record entry) := by
  refine sound_entry sound entry lawful ?_ ?_ ?_ ?_ ?_
  · rintro listener rfl
    exact plain
  · rintro n rfl
    exact plain
  · rintro rfl
    exact plain
  · rintro dispatch event snapshot rfl
    exact plain
  · intro dispatch listener visits
    cases entry <;> first | exact plain.elim | cases visits

/-- A change of one closure, which may use up its right to go on. -/
theorem sound_change (sound : Sound code s) (i : Nat) (change : Delegate V → Delegate V)
    (dispatch : ∀ delegate, (change delegate).dispatch = delegate.dispatch)
    (rest : ∀ delegate, (change delegate).rest = delegate.rest)
    (calls : ∀ delegate, (change delegate).calls = 0 → delegate.calls = 0) :
    Sound code (s.change i change) := by
  have before (j : Nat) (delegate : Delegate V) (found : (s.change i change).delegates j = some delegate) :
      ∃ old, s.delegates j = some old ∧ old.dispatch = delegate.dispatch ∧ old.rest = delegate.rest ∧
        (delegate.calls = 0 → old.calls = 0) := by
    change (if j = i then (s.delegates j).map change else s.delegates j) = some delegate at found
    split at found
    · obtain ⟨old, at_, rfl⟩ := Option.map_eq_some_iff.mp found
      exact ⟨old, at_, (dispatch old).symm, (rest old).symm, calls old⟩
    · exact ⟨delegate, found, rfl, rfl, id⟩
  refine { sound with owned := ?_, armed := ?_, one := ?_ }
  · intro j delegate found
    obtain ⟨old, at_, same, -, -⟩ := before j delegate found
    have owned := sound.owned j old at_
    exact ⟨owned.1, same ▸ owned.2⟩
  · intro j delegate found uncalled
    obtain ⟨old, at_, dispatch, rest, calls⟩ := before j delegate found
    rw [← dispatch, ← rest]
    exact sound.armed j old at_ (calls uncalled)
  · intro j k delegate delegate' found found' uncalled uncalled' same
    obtain ⟨old, at_, dispatch, -, calls⟩ := before j delegate found
    obtain ⟨old', at', dispatch', -, calls'⟩ := before k delegate' found'
    exact sound.one j k old old' at_ at' (calls uncalled) (calls' uncalled')
      (dispatch.trans (same.trans dispatch'.symm))

/-- A new closure, of a dispatch that has no other that can go on. -/
theorem sound_allocate (sound : Sound code s) (delegate : Delegate V)
    (known : delegate.dispatch ≤ s.dispatches) (frontier : Frontier delegate.dispatch delegate.rest s.log)
    (quiet : Quiet delegate.dispatch s) : Sound code (s.allocate delegate) := by
  have cases_ (i : Nat) (found' : Delegate V) (found : (s.allocate delegate).delegates i = some found') :
      (i = s.made + 1 ∧ found' = delegate) ∨ (i ≠ s.made + 1 ∧ s.delegates i = some found') := by
    change (if i = s.made + 1 then some delegate else s.delegates i) = some found' at found
    split at found
    · exact Or.inl ⟨by assumption, (Option.some.inj found).symm⟩
    · exact Or.inr ⟨by assumption, found⟩
  refine { sound with owned := ?_, armed := ?_, one := ?_ }
  · intro i delegate' found
    rcases cases_ i delegate' found with ⟨rfl, rfl⟩ | ⟨-, old⟩
    · exact ⟨Nat.le_refl _, known⟩
    · exact ⟨Nat.le_succ_of_le (sound.owned i delegate' old).1, (sound.owned i delegate' old).2⟩
  · intro i delegate' found uncalled
    rcases cases_ i delegate' found with ⟨-, rfl⟩ | ⟨-, old⟩
    · exact frontier
    · exact sound.armed i delegate' old uncalled
  · intro i j first second found found' uncalled uncalled' same
    rcases cases_ i first found with ⟨rfl, rfl⟩ | ⟨-, old⟩
    · rcases cases_ j second found' with ⟨rfl, -⟩ | ⟨-, old'⟩
      · rfl
      · exact absurd uncalled' (quiet j second old' same.symm)
    · rcases cases_ j second found' with ⟨rfl, rfl⟩ | ⟨-, old'⟩
      · exact absurd uncalled (quiet i first old same)
      · exact sound.one i j first second old old' uncalled uncalled' same

theorem sound_register (sound : Sound code s) (event : String) (callback : Nat) (order : Int)
    (owner label : String) (opened : s.closed = false) (sync : code.async callback = false) :
    Sound code (s.register event callback order owner label) := by
  have below (listener : Listener) (member : .registered listener ∈ s.log) :
      listener.sequence < s.sequence + 1 := Nat.lt_succ_of_le (sound.numbered listener member)
  have unclosed : Entry.closed ∉ s.log := fun member => by
    rw [sound.closed.mpr member] at opened
    cases opened
  generalize made : (⟨event, callback, order, owner, s.sequence + 1, label⟩ : Listener) = listener
  have sequence : listener.sequence = s.sequence + 1 := by rw [← made]
  have named : listener.event = event := by rw [← made]
  have called : listener.callback = callback := by rw [← made]
  have live (other : Listener) : LiveIn (.registered listener :: s.log) other ↔
      LiveIn s.log other ∨ other = listener := by
    unfold LiveIn
    simp only [List.mem_cons, Entry.registered.injEq, reduceCtorEq, false_or]
    constructor
    · rintro ⟨rfl | registered, rest⟩
      · exact Or.inr rfl
      · exact Or.inl ⟨registered, rest⟩
    · rintro (⟨registered, rest⟩ | rfl)
      · exact ⟨Or.inr registered, rest⟩
      · refine ⟨Or.inl rfl, fun disposed => ?_, unclosed⟩
        have := sound.retired _ disposed
        omega
  have new (other : Listener) (member : .registered other ∈ .registered listener :: s.log) :
      other = listener ∨ .registered other ∈ s.log := by simpa using member
  have state : s.register event callback order owner label = { s with
      sequence := s.sequence + 1
      listeners := fun name => if name = event then s.listeners event ++ [listener] else s.listeners name
      registered := fun n => if n = s.sequence + 1 then some listener else s.registered n
      log := .registered listener :: s.log } := by
    rw [← made]
    rfl
  rw [state]
  constructor
  · refine ⟨fun other member => ?_, sound.lawful⟩
    rw [sequence]
    exact below other member
  · intro name other
    rw [live]
    dsimp only
    split
    · rename_i same
      rw [List.mem_append, sound.buckets, List.mem_singleton, same]
      constructor
      · rintro (⟨alive, at_⟩ | rfl)
        · exact ⟨Or.inl alive, at_⟩
        · exact ⟨Or.inr rfl, named⟩
      · rintro ⟨alive | rfl, at_⟩
        · exact Or.inl ⟨alive, at_⟩
        · exact Or.inr rfl
    · rename_i different
      rw [sound.buckets]
      constructor
      · rintro ⟨alive, at_⟩
        exact ⟨Or.inl alive, at_⟩
      · rintro ⟨alive | rfl, at_⟩
        · exact ⟨alive, at_⟩
        · exact absurd (at_.symm.trans named) different
  · intro name
    dsimp only
    split
    · refine List.nodup_append.mpr ⟨sound.nodup event, List.nodup_singleton _, ?_⟩
      intro other member other' single same
      have := below other ((sound.buckets event other).mp member).1.1
      rw [same, List.mem_singleton.mp single] at this
      omega
    · exact sound.nodup name
  · intro n other
    dsimp only
    split
    · rename_i same
      constructor
      · rintro ⟨⟩
        exact ⟨List.mem_cons_self, sequence.trans same.symm⟩
      · rintro ⟨member, at_⟩
        rcases new other member with rfl | member
        · rfl
        · have := below other member
          omega
    · rename_i different
      rw [sound.closures]
      constructor
      · rintro ⟨member, at_⟩
        exact ⟨List.mem_cons_of_mem _ member, at_⟩
      · rintro ⟨member, at_⟩
        rcases new other member with rfl | member
        · exact absurd (at_.symm.trans sequence) different
        · exact ⟨member, at_⟩
  · intro other member
    rcases new other member with rfl | member
    · exact Nat.le_of_eq sequence
    · exact Nat.le_of_lt (below other member)
  · intro first second member member' same
    rcases new first member with here | old
    · rcases new second member' with here' | old'
      · exact here.trans here'.symm
      · have := below second old'
        rw [here] at same
        omega
    · rcases new second member' with here' | old'
      · have := below first old
        rw [here'] at same
        omega
      · exact sound.single first second old old' same
  · exact fun n member => Nat.le_succ_of_le (sound.retired n (by simpa using member))
  · intro other member
    rcases new other member with rfl | member
    · rw [called]
      exact sync
    · exact sound.sync other member
  · exact sound.closed.trans (by simp)
  · exact fun dispatch => Iff.trans (by simp) (sound.started dispatch)
  · exact fun dispatch above => (visited_cons_other dispatch _ s.log rfl).trans
      (sound.fresh dispatch above)
  · exact sound.owned
  · exact fun i delegate found uncalled =>
      frontier_cons _ _ _ s.log rfl (sound.armed i delegate found uncalled)
  · exact sound.one

theorem sound_unregister (sound : Sound code s) (listener : Listener)
    (registered : .registered listener ∈ s.log) : Sound code (s.unregister listener) := by
  have live (other : Listener) : LiveIn (.disposed listener.sequence :: s.log) other ↔
      LiveIn s.log other ∧ other.sequence ≠ listener.sequence := by
    unfold LiveIn
    simp only [List.mem_cons, Entry.disposed.injEq, reduceCtorEq, false_or, not_or]
    constructor
    · rintro ⟨member, ⟨different, alive⟩, opened⟩
      exact ⟨⟨member, alive, opened⟩, different⟩
    · rintro ⟨⟨member, alive, opened⟩, different⟩
      exact ⟨member, ⟨different, alive⟩, opened⟩
  have different (other : Listener) (alive : LiveIn s.log other) :
      other.sequence ≠ listener.sequence ↔ other ≠ listener := by
    constructor
    · rintro apart rfl
      exact apart rfl
    · exact fun apart same => apart (sound.single other listener alive.1 registered same)
  constructor
  · exact ⟨trivial, sound.lawful⟩
  · intro name other
    change other ∈ (if name = listener.event then _ else s.listeners name) ↔
      LiveIn (.disposed listener.sequence :: s.log) other ∧ other.event = name
    rw [live]
    split
    · rename_i same
      rw [(sound.nodup _).mem_erase_iff, sound.buckets, same]
      constructor
      · rintro ⟨apart, alive, at_⟩
        exact ⟨⟨alive, (different other alive).mpr apart⟩, at_⟩
      · rintro ⟨⟨alive, apart⟩, at_⟩
        exact ⟨(different other alive).mp apart, alive, at_⟩
    · rename_i elsewhere
      rw [sound.buckets]
      constructor
      · rintro ⟨alive, at_⟩
        refine ⟨⟨alive, (different other alive).mpr ?_⟩, at_⟩
        rintro rfl
        exact elsewhere at_.symm
      · rintro ⟨⟨alive, -⟩, at_⟩
        exact ⟨alive, at_⟩
  · intro name
    change (if name = listener.event then _ else s.listeners name).Nodup
    split
    · exact (sound.nodup _).erase _
    · exact sound.nodup name
  · exact fun n other => (sound.closures n other).trans (by simp [Bus.unregister])
  · exact fun other member => sound.numbered other (by simpa [Bus.unregister] using member)
  · exact fun first second member member' => sound.single first second
      (by simpa [Bus.unregister] using member) (by simpa [Bus.unregister] using member')
  · intro n member
    rcases List.mem_cons.mp member with same | member
    · cases same
      exact sound.numbered listener registered
    · exact sound.retired n member
  · exact fun other member => sound.sync other (by simpa [Bus.unregister] using member)
  · exact sound.closed.trans (by simp [Bus.unregister])
  · exact fun dispatch => Iff.trans (by simp [Bus.unregister]) (sound.started dispatch)
  · exact fun dispatch above => (visited_cons_other dispatch _ s.log rfl).trans
      (sound.fresh dispatch above)
  · exact sound.owned
  · exact fun i delegate found uncalled =>
      frontier_cons _ _ _ s.log rfl (sound.armed i delegate found uncalled)
  · exact sound.one

theorem sound_shut (sound : Sound code s) : Sound code s.shut := by
  constructor
  · exact ⟨trivial, sound.lawful⟩
  · intro name listener
    constructor
    · exact fun member => absurd member List.not_mem_nil
    · exact fun given => absurd List.mem_cons_self given.1.2.2
  · exact fun _ => List.nodup_nil
  · exact fun n other => (sound.closures n other).trans (by simp [Bus.shut])
  · exact fun other member => sound.numbered other (by simpa [Bus.shut] using member)
  · exact fun first second member member' => sound.single first second
      (by simpa [Bus.shut] using member) (by simpa [Bus.shut] using member')
  · exact fun n member => sound.retired n (by simpa [Bus.shut] using member)
  · exact fun other member => sound.sync other (by simpa [Bus.shut] using member)
  · simp [Bus.shut]
  · exact fun dispatch => Iff.trans (by simp [Bus.shut]) (sound.started dispatch)
  · exact fun dispatch above => (visited_cons_other dispatch _ s.log rfl).trans
      (sound.fresh dispatch above)
  · exact sound.owned
  · exact fun i delegate found uncalled =>
      frontier_cons _ _ _ s.log rfl (sound.armed i delegate found uncalled)
  · exact sound.one

instance : Std.Total Bus.before := ⟨fun a b => by unfold Bus.before; omega⟩

instance : IsTrans Listener Bus.before := ⟨fun a b c => by unfold Bus.before; omega⟩

/-- A snapshot is in the order of a dispatch, and lists each live listener once. -/
theorem snapshot_earlier (sound : Sound code s) (event : String) :
    (s.snapshot event).Pairwise Earlier := by
  have sorted : (s.snapshot event).Pairwise Bus.before := List.pairwise_insertionSort Bus.before _
  have nodup : (s.snapshot event).Nodup :=
    (List.perm_insertionSort Bus.before _).nodup_iff.mpr (sound.nodup event)
  refine (List.pairwise_and_iff.mpr ⟨sorted, nodup⟩).imp_of_mem fun {a b} first second both => ?_
  have registered (listener : Listener) (member : listener ∈ s.snapshot event) :
      .registered listener ∈ s.log :=
    ((sound.buckets event listener).mp ((List.mem_insertionSort Bus.before).mp member)).1.1
  have apart : a.sequence ≠ b.sequence := fun same =>
    both.2 (sound.single a b (registered a first) (registered b second) same)
  have ordered := both.1
  unfold Bus.before at ordered
  unfold Earlier
  omega

theorem sound_begin (sound : Sound code s) (event : String) : Sound code (s.begin_ event) := by
  have unused : visited (s.dispatches + 1) s.log = [] := sound.fresh _ (Nat.lt_succ_self _)
  constructor
  · refine ⟨⟨fun event' snapshot' began => ?_, snapshot_earlier sound event, fun listener => ?_⟩,
      sound.lawful⟩
    · have := (sound.started _).mp ⟨event', snapshot', began⟩
      omega
    · exact (List.mem_insertionSort Bus.before).trans (sound.buckets event listener)
  · exact fun name listener => (sound.buckets name listener).trans
      (and_congr_left' (liveIn_cons (.began (s.dispatches + 1) event (s.snapshot event)) s.log listener
        (fun _ wrong => by cases wrong) (fun _ wrong => by cases wrong) fun wrong => by cases wrong).symm)
  · exact sound.nodup
  · exact fun n other => (sound.closures n other).trans (by simp [Bus.begin_])
  · exact fun other member => sound.numbered other (by simpa [Bus.begin_] using member)
  · exact fun first second member member' => sound.single first second
      (by simpa [Bus.begin_] using member) (by simpa [Bus.begin_] using member')
  · exact fun n member => sound.retired n (by simpa [Bus.begin_] using member)
  · exact fun other member => sound.sync other (by simpa [Bus.begin_] using member)
  · exact sound.closed.trans (by simp [Bus.begin_])
  · intro dispatch
    have old := sound.started dispatch
    change (∃ event' snapshot', _ ∈ _ :: s.log) ↔ 1 ≤ dispatch ∧ dispatch ≤ s.dispatches + 1
    constructor
    · rintro ⟨event', snapshot', member⟩
      rcases List.mem_cons.mp member with same | member
      · cases same
        omega
      · have := old.mp ⟨event', snapshot', member⟩
        omega
    · rintro ⟨positive, bound⟩
      by_cases new : dispatch = s.dispatches + 1
      · exact ⟨event, s.snapshot event, by rw [new]; exact List.mem_cons_self⟩
      · obtain ⟨event', snapshot', member⟩ := old.mpr ⟨positive, by omega⟩
        exact ⟨event', snapshot', List.mem_cons_of_mem _ member⟩
  · intro dispatch above
    have above : s.dispatches + 1 < dispatch := above
    exact (visited_cons_other dispatch _ s.log rfl).trans (sound.fresh dispatch (by omega))
  · exact fun i delegate found => ⟨(sound.owned i delegate found).1,
      Nat.le_succ_of_le (sound.owned i delegate found).2⟩
  · exact fun i delegate found uncalled =>
      frontier_cons _ _ _ s.log rfl (sound.armed i delegate found uncalled)
  · exact sound.one

end Changes

/-! ### What code that is called leaves alone -/

/-- The closures of one dispatch, but for how often they were called. -/
def frozen (dispatch : Nat) (s : Bus V) (i : Nat) : Option (Delegate V) :=
  (s.delegates i).bind fun delegate =>
    if delegate.dispatch = dispatch then some { delegate with calls := 1 } else none

/-- Since `old`, the dispatch has not moved. -/
structure Pinned (dispatch : Nat) (old s : Bus V) : Prop where
  known : dispatch ≤ s.dispatches
  quiet : Quiet dispatch s
  visits : visited dispatch s.log = visited dispatch old.log
  frozen : frozen dispatch s = frozen dispatch old

structure Held (code : Code V) (pins : Nat → Prop) (old s : Bus V) : Prop where
  sound : Sound code s
  pinned : ∀ dispatch, pins dispatch → Pinned dispatch old s
  owners : ∀ i delegate, old.delegates i = some delegate →
    ∃ delegate', s.delegates i = some delegate' ∧ delegate'.dispatch = delegate.dispatch
  dispatches : old.dispatches ≤ s.dispatches
  logged : old.log <:+ s.log

/-- What the operations that callbacks perform are assumed to keep. -/
def Calls (code : Code V) (call : Op V → M V (Answer V)) : Prop :=
  ∀ pins old o, Keeps (Held code pins old) (fun _ => True) (Held code pins old) (call o)

section Held

variable {code : Code V} {pins pins' : Nat → Prop} {old s t : Bus V}

theorem held_refl (held : Held code pins old s) : Held code pins s s where
  sound := held.sound
  pinned := fun dispatch pin =>
    ⟨(held.pinned dispatch pin).known, (held.pinned dispatch pin).quiet, rfl, rfl⟩
  owners := fun _ delegate found => ⟨delegate, found, rfl⟩
  dispatches := Nat.le_refl _
  logged := List.suffix_refl _

theorem held_trans (first : Held code pins old s) (second : Held code pins' s t)
    (fewer : ∀ dispatch, pins dispatch → pins' dispatch) : Held code pins old t where
  sound := second.sound
  pinned := fun dispatch pin => by
    have before := first.pinned dispatch pin
    have after := second.pinned dispatch (fewer dispatch pin)
    exact ⟨after.known, after.quiet, after.visits.trans before.visits, after.frozen.trans before.frozen⟩
  owners := fun i delegate found => by
    obtain ⟨delegate', found', same⟩ := first.owners i delegate found
    obtain ⟨delegate'', found'', same'⟩ := second.owners i delegate' found'
    exact ⟨delegate'', found'', same'.trans same⟩
  dispatches := Nat.le_trans first.dispatches second.dispatches
  logged := first.logged.trans second.logged

/-- A change that leaves the closures alone. -/
theorem held_kept (held : Held code pins old s) (sound : Sound code t)
    (delegates : t.delegates = s.delegates) (dispatches : s.dispatches ≤ t.dispatches)
    (logged : s.log <:+ t.log)
    (visits : ∀ dispatch, pins dispatch → visited dispatch t.log = visited dispatch s.log) :
    Held code pins old t where
  sound := sound
  pinned := fun dispatch pin => by
    have before := held.pinned dispatch pin
    refine ⟨Nat.le_trans before.known dispatches, ?_, (visits dispatch pin).trans before.visits, ?_⟩
    · intro i delegate found
      exact before.quiet i delegate (delegates ▸ found)
    · refine Eq.trans ?_ before.frozen
      unfold frozen
      rw [delegates]
  owners := fun i delegate found => by
    obtain ⟨delegate', found', same⟩ := held.owners i delegate found
    exact ⟨delegate', delegates ▸ found', same⟩
  dispatches := Nat.le_trans held.dispatches dispatches
  logged := held.logged.trans logged

theorem held_called (held : Held code pins old s) (calls : Nat) : Held code pins old { s with calls } :=
  held_kept held { held.sound with } rfl (Nat.le_refl _) (List.suffix_refl _) fun _ _ => rfl

theorem held_remembered (held : Held code pins old s) (shortCircuits : List (String × String)) :
    Held code pins old { s with shortCircuits } :=
  held_kept held { held.sound with } rfl (Nat.le_refl _) (List.suffix_refl _) fun _ _ => rfl

theorem held_plain (held : Held code pins old s) (entry : Entry) (plain : entry.Plain)
    (lawful : law s.log entry) : Held code pins old (s.record entry) := by
  refine held_kept held (sound_plain held.sound entry plain lawful) rfl (Nat.le_refl _)
    (List.suffix_cons entry s.log) fun dispatch _ => visited_cons_other dispatch entry s.log ?_
  cases entry <;> first | exact plain.elim | rfl

theorem frozen_change (s : Bus V) (i dispatch : Nat) (change : Delegate V → Delegate V)
    (same : ∀ delegate, s.delegates i = some delegate → delegate.dispatch = dispatch →
      { change delegate with calls := 1 } = { delegate with calls := 1 })
    (kept : ∀ delegate, (change delegate).dispatch = delegate.dispatch) :
    frozen dispatch (s.change i change) = frozen dispatch s := by
  funext j
  change (if j = i then (s.delegates j).map change else s.delegates j).bind _ = _
  unfold frozen
  split
  · rename_i here
    subst here
    cases found : s.delegates j with
    | none => rfl
    | some delegate =>
        rw [Option.map_some, Option.bind_some, Option.bind_some]
        by_cases mine : delegate.dispatch = dispatch
        · rw [if_pos ((kept delegate).trans mine), if_pos mine]
          exact congrArg some (same delegate found mine)
        · rw [if_neg (fun same => mine ((kept delegate).symm.trans same)), if_neg mine]
  · rfl

theorem quiet_change (s : Bus V) (i dispatch : Nat) (change : Delegate V → Delegate V)
    (kept : ∀ delegate, (change delegate).dispatch = delegate.dispatch)
    (calls : ∀ delegate, (change delegate).calls = 0 → delegate.calls = 0) (quiet : Quiet dispatch s) :
    Quiet dispatch (s.change i change) := by
  intro j delegate found mine
  change (if j = i then (s.delegates j).map change else s.delegates j) = some delegate at found
  split at found
  · obtain ⟨before, at_, rfl⟩ := Option.map_eq_some_iff.mp found
    exact fun uncalled => quiet j before at_ ((kept before).symm.trans mine) (calls before uncalled)
  · exact quiet j delegate found mine

/-- A change of one closure: of a dispatch that is not pinned, or of nothing but its calls. -/
theorem held_change (held : Held code pins old s) (i : Nat) (change : Delegate V → Delegate V)
    (same : ∀ delegate, s.delegates i = some delegate → pins delegate.dispatch →
      { change delegate with calls := 1 } = { delegate with calls := 1 })
    (kept : ∀ delegate, (change delegate).dispatch = delegate.dispatch)
    (rest : ∀ delegate, (change delegate).rest = delegate.rest)
    (calls : ∀ delegate, (change delegate).calls = 0 → delegate.calls = 0) :
    Held code pins old (s.change i change) where
  sound := sound_change held.sound i change kept rest calls
  pinned := fun dispatch pin => by
    have before := held.pinned dispatch pin
    refine ⟨before.known, quiet_change s i dispatch change kept calls before.quiet, before.visits, ?_⟩
    exact (frozen_change s i dispatch change (fun delegate found mine =>
      same delegate found (mine ▸ pin)) kept).trans before.frozen
  owners := fun j delegate found => by
    obtain ⟨delegate', found', mine⟩ := held.owners j delegate found
    by_cases here : j = i
    · refine ⟨change delegate', ?_, (kept delegate').trans mine⟩
      exact (if_pos here).trans (by rw [found']; rfl)
    · exact ⟨delegate', (if_neg here).trans found', mine⟩
  dispatches := held.dispatches
  logged := held.logged

theorem held_allocate (held : Held code pins old s) (delegate : Delegate V)
    (unpinned : ¬ pins delegate.dispatch) (sound : Sound code (s.allocate delegate)) :
    Held code pins old (s.allocate delegate) where
  sound := sound
  pinned := fun dispatch pin => by
    have before := held.pinned dispatch pin
    have other : delegate.dispatch ≠ dispatch := fun same => unpinned (same ▸ pin)
    refine ⟨before.known, fun i found' found mine => ?_, before.visits, ?_⟩
    · change (if i = s.made + 1 then some delegate else s.delegates i) = some found' at found
      split at found
      · cases found
        exact absurd mine other
      · exact before.quiet i found' found mine
    · refine Eq.trans (funext fun i => ?_) before.frozen
      change (if i = s.made + 1 then some delegate else s.delegates i).bind _ = _
      unfold frozen
      split
      · rename_i new
        have unused : s.delegates i = none := by
          by_contra used
          obtain ⟨old', found⟩ := Option.ne_none_iff_exists'.mp used
          have := (held.sound.owned i old' found).1
          omega
        rw [unused, Option.bind_some, if_neg other]
        rfl
      · rfl
  owners := fun i delegate' found => by
    obtain ⟨delegate'', found', mine⟩ := held.owners i delegate' found
    have := (held.sound.owned i delegate'' found').1
    exact ⟨delegate'', (if_neg (by omega)).trans found', mine⟩
  dispatches := held.dispatches
  logged := held.logged

end Held

section Procedures

variable {code : Code V} {call : Op V → M V (Answer V)} {pins : Nat → Prop} {old : Bus V}

/-- A computation that keeps what is pinned. -/
abbrev Leaves (code : Code V) (pins : Nat → Prop) (old : Bus V) (P : Bus V → Prop) {α : Type}
    (body : M V α) : Prop :=
  Triple P body (fun _ => Held code pins old) (fun _ s => Held code pins old s ∧ True)
    (Held code pins old)

/-- What a part of a run leaves alone since it began, in the run that it is part of. -/
theorem leaves_outer {P : Bus V → Prop} {s : Bus V} {α : Type} {body : M V α}
    (held : Held code pins old s) (run : Leaves code pins s P body) : Leaves code pins old P body :=
  triple_stop (triple_post run (fun _ _ after => held_trans held after fun _ => id)
    fun _ _ raised => ⟨held_trans held raised.1 fun _ => id, trivial⟩)
    fun _ after => held_trans held after fun _ => id

/-- A change of a closure of a dispatch that was not pinned. -/
theorem held_change_free {s : Bus V} {i : Nat} {delegate : Delegate V}
    (found : old.delegates i = some delegate) (unpinned : ¬ pins delegate.dispatch)
    (held : Held code pins old s) (change : Delegate V → Delegate V)
    (kept : ∀ delegate, (change delegate).dispatch = delegate.dispatch)
    (rest : ∀ delegate, (change delegate).rest = delegate.rest)
    (calls : ∀ delegate, (change delegate).calls = 0 → delegate.calls = 0) :
    Held code pins old (s.change i change) := by
  obtain ⟨delegate', found', same⟩ := held.owners i delegate found
  refine held_change held i change (fun other at_ pin => ?_) kept rest calls
  rw [found'] at at_
  cases at_
  exact absurd (same ▸ pin) unpinned

theorem leaves_callListener (h : Calls code call) {P : Bus V → Prop} (dispatch : Nat)
    (listener : Listener) (value : V) (next : Option Nat)
    (sync : code.async listener.callback = false)
    (starts : ∀ s, P s → Held code pins old (s.record (.invoked dispatch listener))) :
    Leaves code pins old P (callListener code call dispatch listener value next) := by
  unfold callListener requireSync
  refine triple_bind (Q := fun _ => P) (triple_ite (fun wrong => ?_) fun _ =>
    triple_pure () fun _ given => given) fun _ => triple_get_bind fun s given => ?_
  · rw [sync] at wrong
    cases wrong
  refine triple_bind (Q := fun _ => Held code pins old) (triple_modify _ ?_) fun _ =>
    keeps_play (h pins old) _
  rintro t rfl
  exact held_called (starts t given) _

theorem leaves_callTerminal (h : Calls code call) (terminal : Nat) (value : V) :
    Leaves code pins old (Held code pins old) (callTerminal code call terminal value) := by
  unfold callTerminal requireSync
  refine keeps_bind (keeps_ite (fun _ => keeps_raise _ trivial) fun _ => keeps_pure ()) fun _ =>
    keeps_bind keeps_get fun s => keeps_bind (keeps_modify fun t held => ?_) fun _ =>
      keeps_play (h pins old) _
  exact held_called held _

theorem leaves_checkResult (event : Event V) (result : V) :
    Leaves code pins old (Held code pins old) (checkResult code event result) := by
  unfold checkResult
  cases event.result with
  | none => exact keeps_pure ()
  | some isinstance_ =>
      exact keeps_ite (fun _ => keeps_raise _ trivial) fun _ =>
        keeps_ite (fun _ => keeps_pure ()) fun _ => keeps_raise _ trivial

theorem leaves_checkStep (event : Event V) (listener : Listener) (delegate : Delegate V) (result : V) :
    Leaves code pins old (Held code pins old)
      (checkStep event listener delegate result : M V Unit) := by
  unfold checkStep
  refine keeps_ite (fun _ => keeps_modify fun s held => ?_) fun _ => ?_
  · exact held_remembered held _
  · cases delegate.captured with
    | none => exact keeps_pure ()
    | some captured =>
        dsimp only
        cases shrink event result captured with
        | error error => exact keeps_raise error trivial
        | ok detail => exact keeps_ite (fun _ => keeps_raise _ trivial) fun _ => keeps_pure ()

theorem leaves_settleStep (event : Event V) (listener : Listener) (i : Nat) (result : V)
    (mine : ∃ delegate, old.delegates i = some delegate ∧ ¬ pins delegate.dispatch) :
    Leaves code pins old (Held code pins old) (settleStep code event listener i result) := by
  unfold settleStep
  refine keeps_bind (keeps_modify fun s held => ?_) fun _ => keeps_bind keeps_get fun s => ?_
  · obtain ⟨delegate, found, unpinned⟩ := mine
    exact held_change_free found unpinned held _ (fun _ => rfl) (fun _ => rfl) fun _ => id
  cases s.delegates i with
  | none => exact keeps_pure result
  | some delegate =>
      exact keeps_bind (leaves_checkStep event listener delegate result) fun _ =>
        keeps_bind (leaves_checkResult event result) fun _ => keeps_pure result

/-- A dispatch is about to go on with what it has yet to come to. -/
structure Going (code : Code V) (pins : Nat → Prop) (old : Bus V) (dispatch : Nat)
    (rest : List Listener) (s : Bus V) : Prop where
  held : Held code pins old s
  known : dispatch ≤ s.dispatches
  frontier : Frontier dispatch rest s.log
  quiet : Quiet dispatch s

/-- It comes to the next listener. -/
theorem going_visit {dispatch : Nat} {listener : Listener} {rest : List Listener} {s : Bus V}
    (unpinned : ¬ pins dispatch) (going : Going code pins old dispatch (listener :: rest) s)
    (entry : Entry) (visits : ∀ dispatch', entry.visits dispatch' =
      if dispatch = dispatch' then some listener else none)
    (lawful : law s.log entry) (registered : ∀ other, entry ≠ .registered other)
    (disposed : ∀ n, entry ≠ .disposed n) (closed : entry ≠ .closed)
    (began : ∀ dispatch event snapshot, entry ≠ .began dispatch event snapshot) :
    Going code pins old dispatch rest (s.record entry) := by
  have sound : Sound code (s.record entry) := by
    refine sound_entry going.held.sound entry lawful registered disposed closed began ?_
    intro dispatch' other visit
    rw [visits] at visit
    split at visit
    · rename_i same
      rw [← same]
      exact ⟨going.known, going.quiet⟩
    · cases visit
  refine ⟨held_kept going.held sound rfl (Nat.le_refl _) (List.suffix_cons entry s.log) ?_, going.known,
    frontier_visit dispatch listener rest entry s.log ((visits dispatch).trans (if_pos rfl))
      going.frontier, going.quiet⟩
  intro dispatch' pin
  refine visited_cons_other dispatch' entry s.log ((visits dispatch').trans (if_neg ?_))
  rintro rfl
  exact unpinned pin

theorem going_passed {dispatch : Nat} {listener : Listener} {rest : List Listener} {s : Bus V}
    (unpinned : ¬ pins dispatch) (going : Going code pins old dispatch (listener :: rest) s)
    (dead : ¬ s.live listener = true) :
    Going code pins old dispatch rest (s.record (.passed dispatch listener)) := by
  have registered := frontier_registered going.held.sound going.frontier
  refine going_visit unpinned going _ (fun _ => rfl) ⟨⟨rest, going.frontier⟩, ?_⟩
    (fun _ => nofun) (fun _ => nofun) nofun fun _ _ _ => nofun
  rw [live_iff going.held.sound] at dead
  by_contra neither
  rw [not_or] at neither
  exact dead ⟨registered, neither⟩

theorem going_invoked {dispatch : Nat} {listener : Listener} {rest : List Listener} {s : Bus V}
    (unpinned : ¬ pins dispatch) (going : Going code pins old dispatch (listener :: rest) s)
    (live : s.live listener = true) :
    Going code pins old dispatch rest (s.record (.invoked dispatch listener)) :=
  going_visit unpinned going _ (fun _ => rfl)
    ⟨⟨rest, going.frontier⟩, (live_iff going.held.sound listener).mp live⟩
    (fun _ => nofun) (fun _ => nofun) nofun fun _ _ _ => nofun

theorem leaves_walk (h : Calls code call) (event : Event V) (dispatch terminal : Nat)
    (unpinned : ¬ pins dispatch) (rest : List Listener) (value : V) :
    Leaves code pins old (Going code pins old dispatch rest)
      (walk code call event dispatch terminal rest value) := by
  induction rest generalizing value with
  | nil => exact triple_pre (fun s going => going.held) (leaves_callTerminal h terminal value)
  | cons listener rest ih =>
      unfold walk
      refine triple_get_bind fun s going => triple_ite (fun live => ?_) fun dead => ?_
      · have invoked := going_invoked unpinned going live
        have sync := going.held.sound.sync listener
          (frontier_registered going.held.sound going.frontier)
        generalize made : (⟨dispatch, event, terminal, listener, rest, value, 0, none, false, none,
          none⟩ : Delegate V) = delegate
        have mine : delegate.dispatch = dispatch := by rw [← made]
        have later : delegate.rest = rest := by rw [← made]
        have sound : Sound code ((s.record (.invoked dispatch listener)).allocate delegate) := by
          refine sound_allocate invoked.held.sound delegate ?_ ?_ ?_
          · rw [mine]
            exact invoked.known
          · rw [mine, later]
            exact invoked.frontier
          · rw [mine]
            exact invoked.quiet
        have entered := held_allocate invoked.held delegate (by rw [mine]; exact unpinned) sound
        have inner : Leaves code pins ((s.record (.invoked dispatch listener)).allocate delegate)
            (fun t => t = s.allocate delegate) (andFinally
              (callListener code call dispatch listener value (some (s.made + 1)))
              (Comp.modify fun t => t.change (s.made + 1) fun d => { d with spent := true }) >>=
                fun result => settleStep code event listener (s.made + 1) result) := by
          have owner : ((s.record (.invoked dispatch listener)).allocate delegate).delegates (s.made + 1) =
              some delegate := if_pos rfl
          have free : ¬ pins delegate.dispatch := by
            rw [mine]
            exact unpinned
          have spent (t : Bus V)
              (held : Held code pins ((s.record (.invoked dispatch listener)).allocate delegate) t) :
              Held code pins ((s.record (.invoked dispatch listener)).allocate delegate)
                (t.change (s.made + 1) fun d => { d with spent := true }) :=
            held_change_free owner free held _ (fun _ => rfl) (fun _ => rfl) fun _ => id
          refine triple_bind (triple_andFinally (leaves_callListener h dispatch listener value _ sync ?_)
            (fun _ => triple_modify _ spent) fun _ => triple_modify _ fun t held =>
              ⟨spent t held.1, trivial⟩) fun result =>
                leaves_settleStep event listener _ result ⟨delegate, owner, free⟩
          rintro t rfl
          exact held_refl entered
        refine triple_bind (Q := fun _ t => t = s.allocate delegate) (triple_modify _ ?_) fun _ => ?_
        · rintro t rfl
          rfl
        · exact leaves_outer entered inner
      · refine triple_bind (Q := fun _ => Going code pins old dispatch rest) (triple_modify _ ?_)
          fun _ => ih value
        rintro t rfl
        exact going_passed unpinned going dead

/-- The first call of a closure uses up its right to go on. -/
theorem going_next {s : Bus V} (held : Held code pins old s) (i : Nat) (delegate : Delegate V)
    (found : s.delegates i = some delegate) (uncalled : delegate.calls = 0) :
    Going code pins old delegate.dispatch delegate.rest
      (s.change i fun delegate => { delegate with calls := delegate.calls + 1 }) := by
  refine ⟨held_change held i _ (fun _ _ _ => rfl) (fun _ => rfl) (fun _ => rfl) fun _ wrong => ?_,
    (held.sound.owned i delegate found).2, held.sound.armed i delegate found uncalled, ?_⟩
  · cases wrong
  · intro j other at_ mine called
    change (if j = i then (s.delegates j).map _ else s.delegates j) = some other at at_
    split at at_
    · obtain ⟨before, -, rfl⟩ := Option.map_eq_some_iff.mp at_
      cases called
    · rename_i apart
      exact apart (held.sound.one j i other delegate at_ found called uncalled mine)

theorem going_begin {s : Bus V} (held : Held code pins old s) (event : String) :
    Going code pins old (s.dispatches + 1) (s.snapshot event) (s.begin_ event) where
  held := by
    refine held_kept held (sound_begin held.sound event) rfl (Nat.le_succ _) (List.suffix_cons _ s.log) ?_
    exact fun dispatch _ => visited_cons_other dispatch _ s.log rfl
  known := Nat.le_refl _
  frontier := by
    refine ⟨event, s.snapshot event, List.mem_cons_self, ?_⟩
    have unused : visited (s.dispatches + 1) s.log = [] :=
      held.sound.fresh _ (Nat.lt_succ_self _)
    exact (congrArg (· ++ s.snapshot event) ((visited_cons_other _ _ s.log rfl).trans unused))
  quiet := fun i delegate found mine => by
    have owned := (held.sound.owned i delegate found).2
    omega

theorem leaves_next (h : Calls code call) (i : Nat) (forward : Option V) :
    Leaves code pins old (Held code pins old) (next code call i forward) := by
  unfold next
  refine triple_get_bind fun s held => ?_
  cases found : s.delegates i with
  | none => exact triple_raise _ fun t same => same ▸ ⟨held, trivial⟩
  | some delegate =>
      refine triple_ite (fun _ => triple_raise _ fun t same => same ▸ ⟨held, trivial⟩) fun _ => ?_
      by_cases uncalled : delegate.calls = 0
      · have going := going_next held i delegate found uncalled
        have unpinned : ¬ pins delegate.dispatch := fun pin =>
          (held.pinned _ pin).quiet i delegate found rfl uncalled
        let called := s.change i fun delegate => { delegate with calls := delegate.calls + 1 }
        refine triple_bind (Q := fun _ t => t = called) (triple_modify _ (by rintro t rfl; rfl))
          fun _ => leaves_outer going.held ?_
        rw [if_neg (by omega)]
        have failed (error : Exc) : Leaves code pins called (fun t => t = called)
            (raise error : M V V) :=
          triple_raise error fun t same => by
            rw [same]
            exact ⟨held_refl going.held, trivial⟩
        have owner : called.delegates i = some { delegate with calls := delegate.calls + 1 } :=
          (if_pos rfl).trans (by rw [found]; rfl)
        dsimp only
        cases shrink delegate.event (forward.getD delegate.value) delegate.value with
        | error error => exact failed error
        | ok detail =>
            refine triple_ite (fun _ => failed _) fun _ => ?_
            refine triple_bind (Q := fun _ => Going code pins called delegate.dispatch delegate.rest)
              (triple_modify _ ?_) fun _ => triple_bind (leaves_walk h delegate.event _ _ unpinned _ _)
                fun captured => keeps_bind (keeps_modify fun t after => ?_) fun _ => keeps_pure captured
            · rintro t rfl
              exact ⟨held_change_free owner unpinned (held_refl going.held) _ (fun _ => rfl)
                (fun _ => rfl) fun _ => id, going.known, going.frontier,
                quiet_change _ i _ _ (fun _ => rfl) (fun _ => id) going.quiet⟩
            · exact held_change_free owner unpinned after _ (fun _ => rfl) (fun _ => rfl) fun _ => id
      · refine triple_bind (Q := fun _ => Held code pins old) (triple_modify _ ?_) fun _ => ?_
        · rintro t rfl
          exact held_change held i _ (fun _ _ _ => rfl) (fun _ => rfl) (fun _ => rfl) fun _ wrong => by
            cases wrong
        · rw [if_pos (by omega)]
          exact keeps_raise _ trivial

theorem leaves_waterfall (h : Calls code call) (event : Event V) (payload : V) (terminal : Nat) :
    Leaves code pins old (Held code pins old) (waterfall code call event payload terminal) := by
  unfold waterfall require checkPayload
  refine keeps_bind (keeps_ite (fun _ => keeps_pure ()) fun _ => keeps_raise _ trivial) fun _ => ?_
  refine keeps_bind (keeps_ite (fun _ => keeps_pure ()) fun _ => keeps_raise _ trivial) fun _ => ?_
  refine triple_get_bind fun s held => triple_ite (fun _ => ?_) fun _ => ?_
  · exact triple_pre (fun t same => same ▸ held) (leaves_callTerminal h terminal payload)
  have unpinned : ¬ pins (s.dispatches + 1) := fun pin => by
    have := (held.pinned _ pin).known
    omega
  refine triple_bind (Q := fun _ => Going code pins old (s.dispatches + 1) (s.snapshot event.name))
    (triple_modify _ (by rintro t rfl; exact going_begin held event.name)) fun _ => ?_
  refine triple_bind (leaves_walk h event _ terminal unpinned _ payload) fun result =>
    keeps_bind (leaves_checkResult event result) fun _ => keeps_pure result

/-! ### Emitting -/

/-- A turn of `emit`: its dispatch has no closures. -/
structure Turn (code : Code V) (pins : Nat → Prop) (old : Bus V) (dispatch : Nat)
    (rest : List Listener) (s : Bus V) : Prop where
  going : Going code pins old dispatch rest s
  ownerless : ∀ i delegate, s.delegates i = some delegate → delegate.dispatch ≠ dispatch

/-- An emission is only cut short by a bare `BaseException`, or by the error sink. -/
def Blame (dispatch : Nat) (error : Exc) (log : List Entry) : Prop :=
  (error.isException = false ∧ .threw dispatch error ∈ log) ∨ .sinkThrew dispatch error ∈ log

/-- What a callback of the dispatch may do does not move it. -/
theorem turn_after {dispatch : Nat} {rest : List Listener} {s t : Bus V}
    (turn : Turn code pins old dispatch rest s)
    (after : Held code (fun d => pins d ∨ d = dispatch) s t) : Turn code pins old dispatch rest t := by
  have pinned := after.pinned dispatch (Or.inr rfl)
  refine ⟨⟨held_trans turn.going.held after fun _ => Or.inl, pinned.known, ?_, pinned.quiet⟩, ?_⟩
  · obtain ⟨event, snapshot, began, split⟩ := turn.going.frontier
    exact ⟨event, snapshot, after.logged.subset began, by rw [pinned.visits]; exact split⟩
  · intro i delegate found mine
    have same := congrFun pinned.frozen i
    unfold frozen at same
    rw [found, Option.bind_some, if_pos mine] at same
    cases before : s.delegates i with
    | none =>
        rw [before] at same
        cases same
    | some delegate' =>
        rw [before, Option.bind_some, if_neg (turn.ownerless i delegate' before)] at same
        cases same

theorem turn_held {dispatch : Nat} {rest : List Listener} {s : Bus V}
    (turn : Turn code pins old dispatch rest s) : Held code (fun d => pins d ∨ d = dispatch) s s where
  sound := turn.going.held.sound
  pinned := fun d pin => by
    rcases pin with pin | rfl
    · exact (held_refl turn.going.held).pinned d pin
    · exact ⟨turn.going.known, turn.going.quiet, rfl, rfl⟩
  owners := fun _ delegate found => ⟨delegate, found, rfl⟩
  dispatches := Nat.le_refl _
  logged := List.suffix_refl _

theorem turn_plain {dispatch : Nat} {rest : List Listener} {s : Bus V}
    (turn : Turn code pins old dispatch rest s) (entry : Entry) (plain : entry.Plain)
    (lawful : law s.log entry) : Turn code pins old dispatch rest (s.record entry) := by
  refine ⟨⟨held_plain turn.going.held entry plain lawful, turn.going.known,
    frontier_cons _ _ entry s.log ?_ turn.going.frontier, turn.going.quiet⟩, turn.ownerless⟩
  cases entry <;> first | exact plain.elim | rfl

theorem turn_report (h : Calls code call) (dispatch : Nat) (rest : List Listener) (listener : Listener)
    (error : Exc) : Triple (Turn code pins old dispatch rest)
      (report code call dispatch listener error) (fun _ => Turn code pins old dispatch rest)
      (fun error s => Held code pins old s ∧ Blame dispatch error s.log) (Held code pins old) := by
  unfold report
  cases code.sink with
  | none => exact triple_pure () fun _ turn => turn
  | some sink =>
      refine triple_get_bind fun s turn => triple_bind (Q := fun _ t => t = { s with calls := s.calls + 1 })
        (triple_modify _ (by rintro t rfl; rfl)) fun _ => ?_
      have played : Leaves code (fun d => pins d ∨ d = dispatch) s
          (fun t => t = { s with calls := s.calls + 1 }) (play call (sink listener error s.calls)) :=
        triple_pre (fun t same => by rw [same]; exact held_called (turn_held turn) _)
          (keeps_play (h _ _) _)
      refine triple_bind (Q := fun _ => Turn code pins old dispatch rest) (triple_attempt (triple_stop
        (triple_post played (fun _ _ after => turn_after turn after)
          fun _ _ raised => turn_after turn raised.1)
        fun t after => (turn_after turn after).going.held)) fun result => ?_
      cases result with
      | ok _ => exact triple_pure () fun _ turn => turn
      | error error =>
          refine triple_bind (Q := fun _ t => Held code pins old t ∧ Blame dispatch error t.log)
            (triple_modify _ fun t turn => ?_) fun _ => triple_raise error fun _ given => given
          exact ⟨(turn_plain turn (.sinkThrew dispatch error) trivial trivial).going.held,
            Or.inr List.mem_cons_self⟩

theorem turn_deliver (h : Calls code call) (dispatch : Nat) (unpinned : ¬ pins dispatch) (payload : V)
    (listener : Listener) (rest : List Listener) :
    Triple (Turn code pins old dispatch (listener :: rest)) (deliver code call dispatch payload listener)
      (fun _ => Turn code pins old dispatch rest)
      (fun error s => Held code pins old s ∧ Blame dispatch error s.log) (Held code pins old) := by
  unfold deliver
  refine triple_get_bind fun s turn => triple_ite (fun live => ?_) fun dead => ?_
  · have invoked : Turn code pins old dispatch rest (s.record (.invoked dispatch listener)) :=
      ⟨going_invoked unpinned turn.going live, turn.ownerless⟩
    have sync := turn.going.held.sound.sync listener
      (frontier_registered turn.going.held.sound turn.going.frontier)
    have called : Leaves code (fun d => pins d ∨ d = dispatch) (s.record (.invoked dispatch listener))
        (fun t => t = s) (callListener code call dispatch listener payload none) :=
      leaves_callListener h dispatch listener payload none sync (by
        rintro t rfl
        exact turn_held invoked)
    refine triple_bind (Q := fun _ => Turn code pins old dispatch rest) (triple_attempt (triple_stop
      (triple_post called (fun _ _ after => turn_after invoked after)
        fun _ _ raised => turn_after invoked raised.1)
      fun t after => (turn_after invoked after).going.held)) fun result => ?_
    cases result with
    | ok _ => exact triple_pure () fun _ turn => turn
    | error error =>
        refine triple_bind (Q := fun _ t => Turn code pins old dispatch rest t ∧
          .threw dispatch error ∈ t.log) (triple_modify _ fun t turn => ?_) fun _ => ?_
        · exact ⟨turn_plain turn (.threw dispatch error) trivial trivial, List.mem_cons_self⟩
        · refine triple_ite (fun _ => ?_) fun bare => triple_raise error fun t given => ?_
          · exact triple_pre (fun t given => given.1) (turn_report h dispatch rest listener error)
          · exact ⟨given.1.going.held, Or.inl ⟨Bool.eq_false_of_not_eq_true bare, given.2⟩⟩
  · refine triple_modify _ ?_
    rintro t rfl
    exact ⟨going_passed unpinned turn.going dead, turn.ownerless⟩

theorem turn_emitTo (h : Calls code call) (dispatch : Nat) (unpinned : ¬ pins dispatch) (payload : V)
    (listeners : List Listener) :
    Triple (Turn code pins old dispatch listeners) (emitTo code call dispatch payload listeners)
      (fun _ => Turn code pins old dispatch [])
      (fun error s => Held code pins old s ∧ Blame dispatch error s.log) (Held code pins old) := by
  induction listeners with
  | nil => exact triple_pure () fun _ turn => turn
  | cons listener rest ih =>
      exact triple_bind (turn_deliver h dispatch unpinned payload listener rest) fun _ => ih

theorem leaves_emit (h : Calls code call) (event : Event V) (payload : V) :
    Leaves code pins old (Held code pins old) (emit code call event payload) := by
  unfold emit require checkPayload
  refine keeps_bind (keeps_ite (fun _ => keeps_pure ()) fun _ => keeps_raise _ trivial) fun _ => ?_
  refine triple_get_bind fun s held => triple_ite (fun _ => triple_pure () fun t same => same ▸ held)
    fun _ => ?_
  refine triple_bind (Q := fun _ t => t = s) (triple_ite (fun _ => triple_pure () fun _ same => same)
    fun _ => triple_raise _ fun t same => same ▸ ⟨held, trivial⟩) fun _ => ?_
  have unpinned : ¬ pins (s.dispatches + 1) := fun pin => by
    have := (held.pinned _ pin).known
    omega
  refine triple_bind (Q := fun _ => Turn code pins old (s.dispatches + 1) (s.snapshot event.name))
    (triple_modify _ ?_) fun _ => ?_
  · rintro t rfl
    refine ⟨going_begin held event.name, fun i delegate found mine => ?_⟩
    have := (held.sound.owned i delegate found).2
    omega
  refine triple_bind (Q := fun result t => match result with
    | .ok _ => Turn code pins old (s.dispatches + 1) [] t
    | .error error => Held code pins old t ∧ Blame (s.dispatches + 1) error t.log)
    (triple_attempt (turn_emitTo h _ unpinned payload _)) fun result => ?_
  cases result with
  | ok _ =>
      refine triple_modify _ fun t turn => held_plain turn.going.held _ trivial ?_
      exact turn.going.frontier
  | error error =>
      refine triple_bind (Q := fun _ => Held code pins old) (triple_modify _ fun t given => ?_)
        fun _ => keeps_raise error trivial
      exact held_plain given.1 (.emitted _ (some error)) trivial given.2

/-! ### Registration -/

theorem leaves_on (event : Event V) (callback : Nat) (order : Int) (owner label : String) :
    Leaves code pins old (Held code pins old) (on code event callback order owner label) := by
  unfold on requireSync
  refine keeps_ite (fun _ => triple_get_bind fun s held => ?_) fun _ => keeps_raise _ trivial
  cases closed : s.closed with
  | true => exact triple_pure _ fun t same => same ▸ held
  | false =>
      refine triple_bind (Q := fun _ t => t = s ∧ code.async callback = false) (triple_ite
        (fun _ => triple_raise _ fun t same => same ▸ ⟨held, trivial⟩) fun sync =>
          triple_pure () fun t same => ⟨same, Bool.eq_false_of_not_eq_true sync⟩) fun _ => ?_
      refine triple_bind (Q := fun _ => Held code pins old) (triple_modify _ ?_) fun _ => keeps_pure _
      rintro t ⟨rfl, sync⟩
      refine held_kept held (sound_register held.sound _ callback order owner label closed sync) rfl
        (Nat.le_refl _) (List.suffix_cons _ t.log) ?_
      exact fun dispatch _ => visited_cons_other dispatch _ t.log rfl

theorem leaves_dispose (sequence : Nat) :
    Leaves code pins old (Held code pins old) (dispose sequence : M V Unit) := by
  unfold dispose
  refine triple_get_bind fun s held => ?_
  cases found : s.registered sequence with
  | none => exact triple_pure () fun t same => same ▸ held
  | some listener =>
      refine triple_modify _ ?_
      rintro t rfl
      have registered := ((held.sound.closures sequence listener).mp found).1
      refine held_kept held (sound_unregister held.sound listener registered) rfl (Nat.le_refl _)
        (List.suffix_cons _ t.log) ?_
      exact fun dispatch _ => visited_cons_other dispatch _ t.log rfl

theorem calls_step (h : Calls code call) : Calls code (step code call) := by
  intro pins old o
  cases o with
  | on event callback order owner label => exact leaves_on event callback order owner label
  | dispose sequence => exact keeps_bind (leaves_dispose sequence) fun _ => keeps_pure _
  | close =>
      refine keeps_bind (keeps_modify fun s held => ?_) fun _ => keeps_pure _
      exact held_kept held (sound_shut held.sound) rfl (Nat.le_refl _) (List.suffix_cons _ s.log)
        fun dispatch _ => visited_cons_other dispatch _ s.log rfl
  | emit event payload => exact keeps_bind (leaves_emit h event payload) fun _ => keeps_pure _
  | waterfall event payload terminal =>
      exact keeps_bind (leaves_waterfall h event payload terminal) fun _ => keeps_pure _
  | next i forward => exact keeps_bind (leaves_next h i forward) fun _ => keeps_pure _

end Procedures

theorem exec_calls (code : Code V) (fuel : Nat) : Calls code (exec code fuel) := by
  induction fuel with
  | zero => exact fun _ _ _ _ held => held
  | succ fuel ih => exact calls_step ih

theorem sound_new (code : Code V) : Sound code (Bus.new V) where
  lawful := trivial
  buckets := fun event listener =>
    ⟨fun member => absurd member List.not_mem_nil, fun given => absurd given.1.1 List.not_mem_nil⟩
  nodup := fun _ => List.nodup_nil
  closures := fun n listener => by
    constructor
    · intro found
      cases found
    · exact fun given => absurd given.1 List.not_mem_nil
  numbered := fun listener member => absurd member List.not_mem_nil
  single := fun listener _ member => absurd member List.not_mem_nil
  retired := fun n member => absurd member List.not_mem_nil
  sync := fun listener member => absurd member List.not_mem_nil
  closed := by
    constructor
    · intro closed
      cases closed
    · exact fun member => absurd member List.not_mem_nil
  started := fun dispatch => by
    constructor
    · rintro ⟨event, snapshot, member⟩
      exact absurd member List.not_mem_nil
    · rintro ⟨positive, bound⟩
      exact absurd (Nat.le_trans positive bound) (Nat.not_succ_le_zero 0)
  fresh := fun _ _ => rfl
  owned := fun i delegate found => by cases found
  armed := fun i delegate found => by cases found
  one := fun i _ delegate _ found => by cases found

/-- The bus that a run leaves, also one that was cut short. -/
def reached (code : Code V) (fuel : Nat) (host : Callback (Op V) (Answer V) Exc Unit) : Bus V :=
  (drive code fuel host (Bus.new V)).2

theorem reached_sound (code : Code V) (fuel : Nat) (host : Callback (Op V) (Answer V) Exc Unit) :
    Sound code (reached code fuel host) := by
  have start : Held code (fun _ => False) (Bus.new V) (Bus.new V) :=
    ⟨sound_new code, fun _ pin => pin.elim, fun _ delegate found => ⟨delegate, found, rfl⟩,
      Nat.le_refl _, List.suffix_refl _⟩
  have kept := keeps_play (exec_calls code fuel (fun _ => False) (Bus.new V)) host (Bus.new V) start
  unfold reached drive
  cases run : play (exec code fuel) host (Bus.new V) with
  | mk outcome s =>
      rw [run] at kept
      cases outcome with
      | ret value => exact kept.sound
      | raised error => exact kept.1.sound
      | diverged => exact kept.sound

/-! ### What dispatches do -/

section Dispatches

variable {log after before : List Entry}

theorem began_once {dispatch : Nat} {event event' : String} {snapshot snapshot' : List Listener}
    (lawful : Lawful law log) (began : .began dispatch event snapshot ∈ log)
    (again : .began dispatch event' snapshot' ∈ log) : snapshot = snapshot' := by
  obtain ⟨after, before, rfl, law, -⟩ := lawful.of_mem began
  rcases List.mem_append.mp again with member | member
  · obtain ⟨later, earlier, rfl⟩ := List.append_of_mem member
    have law' : Transition.Lawful _ _ := lawful
    rw [List.append_assoc, List.cons_append] at law'
    have fresh := law'.at.1 event snapshot
    exact absurd (List.mem_append_right _ List.mem_cons_self) fresh
  · rcases List.mem_cons.mp member with same | member
    · cases same
      rfl
    · exact absurd member (law.1 event' snapshot')

theorem invocations_visited (dispatch : Nat) (log : List Entry) :
    (invocations dispatch log).Sublist (visited dispatch log) := by
  unfold invocations visited
  refine List.Sublist.reverse ?_
  induction log with
  | nil => exact List.Sublist.refl _
  | cons entry rest ih =>
      cases entry with
      | invoked dispatch' listener =>
          by_cases same : dispatch' = dispatch
          · simpa [List.filterMap_cons, Entry.invokes, Entry.visits, same] using ih
          · simpa [List.filterMap_cons, Entry.invokes, Entry.visits, same] using ih
      | passed dispatch' listener =>
          by_cases same : dispatch' = dispatch
          · simpa [List.filterMap_cons, Entry.invokes, Entry.visits, same] using ih.cons listener
          · simpa [List.filterMap_cons, Entry.invokes, Entry.visits, same] using ih
      | _ => simpa [List.filterMap_cons, Entry.invokes, Entry.visits] using ih

theorem visit_frontier {entry : Entry} {dispatch : Nat} {listener : Listener} (lawful : law before entry)
    (visits : entry.visits dispatch = some listener) :
    ∃ rest, Frontier dispatch (listener :: rest) before := by
  cases entry with
  | invoked dispatch' listener' =>
      unfold Entry.visits at visits
      dsimp only at visits
      split at visits
      · rename_i same
        cases visits
        exact same ▸ lawful.1
      · cases visits
  | passed dispatch' listener' =>
      unfold Entry.visits at visits
      dsimp only at visits
      split at visits
      · rename_i same
        cases visits
        exact same ▸ lawful.1
      · cases visits
  | _ => cases visits

theorem visited_began (lawful : Lawful law log) (dispatch : Nat)
    (unbegun : ∀ event snapshot, .began dispatch event snapshot ∉ log) : visited dispatch log = [] := by
  induction log with
  | nil => rfl
  | cons entry rest ih =>
      have none_before := ih lawful.2 fun event snapshot member =>
        unbegun event snapshot (List.mem_cons_of_mem _ member)
      cases visits : entry.visits dispatch with
      | none => rw [visited_cons_other dispatch entry rest visits, none_before]
      | some listener =>
          obtain ⟨_, event, snapshot, began, -⟩ := visit_frontier lawful.1 visits
          exact absurd (List.mem_cons_of_mem _ began) (unbegun event snapshot)

/-- A dispatch comes to the listeners of its snapshot from the first on. -/
theorem visited_prefix (lawful : Lawful law log) {dispatch : Nat} {event : String}
    {snapshot : List Listener} (began : .began dispatch event snapshot ∈ log) :
    visited dispatch log <+: snapshot := by
  induction log with
  | nil => cases began
  | cons entry rest ih =>
      cases visits : entry.visits dispatch with
      | none =>
          rw [visited_cons_other dispatch entry rest visits]
          rcases List.mem_cons.mp began with rfl | member
          · rw [visited_began lawful.2 dispatch lawful.1.1]
            exact List.nil_prefix
          · exact ih lawful.2 member
      | some listener =>
          obtain ⟨later, event', snapshot', began', split⟩ := visit_frontier lawful.1 visits
          rw [visited_cons_self dispatch entry listener rest visits,
            began_once lawful began (List.mem_cons_of_mem _ began'), ← split]
          exact ⟨later, by simp⟩

theorem frontier_began (lawful : Lawful law log) {dispatch : Nat} {rest : List Listener}
    {listener : Listener} (frontier : Frontier dispatch (listener :: rest) log) :
    ∃ later earlier event snapshot, log = later ++ .began dispatch event snapshot :: earlier ∧
      .registered listener ∈ earlier ∧ listener.event = event := by
  obtain ⟨event, snapshot, began, split⟩ := frontier
  obtain ⟨later, earlier, same, law, -⟩ := lawful.of_mem began
  have member : listener ∈ snapshot := by
    rw [← split]
    exact List.mem_append_right _ List.mem_cons_self
  obtain ⟨live, named⟩ := (law.2.2 listener).mp member
  exact ⟨later, earlier, event, snapshot, same, live.1, named⟩

end Dispatches

def history (code : Code V) (fuel : Nat) (host : Callback (Op V) (Answer V) Exc Unit) : List Entry :=
  (reached code fuel host).log

end AtrexAgent.Events
