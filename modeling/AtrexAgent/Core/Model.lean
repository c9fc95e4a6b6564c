import Mathlib.Data.List.Sort

/-! The plugin tree: realms and their services, fibers, and the root that owns
them. Objects live in a heap indexed by `uid`; a callback of a plugin is an
index into the code a run is given. -/

namespace AtrexAgent.Core

/-- A realm never changes its parent or the names it isolates, so a reference
to one carries both; `id` tells two realms made alike apart. -/
inductive Realm where
  | root
  | child (id : Nat) (parent : Realm) (isolated : List String)
  deriving DecidableEq, Repr

def Realm.ownerOf : Realm → String → Realm
  | .root, _ => .root
  | .child id parent isolated, name =>
      if name ∈ isolated then .child id parent isolated else parent.ownerOf name

structure Impl where
  fiber : Nat
  serial : Nat
  deriving DecidableEq, Repr

inductive FiberState where
  | pending | loading | active | unloading | disposed | failed
  deriving DecidableEq, Repr

/-- What is raised. Only `abort` is a bare `BaseException`. -/
inductive Exc where
  | configError (entry : String)
  | duplicateProvide (name existing claimant : String)
  | registryShape (name entry : String)
  | settleDivergence (rounds : Nat) (stuck : List String)
  | disposalErrors (failures : Nat)
  | exception (tag : Nat)
  | abort (tag : Nat)
  deriving DecidableEq, Repr

def Exc.isException : Exc → Bool
  | .abort _ => false
  | _ => true

structure Declaration where
  inject : List String
  optionalInject : List String
  provide : List String
  apply : Nat
  /-- Interpolation, the `internal/config` waterfall and the config validator. -/
  resolveConfig : Nat
  deriving DecidableEq, Repr

/-- What disposing an effect runs. -/
inductive Undo where
  | callback (disposer : Nat)
  | withdraw (owner : Realm) (name : String) (serial : Nat)
  | unlisten (sequence : Nat)
  deriving DecidableEq, Repr

structure Effect where
  id : Nat
  undo : Undo
  deriving DecidableEq, Repr

/-- The mutable fields of a `Fiber`. `effects` has the last one filed first. An
effect is disposed exactly when it has left its stack. `loadedWith` is a history
variable: what the declared services resolved to when the fiber last loaded. -/
structure Fiber where
  declaration : Declaration
  entryId : String
  realm : Realm
  parent : Option Nat
  children : List Nat
  effects : List Effect
  unwinding : Bool
  provided : List String
  state : FiberState
  error : Option Exc
  epoch : Option (List Nat)
  restartRequested : Bool
  loadedWith : List (Option Impl)
  deriving DecidableEq, Repr

inductive BusEvent where
  | internalFiber | internalError
  deriving DecidableEq, Repr

structure Listener where
  fiber : Nat
  event : BusEvent
  callback : Nat
  order : Int
  sequence : Nat
  deriving DecidableEq, Repr

/-- One fiber as an observer of the root sees it. -/
structure FiberView where
  uid : Nat
  state : FiberState
  epoch : Option (List Nat)
  computed : Option (List Nat)
  loadedWith : List (Option Impl)
  required : List (Option Impl)
  optional : List (Option Impl)
  deriving DecidableEq, Repr

def FiberView.resolved (v : FiberView) : List (Option Impl) := v.required ++ v.optional

/-- What an outermost `settle()` left when it returned, with the fibers whose
`dispose()` was still running around it. -/
structure Settled where
  disposing : List Nat
  fibers : List FiberView
  deriving DecidableEq, Repr

/-- `fibers` lists the values of the dict in its order; the key of a value is its
`entryId`. The last three fields are history variables, which no code reads. -/
structure Root where
  fiber : Nat → Fiber
  fibers : List Nat
  impls : Realm → String → Option Impl
  serial : Nat
  realms : Nat
  watching : Bool
  listeners : List Listener
  listenerSequence : Nat
  busClosed : Bool
  transitions : List (Nat × FiberState × FiberState)
  errors : List Exc
  activationOrder : List Nat
  uid : Nat
  effectIds : Nat
  pending : List Nat
  settling : Bool
  disposing : Bool
  reporting : Bool
  settleRounds : Nat
  calls : Nat
  disposeStack : List Nat
  settledLog : List Settled
  undoLog : List FiberView

/-- What stands at a `uid` no fiber has yet: it is as inert as a disposed one. -/
def Fiber.blank : Fiber where
  declaration := ⟨[], [], [], 0, 0⟩
  entryId := ""
  realm := .root
  parent := none
  children := []
  effects := []
  unwinding := false
  provided := []
  state := .disposed
  error := none
  epoch := none
  restartRequested := false
  loadedWith := []

def Root.new (settleRounds : Nat) : Root where
  fiber := fun _ => Fiber.blank
  fibers := []
  impls := fun _ _ => none
  serial := 0
  realms := 0
  watching := true
  listeners := []
  listenerSequence := 0
  busClosed := false
  transitions := []
  errors := []
  activationOrder := []
  uid := 0
  effectIds := 0
  pending := []
  settling := false
  disposing := false
  reporting := false
  settleRounds := settleRounds
  calls := 0
  disposeStack := []
  settledLog := []
  undoLog := []

namespace Root

def update (r : Root) (f : Nat) (change : Fiber → Fiber) : Root :=
  { r with fiber := fun u => if u = f then change (r.fiber u) else r.fiber u }

@[simp] theorem update_self (r : Root) (f : Nat) (change : Fiber → Fiber) :
    (r.update f change).fiber f = change (r.fiber f) := by simp [update]

theorem update_fiber (r : Root) (f u : Nat) (change : Fiber → Fiber) :
    (r.update f change).fiber u = if u = f then change (r.fiber u) else r.fiber u := rfl

theorem update_other (r : Root) (f u : Nat) (change : Fiber → Fiber) (other : u ≠ f) :
    (r.update f change).fiber u = r.fiber u := by simp [update, other]

/-! ### Services -/

def resolve (r : Root) (realm : Realm) (name : String) : Option Impl :=
  r.impls (realm.ownerOf name) name

/-- `sorted(declaration.inject)`, the order an epoch lists its serials in. -/
def sorted (names : List String) : List String := names.insertionSort (· ≤ ·)

def required (r : Root) (f : Nat) : List (Option Impl) :=
  (sorted (r.fiber f).declaration.inject).map (r.resolve (r.fiber f).realm)

def optional (r : Root) (f : Nat) : List (Option Impl) :=
  (sorted (r.fiber f).declaration.optionalInject).map (r.resolve (r.fiber f).realm)

def resolved (r : Root) (f : Nat) : List (Option Impl) := r.required f ++ r.optional f

/-- `none` stands for `INACTIVE`. -/
def computeEpoch (r : Root) (f : Nat) : Option (List Nat) := do
  let ids ← (r.required f).mapM (Option.map Impl.serial)
  return ids ++ (r.optional f).map fun impl => (impl.map Impl.serial).getD 0

/-- Does `f` inject `name`, required or optional? -/
def depends (r : Root) (name : String) (f : Nat) : Bool :=
  name ∈ (r.fiber f).declaration.inject ∨ name ∈ (r.fiber f).declaration.optionalInject

def enqueue (r : Root) (f : Nat) : Root := { r with pending := r.pending ++ [f] }

/-- The loop of `_service_changed`, which is the root realm's one listener. -/
def wake (r : Root) (name : String) : Root :=
  if r.watching then { r with pending := r.pending ++ r.fibers.filter (r.depends name) } else r

def republish (r : Root) (serial : Nat) (impls : Realm → String → Option Impl) : Root :=
  { r with serial, impls }

/-- The new registration of `Realm.provide`. -/
def register (r : Root) (owner : Realm) (name : String) (f : Nat) : Root :=
  r.republish (r.serial + 1) fun realm key =>
    if realm = owner ∧ key = name then some ⟨f, r.serial + 1⟩ else r.impls realm key

/-- Is the registration a disposer was made for still the current one? -/
def registered (r : Root) (owner : Realm) (name : String) (serial : Nat) : Bool :=
  (r.impls owner name).any fun impl => impl.serial = serial

def unregister (r : Root) (owner : Realm) (name : String) : Root :=
  r.republish r.serial fun realm key =>
    if realm = owner ∧ key = name then none else r.impls realm key

/-! ### Fibers -/

def view (r : Root) (f : Nat) : FiberView where
  uid := f
  state := (r.fiber f).state
  epoch := (r.fiber f).epoch
  computed := r.computeEpoch f
  loadedWith := (r.fiber f).loadedWith
  required := r.required f
  optional := r.optional f

/-- The body of `_transition` and `observe` up to the emission. -/
def recordTransition (r : Root) (f : Nat) (state : FiberState) : Root :=
  let r' := r.update f fun fiber => { fiber with state := state }
  { r' with
    transitions := r'.transitions ++ [(f, (r.fiber f).state, state)]
    activationOrder :=
      if state = .active then r'.activationOrder.erase f ++ [f] else r'.activationOrder }

/-- `effect` appended to the stack of `f`. -/
def filed (r : Root) (f : Nat) (undo : Undo) : Root :=
  { r.update f fun fiber => { fiber with effects := ⟨r.effectIds + 1, undo⟩ :: fiber.effects } with
    effectIds := r.effectIds + 1 }

def forget (r : Root) (f : Nat) : Root := { r with fibers := r.fibers.filter (· ≠ f) }

/-- The object made by `Root.mount`, entered under its parent, its entry id and
the queue. -/
def mounted (r : Root) (declaration : Declaration) (entryId : String) (isolated : List String)
    (parent : Option Nat) (realm : Option Realm) : Root :=
  let base := match realm, parent with
    | some given, _ => given
    | none, some p => (r.fiber p).realm
    | none, none => .root
  let uid := r.uid + 1
  let own := if isolated = [] then base else .child (r.realms + 1) base isolated
  let fresh := { Fiber.blank with
    declaration := declaration, entryId := entryId, realm := own, parent := parent
    state := .pending }
  let linked : Root := match parent with
    | some p => r.update p fun fiber => { fiber with children := fiber.children ++ [uid] }
    | none => r
  { linked with
    fiber := fun u => if u = uid then fresh else linked.fiber u
    uid := uid
    realms := if isolated = [] then r.realms else r.realms + 1
    fibers := r.fibers ++ [uid]
    pending := r.pending ++ [uid] }

/-! ### What the updates leave alone -/

theorem mem_sorted (names : List String) (name : String) : name ∈ sorted names ↔ name ∈ names :=
  List.mem_insertionSort _

theorem depends_iff (r : Root) (name : String) (f : Nat) :
    r.depends name f = true ↔
      name ∈ (r.fiber f).declaration.inject ∨ name ∈ (r.fiber f).declaration.optionalInject := by
  simp [depends]

section Services

variable {r r' : Root} {u : Nat}

/-- The services of a fiber only depend on the names it declares. -/
theorem services_congr (declaration : (r'.fiber u).declaration = (r.fiber u).declaration)
    (realm : (r'.fiber u).realm = (r.fiber u).realm)
    (same : ∀ name, r.depends name u = true →
      r'.resolve (r.fiber u).realm name = r.resolve (r.fiber u).realm name) :
    r'.required u = r.required u ∧ r'.optional u = r.optional u := by
  unfold required optional
  rw [declaration, realm]
  constructor
  · refine List.map_congr_left fun name member => same name ?_
    exact (depends_iff r name u).mpr (Or.inl ((mem_sorted _ _).mp member))
  · refine List.map_congr_left fun name member => same name ?_
    exact (depends_iff r name u).mpr (Or.inr ((mem_sorted _ _).mp member))

theorem computeEpoch_congr (declaration : (r'.fiber u).declaration = (r.fiber u).declaration)
    (realm : (r'.fiber u).realm = (r.fiber u).realm)
    (same : ∀ name, r.depends name u = true →
      r'.resolve (r.fiber u).realm name = r.resolve (r.fiber u).realm name) :
    r'.computeEpoch u = r.computeEpoch u := by
  obtain ⟨required, optional⟩ := services_congr declaration realm same
  unfold computeEpoch
  rw [required, optional]

theorem computeEpoch_impls (declaration : (r'.fiber u).declaration = (r.fiber u).declaration)
    (realm : (r'.fiber u).realm = (r.fiber u).realm) (impls : r'.impls = r.impls) :
    r'.computeEpoch u = r.computeEpoch u :=
  computeEpoch_congr declaration realm fun name _ => by unfold resolve; rw [impls]

end Services

theorem mapM_serial (impls : List (Option Impl)) (serials : List Nat)
    (some_all : impls.mapM (Option.map Impl.serial) = some serials) :
    ∃ found : List Impl, impls = found.map some ∧ serials = found.map Impl.serial := by
  induction impls generalizing serials with
  | nil =>
      refine ⟨[], rfl, ?_⟩
      simpa using some_all.symm
  | cons impl rest ih =>
      rw [List.mapM_cons] at some_all
      cases impl with
      | none => cases some_all
      | some impl =>
          cases later : rest.mapM (Option.map Impl.serial) with
          | none => rw [later] at some_all; cases some_all
          | some tail =>
              obtain ⟨found, rfl, rfl⟩ := ih tail later
              rw [later] at some_all
              refine ⟨impl :: found, rfl, ?_⟩
              simpa using some_all.symm

/-- An epoch that is not `INACTIVE` lists a serial for each required service and
one, or zero, for each optional one. -/
theorem computeEpoch_some (r : Root) (f : Nat) (serials : List Nat)
    (epoch : r.computeEpoch f = some serials) :
    ∃ found : List Impl, r.required f = found.map some ∧
      serials = found.map Impl.serial ++
        (r.optional f).map fun impl => (impl.map Impl.serial).getD 0 := by
  unfold computeEpoch at epoch
  cases all : (r.required f).mapM (Option.map Impl.serial) with
  | none => rw [all] at epoch; cases epoch
  | some ids =>
      obtain ⟨found, required, rfl⟩ := mapM_serial _ _ all
      rw [all] at epoch
      refine ⟨found, required, ?_⟩
      simpa using epoch.symm

/-- What an epoch lists for one service: its serial, or zero. -/
def serialOf (impl : Option Impl) : Nat := (impl.map Impl.serial).getD 0

theorem computeEpoch_serials (r : Root) (f : Nat) (serials : List Nat)
    (epoch : r.computeEpoch f = some serials) : serials = (r.resolved f).map serialOf := by
  obtain ⟨found, required, listed⟩ := computeEpoch_some r f serials epoch
  rw [listed, resolved, required, List.map_append, List.map_map]
  rfl

theorem mapM_serial_of_mem (impls : List (Option Impl)) (present : none ∉ impls) :
    impls.mapM (Option.map Impl.serial) ≠ none := by
  induction impls with
  | nil => simp
  | cons impl rest ih =>
      have later := ih fun member => present (List.mem_cons_of_mem impl member)
      obtain ⟨serials, tail⟩ := Option.ne_none_iff_exists'.mp later
      cases impl with
      | none => exact absurd List.mem_cons_self present
      | some impl => simp [List.mapM_cons, tail]

/-- An epoch is `INACTIVE` exactly when a required service is missing. -/
theorem computeEpoch_ne_none_iff (r : Root) (f : Nat) :
    r.computeEpoch f ≠ none ↔
      ∀ name ∈ (r.fiber f).declaration.inject, r.resolve (r.fiber f).realm name ≠ none := by
  constructor
  · intro live name member missing
    obtain ⟨serials, epoch⟩ := Option.ne_none_iff_exists'.mp live
    obtain ⟨found, required, -⟩ := computeEpoch_some r f serials epoch
    have listed : none ∈ r.required f :=
      List.mem_map.mpr ⟨name, (mem_sorted _ _).mpr member, missing⟩
    rw [required] at listed
    simp at listed
  · intro all inactive
    have present : none ∉ r.required f := by
      intro listed
      obtain ⟨name, member, missing⟩ := List.mem_map.mp listed
      exact all name ((mem_sorted _ _).mp member) missing
    obtain ⟨ids, each⟩ := Option.ne_none_iff_exists'.mp (mapM_serial_of_mem _ present)
    unfold computeEpoch at inactive
    rw [each] at inactive
    cases inactive

theorem recordTransition_fiber (r : Root) (f u : Nat) (state : FiberState) :
    (r.recordTransition f state).fiber u =
      if u = f then { r.fiber u with state := state } else r.fiber u := rfl

theorem recordTransition_self (r : Root) (f : Nat) (state : FiberState) :
    (r.recordTransition f state).fiber f = { r.fiber f with state := state } := if_pos rfl

theorem recordTransition_other (r : Root) (f u : Nat) (state : FiberState) (other : u ≠ f) :
    (r.recordTransition f state).fiber u = r.fiber u := if_neg other

theorem recordTransition_epoch (r : Root) (f u : Nat) (state : FiberState) :
    ((r.recordTransition f state).fiber u).epoch = (r.fiber u).epoch := by
  rw [recordTransition_fiber]; split <;> rfl

theorem computeEpoch_recordTransition (r : Root) (f u : Nat) (state : FiberState) :
    (r.recordTransition f state).computeEpoch u = r.computeEpoch u := by
  refine computeEpoch_impls ?_ ?_ rfl
  all_goals rw [recordTransition_fiber]; split <;> rfl

section Mounted

variable (r : Root) (declaration : Declaration) (entryId : String) (isolated : List String)
  (parent : Option Nat) (realm : Option Realm)

theorem mounted_self :
    ((r.mounted declaration entryId isolated parent realm).fiber (r.uid + 1)).state = .pending ∧
      ((r.mounted declaration entryId isolated parent realm).fiber (r.uid + 1)).epoch = none := by
  simp [mounted, Fiber.blank]

theorem mounted_other (u : Nat) (other : u ≠ r.uid + 1) :
    ∃ children, (r.mounted declaration entryId isolated parent realm).fiber u =
      { r.fiber u with children := children } := by
  unfold mounted
  simp only [if_neg other]
  cases parent with
  | none => exact ⟨(r.fiber u).children, rfl⟩
  | some p =>
      simp only [update_fiber]
      split
      · exact ⟨_, rfl⟩
      · exact ⟨(r.fiber u).children, rfl⟩

theorem mounted_fields :
    (r.mounted declaration entryId isolated parent realm).fibers = r.fibers ++ [r.uid + 1] ∧
    (r.mounted declaration entryId isolated parent realm).pending = r.pending ++ [r.uid + 1] ∧
    (r.mounted declaration entryId isolated parent realm).uid = r.uid + 1 ∧
    (r.mounted declaration entryId isolated parent realm).impls = r.impls ∧
    (r.mounted declaration entryId isolated parent realm).serial = r.serial ∧
    (r.mounted declaration entryId isolated parent realm).watching = r.watching ∧
    (r.mounted declaration entryId isolated parent realm).settling = r.settling ∧
    (r.mounted declaration entryId isolated parent realm).listeners = r.listeners ∧
    (r.mounted declaration entryId isolated parent realm).disposeStack = r.disposeStack ∧
    (r.mounted declaration entryId isolated parent realm).settledLog = r.settledLog ∧
    (r.mounted declaration entryId isolated parent realm).activationOrder =
      r.activationOrder := by
  unfold mounted
  cases parent <;> exact ⟨rfl, rfl, rfl, rfl, rfl, rfl, rfl, rfl, rfl, rfl, rfl⟩

end Mounted

end Root

end AtrexAgent.Core
