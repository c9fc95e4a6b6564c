import AtrexAgent.Core.Settle

/-! What unloading and loading a row does to a tree whose plugins publish their
declared services from `apply` and do nothing else to the tree. -/

namespace AtrexAgent.Core

open AtrexAgent.Computation
open AtrexAgent.Computation.Comp

/-- A disposer that does nothing to the tree. It may raise an `Exception`. -/
def Inert (code : Code) (f cb : Nat) : Prop :=
  ∀ calls, (∃ disposer, code.disposer cb f calls = .ret disposer) ∨
    ∃ error, code.disposer cb f calls = .raise error ∧ error.isException = true

/-- The code publishes each of `names` once, in any order, into the realm of its
own fiber, and may file effects (a subscription to an event the tree does not emit
itself is one). -/
inductive Publishes (code : Code) (f : Nat) : List String → Prog → Prop where
  | ret (disposer : Option Nat) (inert : ∀ cb, disposer = some cb → Inert code f cb) :
      Publishes code f [] (.ret disposer)
  | provide (name : String) (names : List String) (next : Except Exc Nat → Prog)
      (member : name ∈ names)
      (rest : ∀ id, Publishes code f (names.filter (· ≠ name)) (next (.ok id))) :
      Publishes code f names (.op (.provide f name none true) next)
  | effect (cb : Nat) (names : List String) (next : Except Exc Nat → Prog)
      (inert : Inert code f cb) (rest : ∀ id, Publishes code f names (next (.ok id))) :
      Publishes code f names (.op (.effect f cb) next)
  | isolate (names : List String) (next : Except Exc Nat → Prog)
      (rest : ∀ id, Publishes code f names (next (.ok id))) :
      Publishes code f names (.op .isolate next)

/-- Rows whose dependencies rise in rank, and of which no two provide one service. -/
structure Scene (code : Code) where
  rows : List Nat
  declaration : Nat → Declaration
  realm : Nat → Realm
  entryId : Nat → String
  rank : Nat → Nat
  single : ∀ u ∈ rows, ∀ v ∈ rows, ∀ name ∈ (declaration u).provide,
    name ∈ (declaration v).provide →
    (realm u).ownerOf name = (realm v).ownerOf name → u = v
  ranked : ∀ u ∈ rows, ∀ v ∈ rows, ∀ name ∈ (declaration u).provide,
    name ∈ (declaration v).inject ∨ name ∈ (declaration v).optionalInject →
    (realm u).ownerOf name = (realm v).ownerOf name → rank u < rank v
  bounded : ∀ u ∈ rows, rank u < rows.length
  config : ∀ u ∈ rows, ∀ calls, ∃ result, code.resolveConfig (declaration u).resolveConfig u calls = .ret result
  publishes : ∀ u ∈ rows, ∀ calls,
    Publishes code u (declaration u).provide (code.apply (declaration u).apply u calls)

section Reload

variable {code : Code}

namespace Scene

/-- The place a service of `g` is registered at. -/
def Key (scene : Scene code) (g : Nat) (owner : Realm) (name : String) : Prop :=
  name ∈ (scene.declaration g).provide ∧ owner = (scene.realm g).ownerOf name

end Scene

/-- The fields of a row that no load changes. -/
structure SameRow (x y : Fiber) : Prop where
  declaration : y.declaration = x.declaration
  realm : y.realm = x.realm
  entryId : y.entryId = x.entryId
  children : y.children = x.children
  restartRequested : y.restartRequested = x.restartRequested

/-- What a load or unload of `g` can change. -/
structure Moved (scene : Scene code) (g : Nat) (r r' : Root) : Prop where
  fibers : r'.fibers = r.fibers
  listeners : r'.listeners = r.listeners
  watching : r'.watching = r.watching
  settling : r'.settling = r.settling
  disposing : r'.disposing = r.disposing
  settleRounds : r'.settleRounds = r.settleRounds
  others : ∀ u, u ≠ g → r'.fiber u = r.fiber u
  same : SameRow (r.fiber g) (r'.fiber g)
  impls : ∀ owner name, ¬ scene.Key g owner name → r'.impls owner name = r.impls owner name
  published : ∀ owner name impl, r'.impls owner name = some impl →
    r.impls owner name = some impl ∨ (impl.fiber = g ∧ 0 < impl.serial)
  pending : ∀ u ∈ r.pending, u ∈ r'.pending
  woken : ∀ u ∈ r'.pending, u ∈ r.pending ∨ u ∈ r.fibers
  notified : ∀ u ∈ r.fibers, u ∈ r'.pending ∨ r'.computeEpoch u = r.computeEpoch u

variable {scene : Scene code} {g : Nat} {r r' r'' : Root}

theorem sameRow_refl (x : Fiber) : SameRow x x := ⟨rfl, rfl, rfl, rfl, rfl⟩

theorem sameRow_trans {x y z : Fiber} (first : SameRow x y) (second : SameRow y z) :
    SameRow x z :=
  ⟨second.declaration.trans first.declaration, second.realm.trans first.realm,
    second.entryId.trans first.entryId, second.children.trans first.children,
    second.restartRequested.trans first.restartRequested⟩

theorem moved_trans (first : Moved scene g r r') (second : Moved scene g r' r'') :
    Moved scene g r r'' where
  fibers := second.fibers.trans first.fibers
  listeners := second.listeners.trans first.listeners
  watching := second.watching.trans first.watching
  settling := second.settling.trans first.settling
  disposing := second.disposing.trans first.disposing
  settleRounds := second.settleRounds.trans first.settleRounds
  others := fun u other => (second.others u other).trans (first.others u other)
  same := sameRow_trans first.same second.same
  impls := fun owner name outside =>
    (second.impls owner name outside).trans (first.impls owner name outside)
  published := fun owner name impl found => by
    rcases second.published owner name impl found with before | new
    · exact first.published owner name impl before
    · exact Or.inr new
  pending := fun u member => second.pending u (first.pending u member)
  woken := fun u member => by
    rcases second.woken u member with before | row
    · exact first.woken u before
    · exact Or.inr (first.fibers ▸ row)
  notified := fun u row => by
    rcases second.notified u (first.fibers.symm ▸ row) with queued | later
    · exact Or.inl queued
    · rcases first.notified u row with queued | before
      · exact Or.inl (second.pending u queued)
      · exact Or.inr (later.trans before)

/-- A change of fields no service depends on. -/
theorem moved_fields (fiber : Nat → Fiber) (others : ∀ u, u ≠ g → fiber u = r.fiber u)
    (same : SameRow (r.fiber g) (fiber g)) (calls effectIds realms : Nat) (errors : List Exc)
    (reporting : Bool) (undoLog : List FiberView)
    (transitions : List (Nat × FiberState × FiberState)) (activationOrder : List Nat) :
    Moved scene g r { r with
      fiber, calls, effectIds, realms, errors, reporting, undoLog, transitions,
      activationOrder } where
  fibers := rfl
  listeners := rfl
  watching := rfl
  settling := rfl
  disposing := rfl
  settleRounds := rfl
  others := others
  same := same
  impls := fun _ _ _ => rfl
  published := fun _ _ _ found => Or.inl found
  pending := fun _ member => member
  woken := fun _ member => Or.inl member
  notified := fun u _ => by
    apply Or.inr
    by_cases self : u = g
    · subst self
      exact Root.computeEpoch_impls same.declaration same.realm rfl
    · have unchanged := others u self
      exact Root.computeEpoch_impls (by simp [unchanged]) (by simp [unchanged]) rfl

theorem moved_update (change : Fiber → Fiber) (same : ∀ x, SameRow x (change x)) :
    Moved scene g r (r.update g change) := by
  apply moved_fields
  · intro u other
    exact Root.update_other r g u change other
  · have changed := same (r.fiber g)
    rw [← Root.update_self r g change] at changed
    exact changed

theorem moved_calls : Moved scene g r { r with calls := r.calls + 1 } :=
  moved_fields r.fiber (fun _ _ => rfl) (sameRow_refl _) _ _ _ _ _ _ _ _

theorem moved_transition (state : FiberState) :
    Moved scene g r (r.recordTransition g state) := by
  apply moved_fields
  · intro u other
    exact Root.recordTransition_other r g u state other
  · have changed : SameRow (r.fiber g) ((r.recordTransition g state).fiber g) := by
      rw [Root.recordTransition_self]
      exact ⟨rfl, rfl, rfl, rfl, rfl⟩
    exact changed

/-- A registration or withdrawal of a service of `g`, with its notification. -/
theorem moved_wake (watching : r.watching = true) (name : String) (serial : Nat)
    (impls : Realm → String → Option Impl)
    (other : ∀ realm key, ¬ scene.Key g realm key ∨ key ≠ name →
      impls realm key = r.impls realm key)
    (published : ∀ realm key impl, impls realm key = some impl →
      r.impls realm key = some impl ∨ (impl.fiber = g ∧ 0 < impl.serial)) :
    Moved scene g r ((r.republish serial impls).wake name) := by
  have computed := computeEpoch_wake watching name serial impls
    fun realm key different => other realm key (Or.inr different)
  have woken : (r.republish serial impls).wake name =
      { r.republish serial impls with
        pending := r.pending ++ r.fibers.filter (r.depends name) } := if_pos watching
  constructor
  · rw [woken]; rfl
  · rw [woken]; rfl
  · rw [woken]; rfl
  · rw [woken]; rfl
  · rw [woken]; rfl
  · rw [woken]; rfl
  · intro u _
    rw [woken]; rfl
  · rw [woken]
    exact sameRow_refl _
  · intro owner key outside
    rw [woken]
    exact other owner key (Or.inl outside)
  · intro owner key impl found
    rw [woken] at found
    exact published owner key impl found
  · intro u member
    rw [woken]
    exact List.mem_append_left _ member
  · intro u member
    rw [woken] at member
    rcases List.mem_append.mp member with before | new
    · exact Or.inl before
    · exact Or.inr (List.mem_of_mem_filter new)
  · exact computed

theorem moved_register (watching : r.watching = true) (owner : Realm) (name : String)
    (key : scene.Key g owner name) :
    Moved scene g r ((r.register owner name g).wake name) := by
  apply moved_wake watching
  · intro realm key' outside
    apply if_neg
    rintro ⟨rfl, rfl⟩
    rcases outside with outside | different
    · exact outside key
    · exact different rfl
  · intro realm key' impl found
    split at found
    · cases found
      exact Or.inr ⟨rfl, Nat.succ_pos _⟩
    · exact Or.inl found

theorem moved_unregister (watching : r.watching = true) (owner : Realm) (name : String)
    (key : scene.Key g owner name) :
    Moved scene g r ((r.unregister owner name).wake name) := by
  apply moved_wake watching
  · intro realm key' outside
    apply if_neg
    rintro ⟨rfl, rfl⟩
    rcases outside with outside | different
    · exact outside key
    · exact different rfl
  · intro realm key' impl found
    split at found
    · cases found
    · exact Or.inl found

/-- Nothing listens on the bus, and only the settle loop refreshes rows. -/
structure Ready (r : Root) : Prop where
  deaf : r.listeners = []
  watching : r.watching = true
  settling : r.settling = true

theorem ready_moved (ready : Ready r) (moved : Moved scene g r r') : Ready r' :=
  ⟨moved.listeners.trans ready.deaf, moved.watching.trans ready.watching,
    moved.settling.trans ready.settling⟩

/-! ### Unloading -/

/-- The effects a load of `g` files. -/
def OwnUndo (scene : Scene code) (g : Nat) : Undo → Prop
  | .callback cb => Inert code g cb
  | .withdraw owner name _ => scene.Key g owner name
  | .unlisten _ => False

theorem notify_settling (call : Call → M Nat) (name : String) (change : Root → Root)
    (settling : ((change r).wake name).settling = true) :
    notify call name change r = (.ret (), (change r).wake name) := by
  unfold notify
  rw [run_modify_bind, run_get_bind]
  simp [settling]

theorem wake_settling (name : String) (serial : Nat) (impls : Realm → String → Option Impl) :
    ((r.republish serial impls).wake name).settling = r.settling := by
  unfold Root.wake
  split <;> rfl

theorem wake_fiber (name : String) (serial : Nat) (impls : Realm → String → Option Impl) :
    ((r.republish serial impls).wake name).fiber = r.fiber := by
  unfold Root.wake
  split <;> rfl

theorem wake_impls (name : String) (serial : Nat) (impls : Realm → String → Option Impl) :
    ((r.republish serial impls).wake name).impls = impls := by
  unfold Root.wake
  split <;> rfl

/-- What running one effect of `g` leaves. Whatever it raises is contained. -/
structure Undone (scene : Scene code) (g : Nat) (undo : Undo) (r : Root)
    (outcome : Outcome Exc Unit) (r' : Root) : Prop where
  moved : Moved scene g r r'
  contained : outcome = .ret () ∨ ∃ error, outcome = .raised error ∧ error.isException = true
  fiber : ∃ provided, r'.fiber g = { r.fiber g with provided := provided }
  fewer : ∀ owner name impl, r'.impls owner name = some impl → r.impls owner name = some impl
  withdrawn : ∀ owner name serial, undo = .withdraw owner name serial →
    ∀ impl, r'.impls owner name = some impl → impl.serial ≠ serial

theorem runUndo_undone (ready : Ready r) (undo : Undo) (own : OwnUndo scene g undo) :
    ∃ outcome r', (∀ call, runUndo code call g undo r = (outcome, r')) ∧
      Undone scene g undo r outcome r' := by
  cases undo with
  | callback cb =>
      have moved : Moved scene g r
          { r with undoLog := r.undoLog ++ [r.view g], calls := r.calls + 1 } :=
        moved_fields r.fiber (fun _ _ => rfl) (sameRow_refl _) _ _ _ _ _ _ _ _
      rcases own r.calls with ⟨disposer, returns⟩ | ⟨error, raises, exception⟩
      · use .ret (), { r with undoLog := r.undoLog ++ [r.view g], calls := r.calls + 1 }
        constructor
        · intro call
          simp [runUndo, callback, run_bind, returns, runProg]
        · exact ⟨moved, Or.inl rfl, ⟨_, rfl⟩, fun _ _ _ found => found,
            fun _ _ _ same => by cases same⟩
      · use .raised error, { r with undoLog := r.undoLog ++ [r.view g], calls := r.calls + 1 }
        constructor
        · intro call
          simp [runUndo, callback, run_bind, raises, runProg]
        · exact ⟨moved, Or.inr ⟨error, rfl, exception⟩, ⟨_, rfl⟩, fun _ _ _ found => found,
            fun _ _ _ same => by cases same⟩
  | withdraw owner name serial =>
      let cleared := r.update g fun fiber =>
        { fiber with provided := fiber.provided.filter (· ≠ name) }
      have moved : Moved scene g r cleared := moved_update _ fun x => ⟨rfl, rfl, rfl, rfl, rfl⟩
      have kept : ∃ provided, cleared.fiber g = { r.fiber g with provided := provided } :=
        ⟨_, Root.update_self r g _⟩
      by_cases registered : cleared.registered owner name serial = true
      · use .ret (), (cleared.unregister owner name).wake name
        have settling : ((cleared.unregister owner name).wake name).settling = true :=
          (wake_settling _ _ _).trans ready.settling
        constructor
        · intro call
          unfold runUndo
          dsimp only
          rw [run_modify_bind, run_get_bind, if_pos registered]
          exact notify_settling call name _ settling
        · have watching : cleared.watching = true := ready.watching
          refine ⟨moved_trans moved (moved_unregister watching owner name own), Or.inl rfl,
            ?_, ?_, ?_⟩
          · rw [Root.unregister, wake_fiber]
            exact kept
          · intro owner' name' impl found
            rw [Root.unregister, wake_impls] at found
            split at found
            · cases found
            · exact found
          · rintro owner' name' serial' ⟨⟩ impl found
            rw [Root.unregister, wake_impls] at found
            simp at found
      · use .ret (), cleared
        constructor
        · intro call
          unfold runUndo
          dsimp only
          rw [run_modify_bind, run_get_bind, if_neg registered]
          rfl
        · refine ⟨moved, Or.inl rfl, kept, fun _ _ _ found => found, ?_⟩
          rintro owner' name' serial' ⟨⟩ impl found same
          have found : cleared.impls owner name = some impl := found
          apply registered
          simp [Root.registered, found, same]
  | unlisten sequence => exact own.elim

/-- All of an unwinding, from the loop on. -/
structure Unwound (scene : Scene code) (g : Nat) (r : Root) (outcome : Outcome Exc Unit)
    (r' : Root) : Prop where
  moved : Moved scene g r r'
  contained : outcome = .ret () ∨ ∃ failures, outcome = .raised (.disposalErrors failures)
  fiber : ∃ provided, r'.fiber g =
    { r.fiber g with provided := provided, effects := [], unwinding := false }
  fewer : ∀ owner name impl, r'.impls owner name = some impl → r.impls owner name = some impl
  withdrawn : ∀ effect ∈ (r.fiber g).effects, ∀ owner name serial,
    effect.undo = .withdraw owner name serial →
    ∀ impl, r'.impls owner name = some impl → impl.serial ≠ serial

/-- The nested turn of a loop, from the result of its body. -/
theorem results_unwindLoop {failures : Nat} {outcome : Outcome Exc Unit}
    (loop : Results (fun fuel => unwindLoop code (exec code fuel) g failures none) r outcome r')
    (contained : outcome = .ret () ∨ ∃ failures, outcome = .raised (.disposalErrors failures)) :
    Results (fun fuel => (exec code fuel (.unwindLoop g failures none) >>= fun _ => pure () : M Unit))
      r outcome r' := by
  obtain ⟨bound, loop⟩ := loop
  use bound + 1
  intro fuel enough
  obtain ⟨fuel, rfl⟩ : ∃ less, fuel = less + 1 := ⟨fuel - 1, by omega⟩
  have body := loop fuel (by omega)
  simp only [exec, step, run_bind, body]
  rcases contained with rfl | ⟨failures, rfl⟩ <;> rfl

theorem unwindLoop_results (effects : List Effect) (failures : Nat) (ready : Ready r)
    (stack : (r.fiber g).effects = effects) (own : ∀ effect ∈ effects, OwnUndo scene g effect.undo) :
    ∃ outcome r', Results (fun fuel => unwindLoop code (exec code fuel) g failures none) r
      outcome r' ∧ Unwound scene g r outcome r' := by
  induction effects generalizing r failures with
  | nil =>
      let r' := r.update g fun fiber => { fiber with unwinding := false }
      have moved : Moved scene g r r' := moved_update _ fun x => ⟨rfl, rfl, rfl, rfl, rfl⟩
      have fiber : ∃ provided, r'.fiber g =
          { r.fiber g with provided := provided, effects := [], unwinding := false } := by
        use (r.fiber g).provided
        rw [← stack, Root.update_self]
      have ends (call : Call → M Nat) : unwindLoop code call g failures none r =
          (if failures = 0 then pure () else raise (.disposalErrors failures) : M Unit) r' := by
        unfold unwindLoop
        rw [run_get_bind, stack]
        rfl
      have withdrawn : ∀ effect ∈ (r.fiber g).effects, ∀ owner name serial,
          effect.undo = .withdraw owner name serial →
          ∀ impl, r'.impls owner name = some impl → impl.serial ≠ serial := by
        intro effect member
        rw [stack] at member
        cases member
      by_cases clean : failures = 0
      · use .ret (), r'
        constructor
        · apply results_same
          intro fuel
          rw [ends, if_pos clean, run_pure]
        · exact ⟨moved, Or.inl rfl, fiber, fun _ _ _ found => found, withdrawn⟩
      · use .raised (.disposalErrors failures), r'
        constructor
        · apply results_same
          intro fuel
          rw [ends, if_neg clean, run_raise]
        · exact ⟨moved, Or.inr ⟨failures, rfl⟩, fiber, fun _ _ _ found => found, withdrawn⟩
  | cons effect rest ih =>
      let popped := r.update g fun fiber => { fiber with effects := rest }
      have first : Moved scene g r popped := moved_update _ fun x => ⟨rfl, rfl, rfl, rfl, rfl⟩
      have ready' := ready_moved ready first
      obtain ⟨middle, s, ran, undone⟩ :=
        runUndo_undone ready' effect.undo (own effect List.mem_cons_self)
      obtain ⟨provided, kept⟩ := undone.fiber
      have left : (s.fiber g).effects = rest := by
        rw [kept, Root.update_self]
      obtain ⟨more, turn⟩ : ∃ more, ∀ call, unwindLoop code call g failures none r =
          (call (.unwindLoop g more none) >>= fun _ => pure () : M Unit) s := by
        rcases undone.contained with rfl | ⟨error, rfl, exception⟩
        · use failures
          intro call
          unfold unwindLoop
          rw [run_get_bind, stack]
          dsimp only
          rw [run_modify_bind, run_bind, run_attempt, ran call]
        · use failures + 1
          intro call
          unfold unwindLoop
          rw [run_get_bind, stack]
          dsimp only
          rw [run_modify_bind, run_bind, run_attempt, ran call]
          simp only [exception, if_true]
      obtain ⟨outcome, r', loop, unwound⟩ :=
        ih more (ready_moved ready' undone.moved) left fun e member =>
          own e (List.mem_cons_of_mem effect member)
      have again := results_unwindLoop loop unwound.contained
      use outcome, r'
      constructor
      · exact results_step (fun fuel => turn (exec code fuel)) again
      · refine ⟨moved_trans first (moved_trans undone.moved unwound.moved), unwound.contained,
          ?_, ?_, ?_⟩
        · obtain ⟨provided', last⟩ := unwound.fiber
          use provided'
          rw [last, kept, Root.update_self]
        · intro owner name impl found
          exact undone.fewer owner name impl (unwound.fewer owner name impl found)
        · intro e member owner name serial withdraws impl found
          rw [stack] at member
          rcases List.mem_cons.mp member with rfl | later
          · exact undone.withdrawn owner name serial withdraws impl
              (unwound.fewer owner name impl found)
          · rw [← left] at later
            exact unwound.withdrawn e later owner name serial withdraws impl found

/-- `_discard_effects` of a row without children. -/
structure Discarded (scene : Scene code) (g : Nat) (r r' : Root) : Prop where
  moved : Moved scene g r r'
  state : (r'.fiber g).state = (r.fiber g).state
  epoch : (r'.fiber g).epoch = (r.fiber g).epoch
  effects : (r'.fiber g).effects = []
  unwinding : (r'.fiber g).unwinding = false
  fewer : ∀ owner name impl, r'.impls owner name = some impl → r.impls owner name = some impl
  withdrawn : ∀ effect ∈ (r.fiber g).effects, ∀ owner name serial,
    effect.undo = .withdraw owner name serial →
    ∀ impl, r'.impls owner name = some impl → impl.serial ≠ serial

theorem discardEffects_results (ready : Ready r) (childless : (r.fiber g).children = [])
    (own : ∀ effect ∈ (r.fiber g).effects, OwnUndo scene g effect.undo) :
    ∃ r', Results (fun fuel => discardEffects code (exec code fuel) g) r (.ret ()) r' ∧
      Discarded scene g r r' := by
  let emptied := r.update g fun fiber => { fiber with provided := [] }
  let started := emptied.update g fun fiber => { fiber with unwinding := true }
  have empties : Moved scene g r emptied := moved_update _ fun x => ⟨rfl, rfl, rfl, rfl, rfl⟩
  have starts : Moved scene g emptied started := moved_update _ fun x => ⟨rfl, rfl, rfl, rfl, rfl⟩
  have first : Moved scene g r started := moved_trans empties starts
  have row : started.fiber g = { r.fiber g with provided := [], unwinding := true } := by
    rw [Root.update_self, Root.update_self]
  have stack : (started.fiber g).effects = (r.fiber g).effects := by rw [row]
  obtain ⟨outcome, s, loop, unwound⟩ :=
    unwindLoop_results (r.fiber g).effects 0 (ready_moved ready first) stack own
  have looped := results_unwindLoop loop unwound.contained
  have begins (call : Call → M Nat) :
      discardEffects code call g r = discardStack code call g none r := by
    unfold discardEffects
    rw [run_get_bind, childless]
    rfl
  have unwinds (call : Call → M Nat) : unwind call g emptied =
      (call (.unwindLoop g 0 none) >>= fun _ => pure () : M Unit) started := rfl
  obtain ⟨provided, kept⟩ := unwound.fiber
  have facts (r' : Root) (fiber : r'.fiber = s.fiber) (impls : r'.impls = s.impls)
      (moved : Moved scene g s r') : Discarded scene g r r' := by
    constructor
    · exact moved_trans first (moved_trans unwound.moved moved)
    · rw [fiber, kept, row]
    · rw [fiber, kept, row]
    · rw [fiber, kept]
    · rw [fiber, kept]
    · intro owner name impl found
      rw [impls] at found
      exact unwound.fewer owner name impl found
    · intro effect member owner name serial withdraws impl found
      rw [impls] at found
      rw [← stack] at member
      exact unwound.withdrawn effect member owner name serial withdraws impl found
  obtain ⟨bound, looped⟩ := looped
  have unwinding (fuel : Nat) (enough : bound ≤ fuel) :
      unwind (exec code fuel) g emptied = (outcome, s) :=
    (unwinds (exec code fuel)).trans (looped fuel enough)
  rcases unwound.contained with rfl | ⟨failures, rfl⟩
  · use s
    constructor
    · use bound
      intro fuel enough
      dsimp only
      rw [begins, discardStack, run_modify_bind, run_bind, run_attempt, unwinding fuel enough]
      rfl
    · exact facts s rfl rfl (moved_fields s.fiber (fun _ _ => rfl) (sameRow_refl _) _ _ _ _ _ _ _ _)
  · have deaf : s.listeners = [] := (ready_moved (ready_moved ready first) unwound.moved).deaf
    obtain ⟨reporting, reports⟩ : ∃ reporting, ∀ call,
        report code call (.disposalErrors failures) s =
          (.ret (), { s with errors := s.errors ++ [.disposalErrors failures], reporting }) :=
      report_deaf code (.disposalErrors failures) s deaf
    use { s with errors := s.errors ++ [.disposalErrors failures], reporting }
    constructor
    · use bound
      intro fuel enough
      dsimp only
      rw [begins, discardStack, run_modify_bind, run_bind, run_attempt, unwinding fuel enough]
      exact run_bind_ret (reports (exec code fuel)) _
    · exact facts _ rfl rfl (moved_fields s.fiber (fun _ _ => rfl) (sameRow_refl _) _ _ _ _ _ _ _ _)

/-- An unloaded row: nothing it published is left, if each service had its effect. -/
structure Unloaded (scene : Scene code) (g : Nat) (r r' : Root) : Prop where
  moved : Moved scene g r r'
  state : (r'.fiber g).state = .pending
  epoch : (r'.fiber g).epoch = (r.fiber g).epoch
  effects : (r'.fiber g).effects = []
  unwinding : (r'.fiber g).unwinding = false
  fewer : ∀ owner name impl, r'.impls owner name = some impl → r.impls owner name = some impl
  withdrawn : ∀ effect ∈ (r.fiber g).effects, ∀ owner name serial,
    effect.undo = .withdraw owner name serial →
    ∀ impl, r'.impls owner name = some impl → impl.serial ≠ serial

theorem unload_results (ready : Ready r) (childless : (r.fiber g).children = [])
    (own : ∀ effect ∈ (r.fiber g).effects, OwnUndo scene g effect.undo) :
    ∃ r', Results (fun fuel => unload code (exec code fuel) g) r (.ret ()) r' ∧
      Unloaded scene g r r' := by
  have first : Moved scene g r (r.recordTransition g .unloading) := moved_transition _
  have row := Root.recordTransition_self r g .unloading
  have ready' := ready_moved ready first
  obtain ⟨s, runs, discarded⟩ := discardEffects_results ready'
    (by rw [row]; exact childless) (by rw [row]; exact own)
  have last : Moved scene g s (s.recordTransition g .pending) := moved_transition _
  have ready'' := ready_moved ready' discarded.moved
  use s.recordTransition g .pending
  constructor
  · refine results_bind (results_same fun fuel =>
      transition_deaf code (exec code fuel) g .unloading r ready.deaf) (results_bind runs ?_)
    exact results_same fun fuel =>
      transition_deaf code (exec code fuel) g .pending s ready''.deaf
  · constructor
    · exact moved_trans first (moved_trans discarded.moved last)
    · rw [Root.recordTransition_self]
    · rw [Root.recordTransition_epoch, discarded.epoch, row]
    · rw [Root.recordTransition_self]; exact discarded.effects
    · rw [Root.recordTransition_self]; exact discarded.unwinding
    · exact discarded.fewer
    · intro effect member
      apply discarded.withdrawn effect
      rw [row]
      exact member

/-! ### Loading -/

/-- The service `name` of `g` is registered, and an effect of `g` withdraws it. -/
def Published (scene : Scene code) (g : Nat) (name : String) (r : Root) : Prop :=
  ∃ impl, r.impls ((scene.realm g).ownerOf name) name = some impl ∧ impl.fiber = g ∧
    ∃ effect ∈ (r.fiber g).effects,
      effect.undo = .withdraw ((scene.realm g).ownerOf name) name impl.serial

/-- In the middle of `apply`, with `names` still to publish. -/
structure Publishing (scene : Scene code) (g : Nat) (names : List String) (r r' : Root) :
    Prop where
  moved : Moved scene g r r'
  state : (r'.fiber g).state = .loading
  epoch : (r'.fiber g).epoch = (r.fiber g).epoch
  loadedWith : (r'.fiber g).loadedWith = (r.fiber g).loadedWith
  unwinding : (r'.fiber g).unwinding = false
  realm : (r'.fiber g).realm = scene.realm g
  own : ∀ effect ∈ (r'.fiber g).effects, OwnUndo scene g effect.undo
  left : ∀ name ∈ names, name ∈ (scene.declaration g).provide ∧
    r'.impls ((scene.realm g).ownerOf name) name = none
  done : ∀ name ∈ (scene.declaration g).provide, name ∉ names →
    name ∈ (r'.fiber g).provided ∧ Published scene g name r'

theorem filed_fiber (undo : Undo) : (r.filed g undo).fiber g =
    { r.fiber g with effects := ⟨r.effectIds + 1, undo⟩ :: (r.fiber g).effects } := by
  simp [Root.filed, Root.update]

theorem moved_filed (undo : Undo) : Moved scene g r (r.filed g undo) := by
  apply moved_fields
  · intro u other
    exact Root.update_other r g u _ other
  · have row : (r.filed g undo).fiber g = _ := filed_fiber undo
    unfold Root.filed at row
    rw [row]
    exact ⟨rfl, rfl, rfl, rfl, rfl⟩

theorem addEffect_run (call : Call → M Nat) (undo : Undo)
    (still : (r.fiber g).unwinding = false) :
    addEffect code call g undo r = (.ret (r.effectIds + 1), r.filed g undo) := by
  unfold addEffect
  rw [run_get_bind, if_neg (by simp [still])]
  rfl

theorem publishing_filed {names : List String} {undo : Undo}
    (progress : Publishing scene g names r r') (own : OwnUndo scene g undo) :
    Publishing scene g names r (r'.filed g undo) := by
  have row : (r'.filed g undo).fiber g = _ := filed_fiber undo
  constructor
  · exact moved_trans progress.moved (moved_filed undo)
  · rw [row]; exact progress.state
  · rw [row]; exact progress.epoch
  · rw [row]; exact progress.loadedWith
  · rw [row]; exact progress.unwinding
  · rw [row]; exact progress.realm
  · rw [row]
    intro effect member
    rcases List.mem_cons.mp member with rfl | before
    · exact own
    · exact progress.own effect before
  · exact progress.left
  · intro name provided gone
    obtain ⟨listed, impl, found, mine, effect, member, withdraws⟩ := progress.done name provided gone
    refine ⟨by rw [row]; exact listed, impl, found, mine, effect, ?_, withdraws⟩
    rw [row]
    exact List.mem_cons_of_mem _ member

/-- One `ctx.provide` of a declared name that is still to publish. -/
theorem provide_publishing {names : List String} {name : String} (ready : Ready r)
    (progress : Publishing scene g names r r') (member : name ∈ names) :
    ∃ id s, (∀ call, provide code call g name none true r' = (.ret id, s)) ∧
      Publishing scene g (names.filter (· ≠ name)) r s := by
  have ready' := ready_moved ready progress.moved
  obtain ⟨declared, free⟩ := progress.left name member
  let owner := (scene.realm g).ownerOf name
  have key : scene.Key g owner name := ⟨declared, rfl⟩
  let published := (r'.register owner name g).wake name
  let noted := published.update g fun fiber =>
    { fiber with provided := name :: fiber.provided.filter (· ≠ name) }
  have registers : Moved scene g r' published := moved_register ready'.watching owner name key
  have notes : Moved scene g published noted := moved_update _ fun x => ⟨rfl, rfl, rfl, rfl, rfl⟩
  have row : noted.fiber g =
      { r'.fiber g with provided := name :: (r'.fiber g).provided.filter (· ≠ name) } := by
    have same : published.fiber = r'.fiber := wake_fiber _ _ _
    rw [Root.update_self, same]
  have still : (noted.fiber g).unwinding = false := by rw [row]; exact progress.unwinding
  have impls : noted.impls = (r'.register owner name g).impls := wake_impls _ _ _
  use noted.effectIds + 1, noted.filed g (.withdraw owner name (r'.serial + 1))
  constructor
  · intro call
    have notifies := notify_settling (r := r') call name (fun s => s.register owner name g)
      ((wake_settling name _ _).trans ready'.settling)
    unfold provide
    rw [run_get_bind, if_neg (by simp [progress.state])]
    simp only [Option.getD_none, progress.realm, free, if_true]
    rw [run_bind_ret notifies, run_modify_bind]
    exact addEffect_run call _ still
  · have row' : (noted.filed g (.withdraw owner name (r'.serial + 1))).fiber g = _ := filed_fiber _
    constructor
    · exact moved_trans progress.moved (moved_trans registers (moved_trans notes (moved_filed _)))
    · rw [row', row]; exact progress.state
    · rw [row', row]; exact progress.epoch
    · rw [row', row]; exact progress.loadedWith
    · rw [row']; exact still
    · rw [row', row]; exact progress.realm
    · rw [row', row]
      intro effect inside
      rcases List.mem_cons.mp inside with rfl | before
      · exact key
      · exact progress.own effect before
    · intro other inside
      obtain ⟨waiting, different⟩ := List.mem_filter.mp inside
      obtain ⟨declared', free'⟩ := progress.left other waiting
      refine ⟨declared', ?_⟩
      change noted.impls _ _ = none
      rw [impls]
      have different : other ≠ name := by simpa using different
      exact (if_neg fun same => different same.2).trans free'
    · intro other declared' gone
      by_cases self : other = name
      · subst self
        refine ⟨by rw [row', row]; exact List.mem_cons_self, ⟨g, r'.serial + 1⟩, ?_, rfl,
          ⟨noted.effectIds + 1, .withdraw owner other (r'.serial + 1)⟩, ?_, rfl⟩
        · change noted.impls _ _ = _
          rw [impls]
          exact if_pos ⟨rfl, rfl⟩
        · rw [row']
          exact List.mem_cons_self
      · have before : other ∉ names := by
          intro inside
          exact gone (List.mem_filter.mpr ⟨inside, by simpa using self⟩)
        obtain ⟨listed, impl, found, mine, effect, inside, withdraws⟩ :=
          progress.done other declared' before
        refine ⟨?_, impl, ?_, mine, effect, ?_, withdraws⟩
        · rw [row', row]
          exact List.mem_cons_of_mem _ (List.mem_filter.mpr ⟨listed, by simpa using self⟩)
        · change noted.impls _ _ = _
          rw [impls]
          exact (if_neg fun same => self same.2).trans found
        · rw [row', row]
          exact List.mem_cons_of_mem _ inside

/-- An `apply` that publishes what it declares, whatever else it files. -/
theorem runProg_publishes {names : List String} {program : Prog} (ready : Ready r)
    (publishes : Publishes code g names program) (progress : Publishing scene g names r r') :
    ∃ disposer s, Results (fun fuel => runProg (exec code fuel) program) r' (.ret disposer) s ∧
      Publishing scene g [] r s ∧ ∀ cb, disposer = some cb → Inert code g cb := by
  induction publishes generalizing r' with
  | ret disposer inert =>
      exact ⟨disposer, r', results_same fun fuel => rfl, progress, inert⟩
  | provide name names next member rest ih =>
      obtain ⟨id, s, runs, further⟩ := provide_publishing ready progress member
      obtain ⟨disposer, last, ended, published, inert⟩ := ih id further
      have called : Results (fun fuel => exec code fuel (.op (.provide g name none true))) r'
          (.ret id) s := by
        apply results_succ (fun fuel => rfl)
        exact results_same fun fuel => runs (exec code fuel)
      exact ⟨disposer, last, results_bind (results_attempt called) ended, published, inert⟩
  | effect cb names next inert rest ih =>
      have further : Publishing scene g names r (r'.filed g (.callback cb)) :=
        publishing_filed progress inert
      obtain ⟨disposer, last, ended, published, inert⟩ := ih (r'.effectIds + 1) further
      have called : Results (fun fuel => exec code fuel (.op (.effect g cb))) r'
          (.ret (r'.effectIds + 1)) (r'.filed g (.callback cb)) := by
        apply results_succ (fun fuel => rfl)
        exact results_same fun fuel => addEffect_run (exec code fuel) _ progress.unwinding
      exact ⟨disposer, last, results_bind (results_attempt called) ended, published, inert⟩
  | isolate names next rest ih =>
      have counted : Moved scene g r' { r' with realms := r'.realms + 1 } :=
        moved_fields r'.fiber (fun _ _ => rfl) (sameRow_refl _) _ _ _ _ _ _ _ _
      have further : Publishing scene g names r { r' with realms := r'.realms + 1 } :=
        ⟨moved_trans progress.moved counted, progress.state, progress.epoch, progress.loadedWith,
          progress.unwinding, progress.realm, progress.own, progress.left, progress.done⟩
      obtain ⟨disposer, last, ended, published, inert⟩ := ih (r'.realms + 1) further
      have called : Results (fun fuel => exec code fuel (.op .isolate)) r'
          (.ret (r'.realms + 1)) { r' with realms := r'.realms + 1 } := by
        apply results_succ (fun fuel => rfl)
        exact results_same fun fuel => rfl
      exact ⟨disposer, last, results_bind (results_attempt called) ended, published, inert⟩

/-- A loaded row: active, with its services published. -/
structure Loaded (scene : Scene code) (g : Nat) (r r' : Root) : Prop where
  moved : Moved scene g r r'
  state : (r'.fiber g).state = .active
  epoch : (r'.fiber g).epoch = (r.fiber g).epoch
  loadedWith : (r'.fiber g).loadedWith = r.resolved g
  unwinding : (r'.fiber g).unwinding = false
  own : ∀ effect ∈ (r'.fiber g).effects, OwnUndo scene g effect.undo
  published : ∀ name ∈ (scene.declaration g).provide, Published scene g name r'

/-- `apply` and the effect it may return. -/
theorem applyPlugin_results (ready : Ready r) (row : g ∈ scene.rows)
    (declaration : (r'.fiber g).declaration = scene.declaration g)
    (progress : Publishing scene g (scene.declaration g).provide r r') :
    ∃ s, Results (fun fuel => applyPlugin code (exec code fuel) g) r' (.ret ()) s ∧
      Publishing scene g [] r s := by
  let called := { r' with calls := r'.calls + 1 }
  have further : Publishing scene g (scene.declaration g).provide r called :=
    ⟨moved_trans progress.moved moved_calls, progress.state, progress.epoch, progress.loadedWith,
      progress.unwinding, progress.realm, progress.own, progress.left, progress.done⟩
  obtain ⟨disposer, s, ⟨bound, runs⟩, published, inert⟩ :=
    runProg_publishes ready (scene.publishes g row r'.calls) further
  have begins (fuel : Nat) (enough : bound ≤ fuel) :
      callback (exec code fuel) (code.apply (scene.declaration g).apply g) r' = (.ret disposer, s) :=
    runs fuel enough
  cases disposer with
  | none =>
      use s
      constructor
      · use bound
        intro fuel enough
        dsimp only
        rw [applyPlugin, run_get_bind, declaration, run_bind_ret (begins fuel enough)]
        rfl
      · exact published
  | some cb =>
      use s.filed g (.callback cb)
      constructor
      · use bound
        intro fuel enough
        dsimp only
        rw [applyPlugin, run_get_bind, declaration, run_bind_ret (begins fuel enough)]
        exact run_bind_ret (addEffect_run _ _ published.unwinding) _
      · exact publishing_filed published (inert cb rfl)

theorem load_results (ready : Ready r) (row : g ∈ scene.rows)
    (declaration : (r.fiber g).declaration = scene.declaration g)
    (realm : (r.fiber g).realm = scene.realm g) (empty : (r.fiber g).effects = [])
    (still : (r.fiber g).unwinding = false)
    (free : ∀ name ∈ (scene.declaration g).provide,
      r.impls ((scene.realm g).ownerOf name) name = none) :
    ∃ r', Results (fun fuel => load code (exec code fuel) g) r (.ret ()) r' ∧
      Loaded scene g r r' := by
  let noted := r.update g fun fiber => { fiber with loadedWith := r.resolved g }
  let loading := noted.recordTransition g .loading
  let configured := { loading with calls := loading.calls + 1 }
  have notes : Moved scene g r noted := moved_update _ fun x => ⟨rfl, rfl, rfl, rfl, rfl⟩
  have enters : Moved scene g noted loading := moved_transition _
  have configures : Moved scene g loading configured := moved_calls
  have first := moved_trans notes (moved_trans enters configures)
  have ready' := ready_moved ready first
  have state : configured.fiber g =
      { r.fiber g with loadedWith := r.resolved g, state := .loading } := by
    change loading.fiber g = _
    rw [Root.recordTransition_self, Root.update_self]
  have starts : Publishing scene g (scene.declaration g).provide configured configured := by
    constructor
    · exact moved_fields configured.fiber (fun _ _ => rfl) (sameRow_refl _) _ _ _ _ _ _ _ _
    · rw [state]
    · rfl
    · rfl
    · rw [state]; exact still
    · rw [state]; exact realm
    · rw [state]
      intro effect member
      rw [empty] at member
      cases member
    · exact fun name member => ⟨member, free name member⟩
    · exact fun name member gone => absurd member gone
  obtain ⟨s, applies, published⟩ :=
    applyPlugin_results ready' row (by rw [state]; exact declaration) starts
  obtain ⟨result, config⟩ := scene.config g row loading.calls
  have last : Moved scene g s (s.recordTransition g .active) := moved_transition _
  have ready'' := ready_moved ready' published.moved
  have same := sameRow_trans first.same published.moved.same
  have provides : (s.fiber g).declaration.provide.all (· ∈ (s.fiber g).provided) = true := by
    rw [List.all_eq_true, same.declaration, declaration]
    intro name member
    simpa using (published.done name member (List.not_mem_nil)).1
  obtain ⟨bound, applies⟩ := applies
  use s.recordTransition g .active
  constructor
  · use bound
    intro fuel enough
    have configuring : callback (exec code fuel)
        (code.resolveConfig (loading.fiber g).declaration.resolveConfig g) loading = (.ret result, configured) := by
      have same : (loading.fiber g).declaration = scene.declaration g := by
        change (configured.fiber g).declaration = _
        rw [state]
        exact declaration
      unfold callback
      rw [run_get_bind, run_modify_bind, same, config]
      rfl
    have transits : transition code (exec code fuel) g .loading noted = (.ret (), loading) :=
      transition_deaf code (exec code fuel) g .loading noted ready.deaf
    have applied : applyPlugin code (exec code fuel) g configured = (.ret (), s) :=
      applies fuel enough
    dsimp only
    rw [load, run_modify_bind, run_bind_ret transits, run_get_bind, run_bind, run_attempt,
      configuring]
    dsimp only
    rw [run_bind, run_attempt, applied]
    dsimp only
    rw [finishLoad, run_get_bind, if_pos provides]
    exact transition_deaf code (exec code fuel) g .active s ready''.deaf
  · constructor
    · exact moved_trans first (moved_trans published.moved last)
    · rw [Root.recordTransition_self]
    · rw [Root.recordTransition_epoch, published.epoch, state]
    · rw [Root.recordTransition_self]
      exact published.loadedWith.trans (by rw [state])
    · rw [Root.recordTransition_self]; exact published.unwinding
    · rw [Root.recordTransition_self]; exact published.own
    · intro name member
      obtain ⟨-, impl, found, mine, effect, inside, withdraws⟩ :=
        published.done name member (List.not_mem_nil)
      refine ⟨impl, found, mine, effect, ?_, withdraws⟩
      rw [Root.recordTransition_self]
      exact inside

end Reload

end AtrexAgent.Core
