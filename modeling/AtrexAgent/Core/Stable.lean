import AtrexAgent.Core.Machine

/-! What the procedures that are no lifecycle transition of their own do to a
root: they only make quiet changes, publish and withdraw services, and mount.
An assertion all of these preserve is an invariant of the procedures, given that
it is one of the code they call. -/

namespace AtrexAgent.Core

open AtrexAgent.Computation
open AtrexAgent.Computation.Comp

/-- `r'` has the rows, services and lifecycle of `r`, and its queue at least. -/
structure Quiet (r r' : Root) : Prop where
  fibers : r'.fibers = r.fibers
  impls : r'.impls = r.impls
  serial : r'.serial = r.serial
  uid : r'.uid = r.uid
  watching : r'.watching = r.watching
  settling : r'.settling = r.settling
  disposing : r'.disposing = r.disposing
  disposeStack : r'.disposeStack = r.disposeStack
  settledLog : r'.settledLog = r.settledLog
  activationOrder : r'.activationOrder = r.activationOrder
  listeners : r.listeners = [] → r'.listeners = []
  pending : ∀ u ∈ r.pending, u ∈ r'.pending
  declaration : ∀ u, (r'.fiber u).declaration = (r.fiber u).declaration
  entryId : ∀ u, (r'.fiber u).entryId = (r.fiber u).entryId
  realm : ∀ u, (r'.fiber u).realm = (r.fiber u).realm
  parent : ∀ u, (r'.fiber u).parent = (r.fiber u).parent
  state : ∀ u, (r'.fiber u).state = (r.fiber u).state
  epoch : ∀ u, (r'.fiber u).epoch = (r.fiber u).epoch
  loadedWith : ∀ u, (r'.fiber u).loadedWith = (r.fiber u).loadedWith
  children : ∀ u c, c ∈ (r'.fiber u).children → c ∈ (r.fiber u).children

/-- A change of one fiber that leaves its identity and lifecycle alone. -/
structure QuietFiber (change : Fiber → Fiber) : Prop where
  declaration : ∀ x, (change x).declaration = x.declaration
  entryId : ∀ x, (change x).entryId = x.entryId
  realm : ∀ x, (change x).realm = x.realm
  parent : ∀ x, (change x).parent = x.parent
  state : ∀ x, (change x).state = x.state
  epoch : ∀ x, (change x).epoch = x.epoch
  loadedWith : ∀ x, (change x).loadedWith = x.loadedWith
  children : ∀ x c, c ∈ (change x).children → c ∈ x.children

theorem quiet_update (r : Root) (f : Nat) (change : Fiber → Fiber) (quiet : QuietFiber change) :
    Quiet r (r.update f change) := by
  have cases_on (u : Nat) : (r.update f change).fiber u = r.fiber u ∨
      (r.update f change).fiber u = change (r.fiber u) := by
    rw [Root.update_fiber]
    split
    · exact Or.inr rfl
    · exact Or.inl rfl
  refine ⟨rfl, rfl, rfl, rfl, rfl, rfl, rfl, rfl, rfl, rfl, id, fun u h => h, ?_, ?_, ?_, ?_, ?_, ?_,
    ?_, ?_⟩
  all_goals intro u; rcases cases_on u with same | same <;> rw [same]
  · exact quiet.declaration _
  · exact quiet.entryId _
  · exact quiet.realm _
  · exact quiet.parent _
  · exact quiet.state _
  · exact quiet.epoch _
  · exact quiet.loadedWith _
  · exact fun _ member => member
  · exact quiet.children _

theorem quiet_trans {r s t : Root} (first : Quiet r s) (second : Quiet s t) : Quiet r t where
  fibers := second.fibers.trans first.fibers
  impls := second.impls.trans first.impls
  serial := second.serial.trans first.serial
  uid := second.uid.trans first.uid
  watching := second.watching.trans first.watching
  settling := second.settling.trans first.settling
  disposing := second.disposing.trans first.disposing
  disposeStack := second.disposeStack.trans first.disposeStack
  settledLog := second.settledLog.trans first.settledLog
  activationOrder := second.activationOrder.trans first.activationOrder
  listeners := fun h => second.listeners (first.listeners h)
  pending := fun u h => second.pending u (first.pending u h)
  declaration := fun u => (second.declaration u).trans (first.declaration u)
  entryId := fun u => (second.entryId u).trans (first.entryId u)
  realm := fun u => (second.realm u).trans (first.realm u)
  parent := fun u => (second.parent u).trans (first.parent u)
  state := fun u => (second.state u).trans (first.state u)
  epoch := fun u => (second.epoch u).trans (first.epoch u)
  loadedWith := fun u => (second.loadedWith u).trans (first.loadedWith u)
  children := fun u c member => first.children u c (second.children u c member)

/-- A change outside the fields `Quiet` speaks of. -/
theorem quiet_fields (r : Root) (calls effectIds realms : Nat) (errors : List Exc)
    (reporting : Bool) (undoLog : List FiberView) :
    Quiet r { r with calls, effectIds, realms, errors, reporting, undoLog } :=
  ⟨rfl, rfl, rfl, rfl, rfl, rfl, rfl, rfl, rfl, rfl, id, fun _ h => h,
    fun _ => rfl, fun _ => rfl, fun _ => rfl, fun _ => rfl, fun _ => rfl, fun _ => rfl,
    fun _ => rfl, fun _ _ member => member⟩

theorem quiet_enqueue (r : Root) (f : Nat) : Quiet r (r.enqueue f) :=
  ⟨rfl, rfl, rfl, rfl, rfl, rfl, rfl, rfl, rfl, rfl, id,
    fun _ h => List.mem_append_left _ h,
    fun _ => rfl, fun _ => rfl, fun _ => rfl, fun _ => rfl, fun _ => rfl, fun _ => rfl,
    fun _ => rfl, fun _ _ member => member⟩

theorem quiet_unlisten (r : Root) (sequence : Nat) :
    Quiet r { r with listeners := r.listeners.filter (·.sequence ≠ sequence) } :=
  ⟨rfl, rfl, rfl, rfl, rfl, rfl, rfl, rfl, rfl, rfl, fun h => by simp [h], fun _ h => h,
    fun _ => rfl, fun _ => rfl, fun _ => rfl, fun _ => rfl, fun _ => rfl, fun _ => rfl,
    fun _ => rfl, fun _ _ member => member⟩

/-- Some operation of `P` mounts this fiber. -/
def Mounts (P : Op → Prop) (declaration : Declaration) (entryId : String)
    (isolated : List String) (parent : Option Nat) (realm : Option Realm) : Prop :=
  P (.mount declaration entryId isolated parent realm) ∨
    ∃ p given, parent = some p ∧ realm = some given ∧
      P (.plugin declaration entryId isolated p given)

structure Stable (P : Op → Prop) (I : Root → Prop) : Prop where
  deaf : ∀ r, I r → r.listeners = []
  quiet : ∀ r r', Quiet r r' → I r → I r'
  register : ∀ r owner name f, (∃ realm wellShaped, P (.provide f name realm wellShaped)) →
    I r → I ((r.register owner name f).wake name)
  unregister : ∀ r owner name, I r → I ((r.unregister owner name).wake name)
  mounted : ∀ r declaration entryId isolated parent realm,
    Mounts P declaration entryId isolated parent realm → I r →
    I (r.mounted declaration entryId isolated parent realm)

/-- What the steps of the procedures do to an assertion `I`, when the code keeps to
the operations in `P`. `U f undo` stands for `I` while `f` has the effect `undo` in
hand: it is not filed yet, or it is off its stack and has not run yet. -/
structure Tidy (P : Op → Prop) (I : Root → Prop) (U : Nat → Undo → Root → Prop) : Prop where
  deaf : ∀ r, I r → r.listeners = []
  recorded : ∀ r calls realms errors reporting undoLog, I r →
    I { r with calls, realms, errors, reporting, undoLog }
  enqueued : ∀ r f, I r →
    I ((r.update f fun fiber => { fiber with restartRequested := true }).enqueue f)
  flagged : ∀ r f unwinding, I r → I (r.update f fun fiber => { fiber with unwinding })
  cleared : ∀ r f, I r → I (r.update f fun fiber => { fiber with provided := [] })
  noted : ∀ r f undo (change : List String → List String), U f undo r →
    U f undo (r.update f fun fiber => { fiber with provided := change fiber.provided })
  offered : ∀ r f disposer, P (.effect f disposer) → I r → U f (.callback disposer) r
  filed : ∀ r f undo, U f undo r → (r.fiber f).unwinding = false → I (r.filed f undo)
  popped : ∀ r f effect before after, I r → (r.fiber f).effects = before ++ effect :: after →
    U f effect.undo (r.update f fun fiber => { fiber with effects := before ++ after })
  called : ∀ r f disposer, U f (.callback disposer) r → I r
  gone : ∀ r f owner name serial, U f (.withdraw owner name serial) r →
    r.registered owner name serial = false → I r
  withdrawn : ∀ r f owner name serial, U f (.withdraw owner name serial) r →
    r.registered owner name serial = true → I ((r.unregister owner name).wake name)
  unlistened : ∀ r f sequence, U f (.unlisten sequence) r →
    I { r with listeners := r.listeners.filter (·.sequence ≠ sequence) }
  registered : ∀ r f name realm wellShaped, P (.provide f name realm wellShaped) → I r →
    (r.fiber f).state = .loading ∨ (r.fiber f).state = .active →
    r.impls ((realm.getD (r.fiber f).realm).ownerOf name) name = none →
    U f (.withdraw ((realm.getD (r.fiber f).realm).ownerOf name) name (r.serial + 1))
      ((r.register ((realm.getD (r.fiber f).realm).ownerOf name) name f).wake name)
  mounted : ∀ r declaration entryId isolated parent realm, I r →
    Mounts P declaration entryId isolated parent realm →
    (∀ u ∈ r.fibers, (r.fiber u).entryId ≠ entryId) →
    I (r.mounted declaration entryId isolated parent realm)

/-- Where effects do not matter, one in hand does not either. -/
theorem stable_tidy {P : Op → Prop} {I : Root → Prop} (stable : Stable P I) :
    Tidy P I fun _ _ => I where
  deaf := stable.deaf
  recorded := fun r calls realms errors reporting undoLog given =>
    stable.quiet _ _ (quiet_fields r calls r.effectIds realms errors reporting undoLog) given
  enqueued := fun r f given => by
    refine stable.quiet _ _ (quiet_trans (quiet_update r f _ ?_) (quiet_enqueue _ f)) given
    exact ⟨fun _ => rfl, fun _ => rfl, fun _ => rfl, fun _ => rfl, fun _ => rfl, fun _ => rfl,
      fun _ => rfl, fun _ _ member => member⟩
  flagged := fun r f unwinding given => by
    refine stable.quiet _ _ (quiet_update r f _ ?_) given
    exact ⟨fun _ => rfl, fun _ => rfl, fun _ => rfl, fun _ => rfl, fun _ => rfl, fun _ => rfl,
      fun _ => rfl, fun _ _ member => member⟩
  cleared := fun r f given => by
    refine stable.quiet _ _ (quiet_update r f _ ?_) given
    exact ⟨fun _ => rfl, fun _ => rfl, fun _ => rfl, fun _ => rfl, fun _ => rfl, fun _ => rfl,
      fun _ => rfl, fun _ _ member => member⟩
  noted := fun r f _ _ given => by
    refine stable.quiet _ _ (quiet_update r f _ ?_) given
    exact ⟨fun _ => rfl, fun _ => rfl, fun _ => rfl, fun _ => rfl, fun _ => rfl, fun _ => rfl,
      fun _ => rfl, fun _ _ member => member⟩
  offered := fun _ _ _ _ given => given
  filed := fun r f undo given _ => by
    refine stable.quiet _ _ (quiet_trans (quiet_update r f _ ?_) (quiet_fields _ r.calls
      (r.effectIds + 1) r.realms r.errors r.reporting r.undoLog)) given
    exact ⟨fun _ => rfl, fun _ => rfl, fun _ => rfl, fun _ => rfl, fun _ => rfl, fun _ => rfl,
      fun _ => rfl, fun _ _ member => member⟩
  popped := fun r f _ _ _ given _ => by
    refine stable.quiet _ _ (quiet_update r f _ ?_) given
    exact ⟨fun _ => rfl, fun _ => rfl, fun _ => rfl, fun _ => rfl, fun _ => rfl, fun _ => rfl,
      fun _ => rfl, fun _ _ member => member⟩
  called := fun _ _ _ given => given
  gone := fun _ _ _ _ _ given _ => given
  withdrawn := fun r _ owner name _ given _ => stable.unregister r owner name given
  unlistened := fun r _ sequence given => stable.quiet _ _ (quiet_unlisten r sequence) given
  registered := fun r f name realm wellShaped driven given _ _ =>
    stable.register r _ name f ⟨realm, wellShaped, driven⟩ given
  mounted := fun r declaration entryId isolated parent realm given mounts _ =>
    stable.mounted r declaration entryId isolated parent realm mounts given

/-! ### Which exceptions can arrive -/

/-- `A` says whether a bare `BaseException` may be raised at all. -/
def Ordinary (A : Prop) (error : Exc) : Prop := error.isException = true ∨ A

def Bare (A : Prop) (error : Exc) : Prop := error.isException = false ∧ A

/-- Disposing contains every `Exception`; an unwind turns them into one. -/
def Raises (A : Prop) : Call → Exc → Prop
  | .op (.dispose _), error => Bare A error
  | .unwindLoop _ _ _, error => (∃ failures, error = .disposalErrors failures) ∨ Bare A error
  | _, error => Ordinary A error

theorem bare_ordinary {A : Prop} (error : Exc) (bare : Bare A error) : Ordinary A error :=
  Or.inr bare.2

theorem ordinary_bare {A : Prop} {error : Exc} (ordinary : Ordinary A error)
    (abort : error.isException = false) : Bare A error := by
  rcases ordinary with exception | allowed
  · rw [exception] at abort; cases abort
  · exact ⟨abort, allowed⟩

theorem all_weaken {P : Op → Prop} {R R' : Exc → Prop} (program : Prog) (all : program.All P R)
    (wider : ∀ error, R error → R' error) : program.All P R' := by
  induction program with
  | ret disposer => trivial
  | raise error => exact wider error all
  | op o next ih => exact ⟨all.1, fun result => ih result (all.2 result)⟩

/-- The calls the code of the plugins and of the procedures makes, where plugins
keep to the operations in `P`. -/
def Within (P : Op → Prop) (A : Prop) : Call → Prop
  | .op o => P o
  | .unwindLoop _ _ abort => ∀ error, abort = some error → Bare A error
  | .settleLoop _ => False

/-- A loop that unwinds a stack leaves it empty. -/
def After (I : Root → Prop) : Call → Root → Prop
  | .unwindLoop f _ _, r => I r ∧ (r.fiber f).effects = []
  | _, r => I r

structure Closed (code : Code) (call : Call → M Nat) (P : Op → Prop) (A : Prop)
    (I : Root → Prop) (U : Nat → Undo → Root → Prop) (D : Root → Prop) : Prop where
  tidy : Tidy P I U
  calls : ∀ c, Within P A c → Triple I (call c) (fun _ => After I c)
    (fun error r => After I c r ∧ Raises A c error) D
  settles : ∀ f name, (∃ realm wellShaped, P (.provide f name realm wellShaped)) → ∀ undo,
    Triple (U f undo) (call (.op .settle)) (fun _ => U f undo)
      (fun error r => I r ∧ Ordinary A error) D
  disposers : ∀ cb f n, (code.disposer cb f n).All P (Ordinary A)
  settle : P .settle
  dispose : ∀ f, P (.dispose f)
  silent : ∀ f event listener order, ¬ P (.on f event listener order)

/-! ### With no listener on the bus, an emission does nothing -/

section Deaf

variable (code : Code) (call : Call → M Nat)

theorem emit_deaf (handle : Exc → M Unit) (event : BusEvent) (r : Root)
    (deaf : r.listeners = []) : emit code call handle event r = (.ret (), r) := by
  unfold emit
  rw [run_get_bind, deaf]
  by_cases closed : r.busClosed = true
  · rw [if_pos closed]; rfl
  · rw [if_neg closed]; rfl

theorem transition_deaf (f : Nat) (state : FiberState) (r : Root) (deaf : r.listeners = []) :
    transition code call f state r = (.ret (), r.recordTransition f state) := by
  unfold transition
  rw [run_modify_bind]
  exact emit_deaf code call _ _ _ deaf

theorem report_deaf (error : Exc) (r : Root) (deaf : r.listeners = []) :
    ∃ reporting, ∀ call, report code call error r =
      (.ret (), { r with errors := r.errors ++ [error], reporting := reporting }) := by
  by_cases nested : r.reporting = true
  · use r.reporting
    intro call
    unfold report recordError
    rw [run_modify_bind, run_get_bind, if_pos nested]
    rfl
  · use false
    intro call
    unfold report recordError
    rw [run_modify_bind, run_get_bind, if_neg nested, run_modify_bind]
    exact run_andFinally_ret (emit_deaf code call _ _ _ deaf) (run_modify _ _)

end Deaf

section Invariants

variable {code : Code} {call : Call → M Nat} {P : Op → Prop} {A : Prop} {I D : Root → Prop}
  {U : Nat → Undo → Root → Prop}

theorem keeps_report (deaf : ∀ r, I r → r.listeners = [])
    (recorded : ∀ r errors reporting, I r → I { r with errors, reporting }) (error : Exc)
    (R : Exc → Prop) : Keeps I R D (report code call error) := by
  refine triple_run fun r given => ?_
  obtain ⟨reporting, run⟩ := report_deaf code error r (deaf r given)
  exact ⟨(), _, run call, recorded r _ reporting given⟩

/-- The state a transition leaves, for an assertion the transition preserves. -/
theorem keeps_transition (deaf : ∀ r, I r → r.listeners = []) (f : Nat) (state : FiberState)
    (preserves : ∀ r, I r → I (r.recordTransition f state)) (R : Exc → Prop) :
    Keeps I R D (transition code call f state) :=
  triple_run fun r given =>
    ⟨(), _, transition_deaf code call f state r (deaf r given), preserves r given⟩

theorem keeps_op (h : Closed code call P A I U D) (o : Op) (driven : P o) :
    Keeps I (Raises A (.op o)) D (call (.op o)) := h.calls (.op o) driven

theorem keeps_settle (h : Closed code call P A I U D) :
    Keeps I (Ordinary A) D (call (.op .settle)) := keeps_op h .settle h.settle

theorem keeps_runProg (calls : ∀ o, P o → Keeps I (Raises A (.op o)) D (call (.op o)))
    (program : Prog) (R : Exc → Prop) (within : program.All P R) :
    Keeps I R D (runProg call program) := by
  induction program with
  | ret disposer => exact keeps_pure disposer
  | raise error => exact keeps_raise error within
  | op o next ih =>
      unfold runProg
      refine keeps_attempt_bind (calls o within.1) ?_ ?_
      · exact fun value => ih (.ok value) (within.2 (.ok value))
      · exact fun error _ => ih (.error error) (within.2 (.error error))

theorem keeps_callback (h : Closed code call P A I U D) (body : Nat → Prog)
    (within : ∀ n, (body n).All P (Ordinary A)) :
    Keeps I (Ordinary A) D (callback call body) := by
  unfold callback
  refine keeps_bind keeps_get fun r => keeps_bind (keeps_modify fun r' given => ?_) fun _ => ?_
  · exact h.tidy.recorded r' _ _ _ _ _ given
  · exact keeps_runProg (keeps_op h) _ _ (within r.calls)

/-- A change of services, with the settling it may cause. -/
theorem triple_notify (name : String) (change : Root → Root) {J K : Root → Prop}
    {E : Exc → Root → Prop} (preserves : ∀ r, J r → K ((change r).wake name))
    (settles : Triple K (call (.op .settle)) (fun _ => K) E D) :
    Triple J (notify call name change) (fun _ => K) E D := by
  unfold notify
  refine triple_bind (Q := fun _ => K) (triple_modify _ preserves) fun _ => ?_
  refine triple_get_bind fun r given => triple_pre (fun s same => same ▸ given) ?_
  refine triple_ite (fun _ => ?_) fun _ => triple_pure () fun s given => given
  exact triple_bind settles fun _ => triple_pure () fun s given => given

/-- Running the effect a fiber has in hand. -/
theorem keeps_runUndo (h : Closed code call P A I U D) (f : Nat) (undo : Undo) :
    Triple (U f undo) (runUndo code call f undo) (fun _ => I)
      (fun error r => I r ∧ Ordinary A error) D := by
  cases undo with
  | callback disposer =>
      refine triple_bind (Q := fun _ => I) (triple_modify _ fun r given => ?_) fun _ =>
        keeps_bind (keeps_callback h _ (h.disposers disposer f)) fun _ => keeps_pure ()
      exact h.tidy.recorded r _ _ _ _ _ (h.tidy.called r f disposer given)
  | withdraw owner name serial =>
      refine triple_bind (Q := fun _ => U f (.withdraw owner name serial))
        (triple_modify _ fun r given => h.tidy.noted r f _ _ given) fun _ => ?_
      refine triple_get_bind fun r given => triple_ite (fun current => ?_) fun stale => ?_
      · refine triple_pre (P := fun s => s = r) (fun s same => same) (triple_notify name _ ?_
          (keeps_settle h))
        rintro s rfl
        exact h.tidy.withdrawn s f owner name serial given current
      · refine triple_pure () fun s same => same ▸ ?_
        exact h.tidy.gone r f owner name serial given (by simpa using stale)
  | unlisten sequence => exact triple_modify _ fun r given => h.tidy.unlistened r f sequence given

theorem keeps_addEffect (h : Closed code call P A I U D) (f : Nat) (undo : Undo) :
    Triple (U f undo) (addEffect code call f undo) (fun _ => I)
      (fun error r => I r ∧ Ordinary A error) D := by
  unfold addEffect
  refine triple_get_bind fun r given => triple_ite (fun _ => ?_) fun still => ?_
  · refine triple_bind (triple_pre (fun s same => same ▸ given) (keeps_runUndo h f undo)) fun _ => ?_
    exact keeps_pure 0
  · refine triple_bind (Q := fun _ => I) (triple_modify _ ?_) fun _ => keeps_pure _
    rintro s rfl
    exact h.tidy.filed s f undo given (by simpa using still)

theorem keeps_callDisposer (h : Closed code call P A I U D) (f id : Nat) :
    Keeps I (Ordinary A) D (callDisposer code call f id) := by
  unfold callDisposer
  refine keeps_get_bind fun r given => ?_
  cases found : (r.fiber f).effects.find? (·.id = id) with
  | none => exact triple_pure () fun s same => same ▸ given
  | some effect =>
      obtain ⟨same, before, after, split, earlier⟩ := List.find?_eq_some_iff_append.mp found
      have erased : (r.fiber f).effects.eraseP (·.id = id) = before ++ after := by
        rw [split, List.eraseP_append_right _ (by simpa using earlier)]
        exact congrArg (before ++ ·) (List.eraseP_cons_of_pos same)
      refine triple_bind (Q := fun _ => U f effect.undo) (triple_modify _ ?_) fun _ =>
        keeps_runUndo h f effect.undo
      rintro s rfl
      have popped := h.tidy.popped s f effect before after given split
      have same : (s.update f fun fiber =>
          { fiber with effects := fiber.effects.eraseP (·.id = id) }) =
          s.update f fun fiber => { fiber with effects := before ++ after } := by
        unfold Root.update
        congr 1
        funext u
        by_cases self : u = f
        · subst self
          simp only [if_true, erased]
        · simp only [if_neg self]
      rw [same]
      exact popped

theorem keeps_unwindLoop (h : Closed code call P A I U D) (f failures : Nat) (abort : Option Exc)
    (bare : ∀ error, abort = some error → Bare A error) :
    Triple I (unwindLoop code call f failures abort)
      (fun _ => After I (.unwindLoop f failures abort))
      (fun error r => After I (.unwindLoop f failures abort) r ∧
        Raises A (.unwindLoop f failures abort) error) D := by
  have again (failures' : Nat) (abort' : Option Exc)
      (bare' : ∀ error, abort' = some error → Bare A error) :
      Triple I (call (.unwindLoop f failures' abort') >>= fun _ => pure ())
        (fun _ => After I (.unwindLoop f failures abort))
        (fun error r => After I (.unwindLoop f failures abort) r ∧
          Raises A (.unwindLoop f failures abort) error) D :=
    triple_bind (h.calls (.unwindLoop f failures' abort') bare') fun _ =>
      triple_pure () fun _ given => given
  unfold unwindLoop
  refine triple_get_bind fun r given => ?_
  cases stack : (r.fiber f).effects with
  | cons effect rest =>
      refine triple_bind (Q := fun _ => U f effect.undo) (triple_modify _ ?_) fun _ => ?_
      · rintro s rfl
        exact h.tidy.popped s f effect [] rest given stack
      refine triple_bind (Q := fun result r => I r ∧
        ∀ error, result = .error error → Ordinary A error) ?_ fun result => ?_
      · refine triple_attempt (triple_post (keeps_runUndo h f effect.undo) ?_ ?_)
        · exact fun value s given => ⟨given, fun error wrong => by cases wrong⟩
        · exact fun error s given => ⟨given.1, fun error' same => by cases same; exact given.2⟩
      refine triple_state fun r given => triple_pre (fun s same => same ▸ given.1) ?_
      cases result with
      | ok _ => exact again failures abort bare
      | error error =>
          refine triple_ite (fun _ => again _ abort bare) fun aborts => again failures _ ?_
          intro error' first
          cases abort with
          | some old => cases first; exact bare _ rfl
          | none =>
              cases first
              exact ordinary_bare (given.2 _ rfl) (by simpa using aborts)
  | nil =>
      refine triple_bind (Q := fun _ => After I (.unwindLoop f failures abort))
        (triple_modify _ ?_) fun _ => ?_
      · rintro s rfl
        exact ⟨h.tidy.flagged s f false given, by rw [Root.update_self]; exact stack⟩
      cases abort with
      | some error => exact triple_raise error fun s given => ⟨given, Or.inr (bare error rfl)⟩
      | none =>
          refine triple_ite (fun _ => triple_pure () fun s given => given) fun _ => ?_
          exact triple_raise _ fun s given => ⟨given, Or.inl ⟨failures, rfl⟩⟩

theorem keeps_unwind (h : Closed code call P A I U D) (f : Nat) :
    Triple I (unwind call f) (fun _ r => I r ∧ (r.fiber f).effects = [])
      (fun error r => (I r ∧ (r.fiber f).effects = []) ∧ Raises A (.unwindLoop f 0 none) error) D := by
  unfold unwind
  refine triple_bind (Q := fun _ => I) (triple_modify _ fun r given => h.tidy.flagged r f true given)
    fun _ => triple_bind (h.calls (.unwindLoop f 0 none) fun error none => by cases none) fun _ =>
    triple_pure () fun _ given => given

theorem keeps_provide (h : Closed code call P A I U D) (f : Nat) (name : String)
    (realm : Option Realm) (wellShaped : Bool) (driven : P (.provide f name realm wellShaped)) :
    Keeps I (Ordinary A) D (provide code call f name realm wellShaped) := by
  unfold provide
  refine triple_get_bind fun r given => ?_
  have raises (error : Exc) (exception : error.isException = true) :
      Triple (fun s => s = r) (raise error : M Nat) (fun _ => I)
        (fun error s => I s ∧ Ordinary A error) D :=
    triple_raise error fun s same => ⟨same ▸ given, Or.inl exception⟩
  refine triple_ite (fun _ => raises _ rfl) fun loaded => ?_
  have loaded : (r.fiber f).state = .loading ∨ (r.fiber f).state = .active := by
    by_contra neither
    exact loaded (not_or.mp neither)
  cases free : r.impls ((realm.getD (r.fiber f).realm).ownerOf name) name with
  | some existing => simp only [free]; exact raises _ rfl
  | none =>
      simp only [free]
      refine triple_ite (fun _ => ?_) fun _ => raises _ rfl
      refine triple_bind (triple_notify name _ (J := fun s => s = r) ?_ (h.settles f
        name ⟨realm, wellShaped, driven⟩ (.withdraw ((realm.getD (r.fiber f).realm).ownerOf name) name
          (r.serial + 1)))) fun _ => ?_
      · rintro s rfl
        exact h.tidy.registered s f name realm wellShaped driven given loaded free
      exact triple_bind (triple_modify _ fun s held => h.tidy.noted s f _
        (fun provided => name :: provided.filter (· ≠ name)) held) fun _ => keeps_addEffect h f _

theorem keeps_restart (h : Closed code call P A I U D) (f : Nat) :
    Keeps I (Ordinary A) D (restart call f) := by
  unfold restart
  refine keeps_bind keeps_get fun r => keeps_ite (fun _ => keeps_pure ()) fun _ => ?_
  refine keeps_bind (keeps_modify fun r' given => h.tidy.enqueued r' f given) fun _ =>
    keeps_ite (fun _ => ?_) fun _ => keeps_pure ()
  exact keeps_bind (keeps_settle h) fun _ => keeps_pure ()

theorem keeps_mount (tidy : Tidy P I U) (declaration : Declaration) (entryId : String)
    (isolated : List String) (parent : Option Nat) (realm : Option Realm)
    (mounts : Mounts P declaration entryId isolated parent realm) :
    Keeps I (Ordinary A) D (mount declaration entryId isolated parent realm) := by
  unfold mount
  refine triple_get_bind fun r given => triple_ite (fun _ => ?_) fun fresh => ?_
  · exact triple_raise _ fun s same => ⟨same ▸ given, Or.inl rfl⟩
  · refine triple_bind (Q := fun _ => I) (triple_modify _ ?_) fun _ => keeps_pure _
    rintro s rfl
    refine tidy.mounted _ _ _ _ _ _ given mounts fun u member same => fresh ?_
    exact List.any_eq_true.mpr ⟨u, member, by simpa using same⟩

theorem keeps_disposeAll (h : Closed code call P A I U D) (children : List Nat)
    (abort : Option Exc) (E : Exc → Root → Prop)
    (bare : ∀ error, abort = some error → Bare A error) :
    Triple I (disposeAll call children abort)
      (fun abort' r => I r ∧ ∀ error, abort' = some error → Bare A error) E D := by
  induction children generalizing abort with
  | nil => exact triple_pure abort fun r given => ⟨given, bare⟩
  | cons child rest ih =>
      unfold disposeAll
      refine triple_bind (attempt_raises (keeps_op h (.dispose child) (h.dispose child))) ?_
      intro result
      refine triple_state fun r given => triple_pre (fun s same => same ▸ given.1) ?_
      cases result with
      | ok value => exact ih abort bare
      | error error =>
          refine ih _ fun error' first => ?_
          cases abort with
          | some old => cases first; exact bare _ rfl
          | none => cases first; exact given.2 _ rfl

theorem keeps_raiseAbort {J : Root → Prop} (abort : Option Exc)
    (bare : ∀ error, abort = some error → Bare A error) :
    Keeps J (Bare A) D (raiseAbort abort) := by
  cases abort with
  | none => exact keeps_pure ()
  | some error => exact keeps_raise error (bare error rfl)

/-- Whether it returns or raises, discarding leaves no effect on the stack. -/
theorem keeps_discardStack (h : Closed code call P A I U D) (f : Nat) (abort : Option Exc)
    (bare : ∀ error, abort = some error → Bare A error) :
    Triple I (discardStack code call f abort) (fun _ r => I r ∧ (r.fiber f).effects = [])
      (fun error r => (I r ∧ (r.fiber f).effects = []) ∧ Bare A error) D := by
  have reports (error : Exc) :
      Keeps (fun r => I r ∧ (r.fiber f).effects = []) (Bare A) D (report code call error) :=
    keeps_report (fun r given => h.tidy.deaf r given.1) (fun r errors reporting given =>
      ⟨h.tidy.recorded r r.calls r.realms errors reporting r.undoLog given.1, given.2⟩) error _
  unfold discardStack
  refine triple_bind (Q := fun _ => I) (triple_modify _ fun r given => h.tidy.cleared r f given)
    fun _ => ?_
  refine triple_bind (Q := fun result r => (I r ∧ (r.fiber f).effects = []) ∧
    ∀ error, result = .error error → Raises A (.unwindLoop f 0 none) error) ?_ fun result => ?_
  · refine triple_attempt (triple_post (keeps_unwind h f) ?_ ?_)
    · exact fun value s given => ⟨given, fun error wrong => by cases wrong⟩
    · exact fun error s given => ⟨given.1, fun error' same => by cases same; exact given.2⟩
  refine triple_state fun r given => triple_pre (fun s same => same ▸ given.1) ?_
  cases result with
  | ok _ => exact keeps_raiseAbort abort bare
  | error error =>
      rcases given.2 error rfl with ⟨failures, rfl⟩ | aborts
      · exact triple_bind (reports _) fun _ => keeps_raiseAbort abort bare
      · have first : ∀ error', (abort <|> some error) = some error' → Bare A error' := by
          intro error' first
          cases abort with
          | some old => cases first; exact bare _ rfl
          | none => cases first; exact aborts
        cases error with
        | abort tag => exact keeps_raiseAbort _ first
        | _ => cases aborts.1

theorem keeps_discardEffects (h : Closed code call P A I U D) (f : Nat) :
    Triple I (discardEffects code call f) (fun _ r => I r ∧ (r.fiber f).effects = [])
      (fun error r => (I r ∧ (r.fiber f).effects = []) ∧ Bare A error) D := by
  unfold discardEffects
  refine triple_get_bind fun r given => triple_pre (fun s same => same ▸ given) ?_
  refine triple_bind (keeps_disposeAll h _ none _ fun error none => by cases none) fun abort => ?_
  exact triple_state fun r given =>
    triple_pre (fun s same => same ▸ given.1) (keeps_discardStack h f abort given.2)

/-- An unload, from what holds before it to what its last transition leaves. -/
theorem unload_run (h : Closed code call P A I U D) (f : Nat) {J Q : Root → Prop}
    (deaf : ∀ r, J r → r.listeners = [])
    (enters : ∀ r, J r → I (r.recordTransition f .unloading))
    (leaves : ∀ r, I r → (r.fiber f).effects = [] → Q (r.recordTransition f .pending)) :
    Triple J (unload code call f) (fun _ => Q)
      (fun error r => (I r ∧ (r.fiber f).effects = []) ∧ Bare A error) D := by
  unfold unload
  refine triple_bind (Q := fun _ => I) (triple_run fun r given => ?_) fun _ => ?_
  · exact ⟨(), _, transition_deaf code call f _ r (deaf r given), enters r given⟩
  refine triple_bind (keeps_discardEffects h f) fun _ => triple_run fun r given => ?_
  exact ⟨(), _, transition_deaf code call f _ r (h.tidy.deaf r given.1), leaves r given.1 given.2⟩

theorem keeps_unload (h : Closed code call P A I U D) (f : Nat)
    (transits : ∀ r state, state ≠ .active → I r → I (r.recordTransition f state)) :
    Keeps I (Bare A) D (unload code call f) :=
  triple_post (unload_run h f h.tidy.deaf (fun r => transits r _ (by decide))
    fun r given _ => transits r _ (by decide) given) (fun _ _ given => given)
    fun _ _ raised => ⟨raised.1.1, raised.2⟩

theorem keeps_applyPlugin (h : Closed code call P A I U D) (f : Nat)
    (applies : ∀ cb n, (code.apply cb f n).All P (Ordinary A))
    (files : ∀ disposer, P (.effect f disposer)) :
    Keeps I (Ordinary A) D (applyPlugin code call f) := by
  unfold applyPlugin
  refine keeps_bind keeps_get fun r => keeps_bind (keeps_callback h _ (applies _)) fun result => ?_
  cases result with
  | none => exact keeps_pure ()
  | some disposer =>
      refine keeps_bind (triple_pre (fun r given => ?_) (keeps_addEffect h f (.callback disposer)))
        fun _ => keeps_pure ()
      exact h.tidy.offered r f disposer (files disposer) given

theorem keeps_perform (h : Closed code call P A I U D)
    (disposes : ∀ f, Keeps I (Bare A) D (dispose code call f))
    (settles : Keeps I (Ordinary A) D (settle call)) (o : Op) (driven : P o) :
    Keeps I (Raises A (.op o)) D (perform code call o) := by
  cases o with
  | mount declaration entryId isolated parent realm =>
      exact keeps_mount h.tidy declaration entryId isolated parent realm (Or.inl driven)
  | plugin declaration entryId isolated parent realm =>
      refine keeps_bind (keeps_mount h.tidy declaration entryId isolated (some parent) (some realm)
        (Or.inr ⟨parent, realm, rfl, rfl, driven⟩)) fun child =>
        keeps_bind (keeps_settle h) fun _ => keeps_pure child
  | provide f name realm wellShaped => exact keeps_provide h f name realm wellShaped driven
  | effect f disposer =>
      refine triple_pre (fun r given => ?_) (keeps_addEffect h f (.callback disposer))
      exact h.tidy.offered r f disposer driven given
  | callDisposer f id => exact keeps_bind (keeps_callDisposer h f id) fun _ => keeps_pure 0
  | on f event listener order => exact absurd driven (h.silent f event listener order)
  | isolate =>
      refine keeps_bind keeps_get fun r => keeps_bind (keeps_modify fun r' given => ?_) fun _ =>
        keeps_pure _
      exact h.tidy.recorded r' _ _ _ _ _ given
  | restart f => exact keeps_bind (keeps_restart h f) fun _ => keeps_pure 0
  | dispose f => exact keeps_bind (disposes f) fun _ => keeps_pure 0
  | settle => exact keeps_bind settles fun _ => keeps_pure 0

theorem keeps_step (h : Closed code call P A I U D)
    (disposes : ∀ f, Keeps I (Bare A) D (dispose code call f))
    (settles : Keeps I (Ordinary A) D (settle call)) (c : Call) (within : Within P A c) :
    Triple I (step code call c) (fun _ => After I c)
      (fun error r => After I c r ∧ Raises A c error) D := by
  cases c with
  | op o => exact keeps_perform h disposes settles o within
  | settleLoop rounds => exact absurd within id
  | unwindLoop f failures abort =>
      exact triple_bind (keeps_unwindLoop h f failures abort within) fun _ =>
        triple_pure 0 fun _ given => given

end Invariants

/-! ### Two assertions at once -/

section Both

variable {code : Code} {call : Call → M Nat} {P : Op → Prop} {A : Prop} {I J D : Root → Prop}
  {U V : Nat → Undo → Root → Prop}

theorem tidy_and (first : Tidy P I U) (second : Tidy P J V) :
    Tidy P (fun r => I r ∧ J r) fun f undo r => U f undo r ∧ V f undo r where
  deaf := fun r given => first.deaf r given.1
  recorded := fun r calls realms errors reporting undoLog given =>
    ⟨first.recorded r calls realms errors reporting undoLog given.1,
      second.recorded r calls realms errors reporting undoLog given.2⟩
  enqueued := fun r f given => ⟨first.enqueued r f given.1, second.enqueued r f given.2⟩
  flagged := fun r f unwinding given =>
    ⟨first.flagged r f unwinding given.1, second.flagged r f unwinding given.2⟩
  cleared := fun r f given => ⟨first.cleared r f given.1, second.cleared r f given.2⟩
  noted := fun r f undo change held =>
    ⟨first.noted r f undo change held.1, second.noted r f undo change held.2⟩
  offered := fun r f disposer driven given =>
    ⟨first.offered r f disposer driven given.1, second.offered r f disposer driven given.2⟩
  filed := fun r f undo held still =>
    ⟨first.filed r f undo held.1 still, second.filed r f undo held.2 still⟩
  popped := fun r f effect before after given split =>
    ⟨first.popped r f effect before after given.1 split,
      second.popped r f effect before after given.2 split⟩
  called := fun r f disposer held => ⟨first.called r f disposer held.1, second.called r f disposer held.2⟩
  gone := fun r f owner name serial held stale =>
    ⟨first.gone r f owner name serial held.1 stale, second.gone r f owner name serial held.2 stale⟩
  withdrawn := fun r f owner name serial held current =>
    ⟨first.withdrawn r f owner name serial held.1 current,
      second.withdrawn r f owner name serial held.2 current⟩
  unlistened := fun r f sequence held =>
    ⟨first.unlistened r f sequence held.1, second.unlistened r f sequence held.2⟩
  registered := fun r f name realm wellShaped driven given loaded free =>
    ⟨first.registered r f name realm wellShaped driven given.1 loaded free,
      second.registered r f name realm wellShaped driven given.2 loaded free⟩
  mounted := fun r declaration entryId isolated parent realm given mounts fresh =>
    ⟨first.mounted r declaration entryId isolated parent realm given.1 mounts fresh,
      second.mounted r declaration entryId isolated parent realm given.2 mounts fresh⟩

theorem closed_and (first : Closed code call P A I U D)
    (second : Closed code call P A J V fun _ => True) :
    Closed code call P A (fun r => I r ∧ J r) (fun f undo r => U f undo r ∧ V f undo r) D where
  tidy := tidy_and first.tidy second.tidy
  calls := fun c within => by
    refine triple_conseq (triple_and (first.calls c within) (second.calls c within))
      (fun _ given => given) ?_ ?_
    · rintro value r ⟨left, right⟩
      cases c <;> first | exact ⟨left, right⟩ | exact ⟨⟨left.1, right.1⟩, left.2⟩
    · rintro error r ⟨⟨left, raised⟩, right, -⟩
      cases c <;> first | exact ⟨⟨left, right⟩, raised⟩ | exact ⟨⟨⟨left.1, right.1⟩, left.2⟩, raised⟩
  settles := fun f name provides undo => triple_conseq
    (triple_and (first.settles f name provides undo) (second.settles f name provides undo)) (fun _ given => given) (fun _ _ given => given)
    fun _ _ given => ⟨⟨given.1.1, given.2.1⟩, given.1.2⟩
  disposers := first.disposers
  settle := first.settle
  dispose := first.dispose
  silent := first.silent

end Both

/-! ### While the loop of `settle` runs

No fiber is refreshed then, whatever the code that is called does. -/

structure Frozen (P : Op → Prop) (I : Root → Prop) (U : Nat → Undo → Root → Prop) : Prop
    extends Tidy P I U where
  settling : ∀ r, I r → r.settling = true
  busy : ∀ r f undo, U f undo r → r.settling = true
  transits : ∀ r f state, state ≠ .active → I r → I (r.recordTransition f state)
  orphaned : ∀ r p f, I r →
    I (r.update p fun fiber => { fiber with children := fiber.children.erase f })
  forget : ∀ r f, I r → I (r.forget f)
  stack : ∀ r disposeStack, I r → I { r with disposeStack }

section Frozen

variable {code : Code} {P : Op → Prop} {A : Prop} {I D : Root → Prop}
  {U : Nat → Undo → Root → Prop}

theorem frozen_disposed {call : Call → M Nat} (frozen : Frozen P I U) (f : Nat) (R : Exc → Prop) :
    Keeps I R D (disposed code call f) := by
  unfold disposed
  refine keeps_bind (keeps_modify fun r given => ?_) fun _ => ?_
  · cases (r.fiber f).parent with
    | none => exact given
    | some p => exact frozen.orphaned r p f given
  refine keeps_bind (keeps_transition frozen.deaf f _ (fun r => frozen.transits r f _ (by decide)) _)
    fun _ => ?_
  exact keeps_modify fun r given => frozen.stack _ _ (frozen.forget r f given)

theorem frozen_dispose {call : Call → M Nat} (h : Closed code call P A I U D)
    (frozen : Frozen P I U) (f : Nat) : Keeps I (Bare A) D (dispose code call f) := by
  unfold dispose
  refine keeps_bind keeps_get fun r => keeps_ite (fun _ => keeps_pure ()) fun _ => ?_
  refine keeps_bind (keeps_modify fun r' given => frozen.stack r' _ given) fun _ => ?_
  refine keeps_andFinally (keeps_ite (fun _ => ?_) fun _ => ?_) (frozen_disposed frozen f _)
  · exact keeps_unload h f fun r state passive given => frozen.transits r f state passive given
  · exact triple_post (keeps_discardEffects h f) (fun _ _ given => given.1)
      fun _ _ raised => ⟨raised.1.1, raised.2⟩

/-- A settle inside the settle loop returns at once. -/
theorem settle_nested {call : Call → M Nat} {J : Root → Prop} {E : Exc → Root → Prop}
    (settling : ∀ r, J r → r.settling = true) :
    Triple J (settle call) (fun _ => J) E D := by
  unfold settle
  refine triple_get_bind fun r given => ?_
  rw [if_pos (settling r given)]
  exact triple_pure () fun s same => same ▸ given

theorem exec_settle_nested {J : Root → Prop} {E : Exc → Root → Prop} (fuel : Nat)
    (settling : ∀ r, J r → r.settling = true) (diverged : ∀ r, J r → D r) :
    Triple J (exec code fuel (.op .settle)) (fun _ => J) E D := by
  cases fuel with
  | zero => exact fun r given => diverged r given
  | succ fuel =>
      exact triple_bind (settle_nested settling) fun _ => triple_pure 0 fun r given => given

/-- What is frozen stays so through every call the code can make. -/
theorem frozen_exec (frozen : Frozen P I U)
    (disposers : ∀ cb f n, (code.disposer cb f n).All P (Ordinary A)) (settle : P .settle)
    (dispose : ∀ f, P (.dispose f))
    (silent : ∀ f event listener order, ¬ P (.on f event listener order))
    (diverged : ∀ r, I r → D r) (divergedU : ∀ f undo r, U f undo r → D r) (fuel : Nat) :
    Closed code (exec code fuel) P A I U D := by
  have settles (fuel : Nat) (f : Nat) (undo : Undo) : Triple (U f undo)
      (exec code fuel (.op .settle)) (fun _ => U f undo) (fun error r => I r ∧ Ordinary A error) D :=
    exec_settle_nested fuel (fun r => frozen.busy r f undo) (divergedU f undo)
  induction fuel with
  | zero =>
      exact ⟨frozen.toTidy, fun c _ r given => diverged r given, fun f _ _ => settles 0 f, disposers, settle,
        dispose, silent⟩
  | succ fuel ih =>
      refine ⟨frozen.toTidy, fun c within => ?_, fun f _ _ => settles (fuel + 1) f, disposers, settle, dispose,
        silent⟩
      exact keeps_step ih (frozen_dispose ih frozen) (settle_nested frozen.settling) c within

end Frozen

end AtrexAgent.Core
