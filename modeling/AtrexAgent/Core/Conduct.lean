import AtrexAgent.Core.Stable
import AtrexAgent.Core.Watch

/-! What code that is called may do to a root on whose bus listeners are: what the
procedures preserve that are no lifecycle transition of their own, when every callback may
perform every operation that meets a condition. -/

namespace AtrexAgent.Core

open AtrexAgent.Computation
open AtrexAgent.Computation.Comp

/-- What the steps of the procedures do to an assertion `I`. A call `c` is only made in a
root with `G c`; `U f undo` stands for `I` while `f` has the effect `undo` in hand. -/
structure Upkeep (G : Call → Root → Prop) (I : Root → Prop) (U : Nat → Undo → Root → Prop) :
    Prop where
  recorded : ∀ r calls realms errors reporting undoLog, I r →
    I { r with calls, realms, errors, reporting, undoLog }
  enqueued : ∀ r f, I r →
    I ((r.update f fun fiber => { fiber with restartRequested := true }).enqueue f)
  flagged : ∀ r f unwinding, I r → I (r.update f fun fiber => { fiber with unwinding })
  cleared : ∀ r f, I r → I (r.update f fun fiber => { fiber with provided := [] })
  noted : ∀ r f undo (change : List String → List String), U f undo r →
    U f undo (r.update f fun fiber => { fiber with provided := change fiber.provided })
  offered : ∀ r f disposer, G (.op (.effect f disposer)) r → I r → U f (.callback disposer) r
  muted : ∀ r f event listener order, G (.op (.on f event listener order)) r → I r →
    U f (.unlisten 0) r
  listened : ∀ r f event listener order, G (.op (.on f event listener order)) r → I r →
    U f (.unlisten (r.listenerSequence + 1)) { r with
      listenerSequence := r.listenerSequence + 1
      listeners := r.listeners ++ [⟨f, event, listener, order, r.listenerSequence + 1⟩] }
  filed : ∀ r f undo, U f undo r → (r.fiber f).unwinding = false → I (r.filed f undo)
  popped : ∀ r f effect before after, I r → (r.fiber f).effects = before ++ effect :: after →
    U f effect.undo (r.update f fun fiber => { fiber with effects := before ++ after })
  called : ∀ r f disposer, U f (.callback disposer) r → I r
  gone : ∀ r f owner name serial, U f (.withdraw owner name serial) r →
    r.registered owner name serial = false → I r
  withdrawn : ∀ r f owner name serial, U f (.withdraw owner name serial) r →
    r.registered owner name serial = true → I ((r.unregister owner name).wake name)
  unlistened : ∀ r f sequence, U f (.unlisten sequence) r →
    I { r with listeners := r.listeners.filter (·.sequence ≠ sequence) }
  registered : ∀ r f name realm wellShaped, G (.op (.provide f name realm wellShaped)) r → I r →
    (r.fiber f).state = .loading ∨ (r.fiber f).state = .active →
    r.impls ((realm.getD (r.fiber f).realm).ownerOf name) name = none →
    U f (.withdraw ((realm.getD (r.fiber f).realm).ownerOf name) name (r.serial + 1))
      ((r.register ((realm.getD (r.fiber f).realm).ownerOf name) name f).wake name)
  mounted : ∀ r declaration entryId isolated parent realm, I r →
    Mounts (fun o => G (.op o) r) declaration entryId isolated parent realm →
    (∀ u ∈ r.fibers, (r.fiber u).entryId ≠ entryId) →
    I (r.mounted declaration entryId isolated parent realm)

def Exc.Bare (error : Exc) : Prop := error.isException = false

/-- Disposing contains every `Exception`; an unwind turns them into one. -/
def Kind : Call → Exc → Prop
  | .op (.dispose _), error => error.Bare
  | .unwindLoop _ _ _, error => (∃ failures, error = .disposalErrors failures) ∨ error.Bare
  | _, _ => True

/-- The loop of `settle` is only entered from `settle`. -/
def Reached : Call → Prop
  | .settleLoop _ => False
  | .unwindLoop _ _ abort => ∀ error, abort = some error → error.Bare
  | .op _ => True

/-- Whether a bare `BaseException` that a call raises has come out of a disposal. -/
def Torn : Call → Prop
  | .op (.dispose _) => True
  | .unwindLoop _ _ _ => True
  | _ => False

/-- How a call ends that raises: where it comes out of a disposal that was aborted, `J`
holds. -/
def Raised (I J : Root → Prop) (c : Call) (error : Exc) (r : Root) : Prop :=
  After I c r ∧ Kind c error ∧ (error.Bare → Torn c → J r)

def Anywhere : Root → Prop := fun _ => True

/-- The calls that code makes keep `I`; what is known after an aborted disposal is `J`. -/
structure Conduct (code : Code) (call : Call → M Nat) (G : Call → Root → Prop)
    (I J : Root → Prop) (U : Nat → Undo → Root → Prop) : Prop where
  upkeep : Upkeep G I U
  calls : ∀ c, Reached c → Triple I (call c) (fun _ => After I c) (Raised I J c) Anywhere
  settles : ∀ f undo, Triple (U f undo) (call (.op .settle)) (fun _ => U f undo) (fun _ => I) Anywhere
  listeners : ∀ cb f n, (code.listener cb f n).All (fun _ => True) fun error => error.isException = true

section Rules

variable {code : Code} {call : Call → M Nat} {G : Call → Root → Prop} {I J I' J' : Root → Prop}
  {U V U' V' : Nat → Undo → Root → Prop}

theorem conduct_op (h : Conduct code call G I J U) (o : Op) :
    Keeps I (fun _ => True) Anywhere (call (.op o)) :=
  triple_post (h.calls (.op o) trivial) (fun _ _ given => given) fun _ _ given => ⟨given.1, trivial⟩

theorem conduct_runProg (h : Conduct code call G I J U) (program : Prog) (R : Exc → Prop)
    (within : program.All (fun _ => True) R) : Keeps I R Anywhere (runProg call program) := by
  induction program with
  | ret disposer => exact keeps_pure disposer
  | raise error => exact keeps_raise error within
  | op o next ih =>
      unfold runProg
      refine keeps_attempt_bind (conduct_op h o) ?_ ?_
      · exact fun value => ih (.ok value) (within.2 (.ok value))
      · exact fun error _ => ih (.error error) (within.2 (.error error))

theorem all_true (program : Prog) : program.All (fun _ => True) fun _ => True := by
  induction program with
  | ret disposer => trivial
  | raise error => trivial
  | op o next ih => exact ⟨trivial, ih⟩

theorem conduct_callback (h : Conduct code call G I J U) (body : Nat → Prog) (R : Exc → Prop)
    (within : ∀ n, (body n).All (fun _ => True) R) : Keeps I R Anywhere (callback call body) := by
  unfold callback
  refine keeps_bind keeps_get fun r => keeps_bind (keeps_modify fun r' given => ?_) fun _ => ?_
  · exact h.upkeep.recorded r' _ _ _ _ _ given
  · exact conduct_runProg h _ _ (within r.calls)

/-! ### Emissions -/

/-- A listener of the bus ends in no bare `BaseException`, so an emission raises nothing. -/
theorem conduct_emitTo (h : Conduct code call G I J U) {handle : Exc → M Unit}
    (handles : ∀ error, Keeps I (fun _ => False) Anywhere (handle error)) (listeners : List Listener) :
    Keeps I (fun _ => False) Anywhere (emitTo code call handle listeners) := by
  induction listeners with
  | nil => exact keeps_pure ()
  | cons listener rest ih =>
      refine keeps_bind ?_ fun _ => ih
      unfold deliver
      refine keeps_bind keeps_get fun r => keeps_ite (fun _ => ?_) fun _ => keeps_pure ()
      refine keeps_attempt_bind (conduct_callback h _ _ (h.listeners _ _)) (fun _ => keeps_pure ()) ?_
      intro error exception
      exact keeps_ite (fun _ => handles error) fun bare => absurd exception bare

theorem conduct_emit (h : Conduct code call G I J U) {handle : Exc → M Unit}
    (handles : ∀ error, Keeps I (fun _ => False) Anywhere (handle error)) (event : BusEvent) :
    Keeps I (fun _ => False) Anywhere (emit code call handle event) := by
  unfold emit
  exact keeps_bind keeps_get fun r => keeps_ite (fun _ => keeps_pure ()) fun _ =>
    conduct_emitTo h handles _

theorem conduct_recordError (h : Conduct code call G I J U) (error : Exc) :
    Keeps I (fun _ => False) Anywhere (recordError error) :=
  keeps_modify fun r given => h.upkeep.recorded r _ _ _ _ _ given

theorem conduct_report (h : Conduct code call G I J U) (error : Exc) :
    Keeps I (fun _ => False) Anywhere (report code call error) := by
  unfold report
  refine keeps_bind (conduct_recordError h error) fun _ => keeps_bind keeps_get fun r =>
    keeps_ite (fun _ => keeps_pure ()) fun _ => ?_
  refine keeps_bind (keeps_modify fun r given => h.upkeep.recorded r _ _ _ _ _ given) fun _ => ?_
  exact keeps_andFinally (conduct_emit h (conduct_recordError h) _)
    (keeps_modify fun r given => h.upkeep.recorded r _ _ _ _ _ given)

/-- A transition leaves what holds after its one change, whoever is told of it. -/
theorem conduct_transition (h : Conduct code call G I J U) (f : Nat) (state : FiberState)
    {P : Root → Prop} (enters : ∀ r, P r → I (r.recordTransition f state)) :
    Triple P (transition code call f state) (fun _ => I) (fun _ _ => False) Anywhere := by
  unfold transition
  refine triple_bind (Q := fun _ => I) (triple_modify _ enters) fun _ => ?_
  exact triple_post (conduct_emit h (conduct_report h) _) (fun _ _ given => given)
    fun _ _ given => given.2

theorem conduct_fail (h : Conduct code call G I J U) (f : Nat) (error : Exc) {P : Root → Prop}
    (enters : ∀ r, P r → I ((r.update f fun fiber =>
      { fiber with error := some error, epoch := none }).recordTransition f .failed)) :
    Triple P (fail code call f error) (fun _ => I) (fun _ _ => False) Anywhere := by
  unfold fail
  refine triple_bind (Q := fun _ r' => ∃ r, P r ∧ r' = r.update f fun fiber =>
    { fiber with error := some error, epoch := none }) (triple_modify _ fun r given => ⟨r, given, rfl⟩)
    fun _ => ?_
  refine triple_bind (conduct_transition h f .failed ?_) fun _ => ?_
  · rintro _ ⟨r, given, rfl⟩
    exact enters r given
  · exact triple_post (conduct_report h error) (fun _ _ given => given) fun _ _ given => given.2

/-! ### Effects and services -/

theorem conduct_runUndo (h : Conduct code call G I J U) (f : Nat) (undo : Undo) :
    Triple (U f undo) (runUndo code call f undo) (fun _ => I) (fun _ => I) Anywhere := by
  cases undo with
  | callback disposer =>
      refine triple_bind (Q := fun _ => I) (triple_modify _ fun r given => ?_) fun _ =>
        triple_bind (triple_post (conduct_callback h _ _ fun n => all_true _) (fun _ _ given => given)
          fun _ _ given => given.1) fun _ => triple_pure () fun _ given => given
      exact h.upkeep.recorded r _ _ _ _ _ (h.upkeep.called r f disposer given)
  | withdraw owner name serial =>
      refine triple_bind (Q := fun _ => U f (.withdraw owner name serial))
        (triple_modify _ fun r given => h.upkeep.noted r f _ _ given) fun _ => ?_
      refine triple_get_bind fun r given => triple_ite (fun current => ?_) fun stale => ?_
      · refine triple_pre (P := fun s => s = r) (fun s same => same) (triple_notify name _ ?_
          (triple_post (conduct_op h .settle) (fun _ _ given => given) fun _ _ given => given.1))
        rintro s rfl
        exact h.upkeep.withdrawn s f owner name serial given current
      · refine triple_pure () fun s same => same ▸ ?_
        exact h.upkeep.gone r f owner name serial given (by simpa using stale)
  | unlisten sequence => exact triple_modify _ fun r given => h.upkeep.unlistened r f sequence given

theorem conduct_addEffect (h : Conduct code call G I J U) (f : Nat) (undo : Undo) :
    Triple (U f undo) (addEffect code call f undo) (fun _ => I) (fun _ => I) Anywhere := by
  unfold addEffect
  refine triple_get_bind fun r given => triple_ite (fun _ => ?_) fun still => ?_
  · exact triple_bind (triple_pre (fun s same => same ▸ given) (conduct_runUndo h f undo)) fun _ =>
      triple_pure 0 fun _ given => given
  · refine triple_bind (Q := fun _ => I) (triple_modify _ ?_) fun _ => triple_pure _ fun _ given => given
    rintro s rfl
    exact h.upkeep.filed s f undo given (by simpa using still)

theorem effects_erased (r : Root) (f id : Nat) (effect : Effect)
    (found : (r.fiber f).effects.find? (·.id = id) = some effect) :
    ∃ before after, (r.fiber f).effects = before ++ effect :: after ∧
      (r.update f fun fiber => { fiber with effects := fiber.effects.eraseP (·.id = id) }) =
        r.update f fun fiber => { fiber with effects := before ++ after } := by
  obtain ⟨same, before, after, split, earlier⟩ := List.find?_eq_some_iff_append.mp found
  have erased : (r.fiber f).effects.eraseP (·.id = id) = before ++ after := by
    rw [split, List.eraseP_append_right _ (by simpa using earlier)]
    exact congrArg (before ++ ·) (List.eraseP_cons_of_pos same)
  refine ⟨before, after, split, ?_⟩
  unfold Root.update
  congr 1
  funext u
  by_cases self : u = f
  · subst self
    simp only [if_true, erased]
  · simp only [if_neg self]

theorem conduct_callDisposer (h : Conduct code call G I J U) (f id : Nat) :
    Triple I (callDisposer code call f id) (fun _ => I) (fun _ => I) Anywhere := by
  unfold callDisposer
  refine triple_get_bind fun r given => ?_
  cases found : (r.fiber f).effects.find? (·.id = id) with
  | none => exact triple_pure () fun s same => same ▸ given
  | some effect =>
      obtain ⟨before, after, split, same⟩ := effects_erased r f id effect found
      refine triple_bind (Q := fun _ => U f effect.undo) (triple_modify _ ?_) fun _ =>
        conduct_runUndo h f effect.undo
      rintro s rfl
      rw [same]
      exact h.upkeep.popped s f effect before after given split

/-- One turn of an unwind. An abort that is kept from before has left `J`. -/
theorem conduct_unwindLoop (h : Conduct code call G I J U) (f failures : Nat) (abort : Option Exc)
    (bare : ∀ error, abort = some error → error.Bare) (late : abort ≠ none → ∀ r, I r → J r) :
    Triple I (unwindLoop code call f failures abort) (fun _ => After I (.unwindLoop f failures abort))
      (Raised I J (.unwindLoop f failures abort)) Anywhere := by
  have again (failures' : Nat) (abort' : Option Exc)
      (bare' : ∀ error, abort' = some error → error.Bare) :
      Triple I (call (.unwindLoop f failures' abort') >>= fun _ => pure ())
        (fun _ => After I (.unwindLoop f failures abort))
        (Raised I J (.unwindLoop f failures abort)) Anywhere :=
    triple_bind (h.calls (.unwindLoop f failures' abort') bare') fun _ =>
      triple_pure () fun _ given => given
  unfold unwindLoop
  refine triple_get_bind fun r given => ?_
  cases stack : (r.fiber f).effects with
  | cons effect rest =>
      refine triple_bind (Q := fun _ => U f effect.undo) (triple_modify _ ?_) fun _ => ?_
      · rintro s rfl
        exact h.upkeep.popped s f effect [] rest given stack
      refine triple_bind (Q := fun _ => I) (triple_attempt (conduct_runUndo h f effect.undo))
        fun result => ?_
      cases result with
      | ok _ => exact again failures abort bare
      | error error =>
          refine triple_ite (fun _ => again _ abort bare) fun aborts => again failures _ ?_
          intro error' first
          cases abort with
          | some old => cases first; exact bare _ rfl
          | none =>
              cases first
              exact Bool.eq_false_of_not_eq_true aborts
  | nil =>
      refine triple_bind (Q := fun _ => After I (.unwindLoop f failures abort))
        (triple_modify _ ?_) fun _ => ?_
      · rintro s rfl
        exact ⟨h.upkeep.flagged s f false given, by rw [Root.update_self]; exact stack⟩
      cases abort with
      | some error =>
          exact triple_raise error fun s given => ⟨given, Or.inr (bare error rfl), fun _ _ =>
            late (by simp) s given.1⟩
      | none =>
          refine triple_ite (fun _ => triple_pure () fun s given => given) fun _ => ?_
          exact triple_raise _ fun s given =>
            ⟨given, Or.inl ⟨failures, rfl⟩, fun aborted => by cases aborted⟩

theorem conduct_unwind (h : Conduct code call G I J U) (f : Nat) :
    Triple I (unwind call f) (fun _ r => I r ∧ (r.fiber f).effects = [])
      (Raised I J (.unwindLoop f 0 none)) Anywhere := by
  unfold unwind
  refine triple_bind (Q := fun _ => I) (triple_modify _ fun r given => h.upkeep.flagged r f true given)
    fun _ => triple_bind (h.calls (.unwindLoop f 0 none) fun error none => by cases none) fun _ =>
    triple_pure () fun _ given => given

theorem conduct_provide (h : Conduct code call G I J U) (f : Nat) (name : String)
    (realm : Option Realm) (wellShaped : Bool) :
    Triple (fun r => I r ∧ G (.op (.provide f name realm wellShaped)) r)
      (provide code call f name realm wellShaped) (fun _ => I) (fun _ => I) Anywhere := by
  unfold provide
  refine triple_get_bind fun r given => ?_
  have raises (error : Exc) : Triple (fun s => s = r) (raise error : M Nat) (fun _ => I)
      (fun _ => I) Anywhere := triple_raise error fun s same => same ▸ given.1
  refine triple_ite (fun _ => raises _) fun loaded => ?_
  have loaded : (r.fiber f).state = .loading ∨ (r.fiber f).state = .active := by
    by_contra neither
    exact loaded (not_or.mp neither)
  cases free : r.impls ((realm.getD (r.fiber f).realm).ownerOf name) name with
  | some existing => simp only [free]; exact raises _
  | none =>
      simp only [free]
      refine triple_ite (fun _ => ?_) fun _ => raises _
      refine triple_bind (triple_notify name _ (J := fun s => s = r) ?_ (h.settles f
        (.withdraw ((realm.getD (r.fiber f).realm).ownerOf name) name (r.serial + 1)))) fun _ => ?_
      · rintro s rfl
        exact h.upkeep.registered s f name realm wellShaped given.2 given.1 loaded free
      exact triple_bind (triple_modify _ fun s held => h.upkeep.noted s f _
        (fun provided => name :: provided.filter (· ≠ name)) held) fun _ => conduct_addEffect h f _

theorem conduct_on (h : Conduct code call G I J U) (f : Nat) (event : BusEvent) (listener : Nat)
    (order : Int) : Triple (fun r => I r ∧ G (.op (.on f event listener order)) r)
      (on code call f event listener order) (fun _ => I) (fun _ => I) Anywhere := by
  unfold on
  refine triple_get_bind fun r given => triple_ite (fun _ => ?_) fun _ => ?_
  · refine triple_pre (fun s same => ?_) (conduct_addEffect h f (.unlisten 0))
    rw [same]
    exact h.upkeep.muted r f event listener order given.2 given.1
  · refine triple_bind (Q := fun _ => U f (.unlisten (r.listenerSequence + 1))) (triple_modify _ ?_)
      fun _ => conduct_addEffect h f _
    rintro s rfl
    exact h.upkeep.listened s f event listener order given.2 given.1

theorem conduct_restart (h : Conduct code call G I J U) (f : Nat) :
    Triple I (restart call f) (fun _ => I) (fun _ => I) Anywhere := by
  unfold restart
  refine triple_get_bind fun r given => triple_ite (fun _ => ?_) fun _ => ?_
  · exact triple_pure () fun s same => same ▸ given
  · refine triple_bind (Q := fun _ => I) (triple_modify _ ?_) fun _ => triple_ite (fun _ => ?_)
      fun _ => triple_pure () fun _ given => given
    · rintro s rfl
      exact h.upkeep.enqueued s f given
    · exact triple_bind (triple_post (conduct_op h .settle) (fun _ _ given => given)
        fun _ _ given => given.1) fun _ => triple_pure () fun _ given => given

theorem conduct_mount (h : Conduct code call G I J U) (declaration : Declaration) (entryId : String)
    (isolated : List String) (parent : Option Nat) (realm : Option Realm) :
    Triple (fun r => I r ∧ Mounts (fun o => G (.op o) r) declaration entryId isolated parent realm)
      (mount declaration entryId isolated parent realm) (fun _ => I) (fun _ => I) Anywhere := by
  unfold mount
  refine triple_get_bind fun r given => triple_ite (fun _ => ?_) fun fresh => ?_
  · exact triple_raise _ fun s same => same ▸ given.1
  · refine triple_bind (Q := fun _ => I) (triple_modify _ ?_) fun _ => triple_pure _ fun _ given => given
    rintro s rfl
    refine h.upkeep.mounted _ _ _ _ _ _ given.1 given.2 fun u member same => fresh ?_
    exact List.any_eq_true.mpr ⟨u, member, by simpa using same⟩

/-! ### Discarding the effects of a load -/

/-- After a disposal was aborted, the other children are disposed all the same. -/
theorem conduct_disposeRest (h : Conduct code call G J J V) (children : List Nat)
    (abort : Option Exc) (bare : ∀ error, abort = some error → error.Bare) (E : Exc → Root → Prop) :
    Triple J (disposeAll call children abort)
      (fun abort' r => J r ∧ ∀ error, abort' = some error → error.Bare) E Anywhere := by
  induction children generalizing abort with
  | nil => exact triple_pure abort fun r given => ⟨given, bare⟩
  | cons child rest ih =>
      unfold disposeAll
      refine triple_bind (Q := fun result r => J r ∧ ∀ error, result = .error error → error.Bare)
        ?_ fun result => ?_
      · refine triple_attempt (triple_post (h.calls (.op (.dispose child)) trivial) ?_ ?_)
        · exact fun value r given => ⟨given, fun error wrong => by cases wrong⟩
        · exact fun error r given => ⟨given.1, fun error' same => by cases same; exact given.2.1⟩
      refine triple_state fun r given => triple_pre (fun s same => same ▸ given.1) ?_
      cases result with
      | ok _ => exact ih abort bare
      | error error =>
          refine ih _ fun error' first => ?_
          cases abort with
          | some old => cases first; exact bare _ rfl
          | none => cases first; exact given.2 _ rfl

theorem conduct_disposeAll (h : Conduct code call G I J U) (late : Conduct code call G J J V)
    (weaker : ∀ r, J r → I r) (children : List Nat) (E : Exc → Root → Prop) :
    Triple I (disposeAll call children none)
      (fun abort r => I r ∧ ∀ error, abort = some error → error.Bare ∧ J r) E Anywhere := by
  induction children with
  | nil => exact triple_pure none fun r given => ⟨given, fun error wrong => by cases wrong⟩
  | cons child rest ih =>
      unfold disposeAll
      refine triple_bind (Q := fun result r => I r ∧
        ∀ error, result = .error error → error.Bare ∧ J r) ?_ fun result => ?_
      · refine triple_attempt (triple_post (h.calls (.op (.dispose child)) trivial) ?_ ?_)
        · exact fun value r given => ⟨given, fun error wrong => by cases wrong⟩
        · exact fun error r given => ⟨given.1, fun error' same => by
            cases same
            exact ⟨given.2.1, given.2.2 given.2.1 trivial⟩⟩
      refine triple_state fun r given => ?_
      cases result with
      | ok _ => exact triple_pre (fun s same => same ▸ given.1) ih
      | error error =>
          obtain ⟨bare, after⟩ := given.2 error rfl
          have rest := conduct_disposeRest late rest (none <|> some error)
            (fun error' first => by cases first; exact bare) E
          exact triple_conseq rest (fun s same => same ▸ after)
            (fun abort s kept => ⟨weaker s kept.1, fun error' same => ⟨kept.2 error' same, kept.1⟩⟩)
            fun _ _ raised => raised

/-- Whether it returns or raises, discarding empties the stack; what holds then, also after
a report of what failed, is `I'`, and `J'` if a disposal was aborted. -/
theorem conduct_discardStack (h : Conduct code call G I J U) (after : Conduct code call G I' J' U')
    (last : Conduct code call G J' J' V') (f : Nat) (abort : Option Exc)
    (drained : ∀ r, I r → (r.fiber f).effects = [] → I' r)
    (drainedLate : ∀ r, J r → (r.fiber f).effects = [] → J' r) (weaker : ∀ r, J' r → I' r)
    (bare : ∀ error, abort = some error → error.Bare) (late : abort ≠ none → ∀ r, I r → J r) :
    Triple I (discardStack code call f abort) (fun _ => I')
      (fun error r => I' r ∧ error.Bare ∧ J' r) Anywhere := by
  unfold discardStack
  refine triple_bind (Q := fun _ => I) (triple_modify _ fun r given => h.upkeep.cleared r f given)
    fun _ => ?_
  refine triple_bind (Q := fun result r => (I r ∧ (r.fiber f).effects = []) ∧
    ∀ error, result = .error error → Raised I J (.unwindLoop f 0 none) error r) ?_ fun result => ?_
  · refine triple_attempt (triple_post (conduct_unwind h f) ?_ ?_)
    · exact fun value s given => ⟨given, fun error wrong => by cases wrong⟩
    · exact fun error s given => ⟨given.1, fun error' same => by cases same; exact given⟩
  have keeps (error : Exc) (aborts : abort = some error) (K : Root → Prop)
      (narrow : ∀ r, K r → J' r) : Triple K (raiseAbort abort : M Unit) (fun _ => I')
        (fun error r => I' r ∧ error.Bare ∧ J' r) Anywhere := by
    subst aborts
    exact triple_raise error fun s given =>
      ⟨weaker s (narrow s given), bare error rfl, narrow s given⟩
  refine triple_state fun r given => ?_
  have stands : I' r := drained r given.1.1 given.1.2
  cases result with
  | ok _ =>
      cases aborted : abort with
      | none => exact triple_pure () fun s same => same ▸ stands
      | some error =>
          rw [← aborted]
          refine keeps error aborted _ fun s same => ?_
          rw [same]
          exact drainedLate r (late (by simp [aborted]) r given.1.1) given.1.2
  | error error =>
      obtain ⟨-, kind, torn⟩ := given.2 error rfl
      rcases kind with ⟨failures, rfl⟩ | aborts
      · cases aborted : abort with
        | none =>
            refine triple_bind (triple_pre (fun s same => same ▸ stands) (triple_post
              (conduct_report after _) (fun _ _ given => given) fun _ _ wrong => wrong.2.elim))
              fun _ => triple_pure () fun _ given => given
        | some error =>
            rw [← aborted]
            have held : J' r := drainedLate r (late (by simp [aborted]) r given.1.1) given.1.2
            exact triple_bind (triple_pre (fun s same => same ▸ held) (triple_post
              (conduct_report last _) (fun _ _ given => given) fun _ _ wrong => wrong.2.elim))
              fun _ => keeps error aborted _ fun _ given => given
      · have held : J' r := drainedLate r (torn aborts trivial) given.1.2
        have raises (first : Exc) (bare' : first.Bare) : Triple (fun s => s = r)
            (raiseAbort (some first) : M Unit) (fun _ => I')
            (fun error r => I' r ∧ error.Bare ∧ J' r) Anywhere :=
          triple_raise first fun s same => same ▸ ⟨stands, bare', held⟩
        cases error with
        | abort tag =>
            cases aborted : abort with
            | none => exact raises _ aborts
            | some old => exact raises _ (bare old aborted)
        | _ => cases aborts

theorem conduct_discardEffects (h : Conduct code call G I J U) (late : Conduct code call G J J V)
    (after : Conduct code call G I' J' U') (last : Conduct code call G J' J' V') (f : Nat)
    (weaker : ∀ r, J r → I r) (drained : ∀ r, I r → (r.fiber f).effects = [] → I' r)
    (drainedLate : ∀ r, J r → (r.fiber f).effects = [] → J' r) (weaker' : ∀ r, J' r → I' r) :
    Triple I (discardEffects code call f) (fun _ => I')
      (fun error r => I' r ∧ error.Bare ∧ J' r) Anywhere := by
  unfold discardEffects
  refine triple_get_bind fun r given => triple_pre (fun s same => same ▸ given) ?_
  refine triple_bind (conduct_disposeAll h late weaker _ _) fun abort => ?_
  cases abort with
  | none =>
      exact triple_pre (fun s given => given.1) (conduct_discardStack h after last f none drained
        drainedLate weaker' (fun error wrong => by cases wrong) fun wrong => absurd rfl wrong)
  | some error =>
      refine triple_state fun r given => ?_
      obtain ⟨bare, held⟩ := given.2 error rfl
      refine triple_conseq (conduct_discardStack late last last f (some error) drainedLate drainedLate
        (fun _ given => given) (fun error' same => by cases same; exact bare) fun _ _ given => given)
        (fun s same => same ▸ held) (fun _ s given => weaker' s given)
        fun _ s raised => ⟨weaker' s raised.1, raised.2⟩

/-- An unload, from what holds before it to what its last transition leaves. -/
theorem conduct_unload {K L Q : Root → Prop} {W : Nat → Undo → Root → Prop}
    (h : Conduct code call G I J U) (late : Conduct code call G J J V)
    (after : Conduct code call G I' J' U') (last : Conduct code call G J' J' V')
    (leaving : Conduct code call G Q L W) (f : Nat)
    (weaker : ∀ r, J r → I r) (drained : ∀ r, I r → (r.fiber f).effects = [] → I' r)
    (drainedLate : ∀ r, J r → (r.fiber f).effects = [] → J' r) (weaker' : ∀ r, J' r → I' r)
    (enters : ∀ r, K r → I (r.recordTransition f .unloading))
    (leaves : ∀ r, I' r → Q (r.recordTransition f .pending)) :
    Triple K (unload code call f) (fun _ => Q) (fun error r => I' r ∧ error.Bare ∧ J' r) Anywhere := by
  unfold unload
  refine triple_bind (triple_post (conduct_transition h f .unloading enters) (fun _ _ given => given)
    fun _ _ wrong => wrong.elim) fun _ => ?_
  refine triple_bind (conduct_discardEffects h late after last f weaker drained drainedLate weaker')
    fun _ => ?_
  exact triple_post (conduct_transition leaving f .pending leaves) (fun _ _ given => given)
    fun _ _ wrong => wrong.elim

/-! ### Operations -/

/-- An operation keeps `I`, if disposing and settling do. -/
theorem conduct_perform (h : Conduct code call G I J U)
    (disposes : ∀ f, Triple (fun r => I r ∧ G (.op (.dispose f)) r) (dispose code call f)
      (fun _ => I) (Raised I J (.op (.dispose f))) Anywhere)
    (settles : Triple (fun r => I r ∧ G (.op .settle) r) (settle call) (fun _ => I) (fun _ => I)
      Anywhere) (o : Op) :
    Triple (fun r => I r ∧ G (.op o) r) (perform code call o) (fun _ => After I (.op o))
      (Raised I J (.op o)) Anywhere := by
  have returns {α : Type} (value : Nat) {P : Root → Prop} {body : M α}
      (run : Triple P body (fun _ => I) (fun _ => I) Anywhere) :
      Triple P (body >>= fun _ => pure value) (fun _ => I) (fun _ => I) Anywhere :=
    triple_bind run fun _ => triple_pure value fun _ given => given
  have others {P : Root → Prop} {body : M Nat} (run : Triple P body (fun _ => I) (fun _ => I) Anywhere)
      (kind : ∀ error, Kind (.op o) error) (whole : ¬ Torn (.op o)) :
      Triple P body (fun _ => After I (.op o)) (Raised I J (.op o)) Anywhere :=
    triple_post run (fun _ _ given => given) fun error _ given =>
      ⟨given, kind error, fun _ torn => absurd torn whole⟩
  cases o with
  | mount declaration entryId isolated parent realm =>
      refine others (triple_pre (fun r given => ⟨given.1, Or.inl given.2⟩)
        (conduct_mount h declaration entryId isolated parent realm)) (fun _ => trivial) id
  | plugin declaration entryId isolated parent realm =>
      refine others ?_ (fun _ => trivial) id
      refine triple_bind (triple_pre (fun r given => ⟨given.1, Or.inr
        ⟨parent, realm, rfl, rfl, given.2⟩⟩) (conduct_mount h declaration entryId isolated
          (some parent) (some realm))) fun child => ?_
      exact returns child (triple_post (conduct_op h .settle) (fun _ _ given => given)
        fun _ _ given => given.1)
  | provide f name realm wellShaped =>
      exact others (conduct_provide h f name realm wellShaped) (fun _ => trivial) id
  | effect f disposer =>
      refine others (triple_pre (fun r given => ?_) (conduct_addEffect h f (.callback disposer)))
        (fun _ => trivial) id
      exact h.upkeep.offered r f disposer given.2 given.1
  | callDisposer f effect =>
      exact others (returns 0 (triple_pre (fun r given => given.1) (conduct_callDisposer h f effect)))
        (fun _ => trivial) id
  | on f event listener order =>
      exact others (conduct_on h f event listener order) (fun _ => trivial) id
  | isolate =>
      refine others ?_ (fun _ => trivial) id
      refine triple_get_bind fun r given => triple_bind (Q := fun _ => I) (triple_modify _ ?_)
        fun _ => triple_pure _ fun _ given => given
      rintro s rfl
      exact h.upkeep.recorded s _ _ _ _ _ given.1
  | restart f =>
      exact others (returns 0 (triple_pre (fun r given => given.1) (conduct_restart h f)))
        (fun _ => trivial) id
  | dispose f =>
      exact triple_bind (disposes f) fun _ => triple_pure 0 fun _ given => given
  | settle => exact others (returns 0 settles) (fun _ => trivial) id

/-- The next level of nesting keeps `I`, if disposing and settling do. -/
theorem conduct_step (h : Conduct code call G I J U) (late : Conduct code call G J J V)
    (weaker : ∀ r, J r → I r)
    (aborted : ∀ f failures error r, G (.unwindLoop f failures (some error)) r → I r → J r)
    (disposes : ∀ f, Triple (fun r => I r ∧ G (.op (.dispose f)) r) (dispose code call f)
      (fun _ => I) (Raised I J (.op (.dispose f))) Anywhere)
    (settles : Triple (fun r => I r ∧ G (.op .settle) r) (settle call) (fun _ => I) (fun _ => I)
      Anywhere) (c : Call) (reached : Reached c) :
    Triple (fun r => I r ∧ G c r) (step code call c) (fun _ => After I c) (Raised I J c) Anywhere := by
  cases c with
  | op o => exact conduct_perform h disposes settles o
  | settleLoop rounds => exact reached.elim
  | unwindLoop f failures abort =>
      refine triple_bind ?_ fun _ => triple_pure 0 fun _ given => given
      cases abort with
      | none =>
          exact triple_pre (fun r given => given.1) (conduct_unwindLoop h f failures none reached
            fun wrong => absurd rfl wrong)
      | some error =>
          refine triple_conseq (conduct_unwindLoop late f failures (some error) reached
            fun _ _ given => given) (fun r given => aborted f failures error r given.2 given.1) ?_ ?_
          · exact fun _ r given => ⟨weaker r given.1, given.2⟩
          · exact fun _ r given => ⟨⟨weaker r given.1.1, given.1.2⟩, given.2⟩

end Rules

/-- A watched call is made in a root that meets what the condition asks of it. -/
theorem triple_watched {code : Code} {ok : Condition} {fuel : Nat} {c : Call} {P : Root → Prop}
    {Q : Nat → Root → Prop} {E : Exc → Root → Prop} (G : Call → Root → Prop)
    (asks : ∀ r outcome r', ok c r outcome r' = true → G c r)
    (run : Triple (fun r => P r ∧ G c r) (step code (execWatched code ok fuel) c) Q E Anywhere) :
    Triple P (execWatched code ok (fuel + 1) c) Q E Anywhere := by
  intro r given
  rw [execWatched]
  dsimp only
  by_cases meets : ok c r (step code (execWatched code ok fuel) c r).1
      (step code (execWatched code ok fuel) c r).2 = true
  · rw [if_pos meets]
    exact run r ⟨given, asks r _ _ meets⟩
  · rw [if_neg meets]
    trivial

end AtrexAgent.Core
