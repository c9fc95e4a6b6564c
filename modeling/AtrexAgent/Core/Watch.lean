import AtrexAgent.Core.Machine

/-! Runs every call of which meets a condition. A run that is watched stops at the first
call that does not; one that does not stop is the run itself. -/

namespace AtrexAgent.Core

open AtrexAgent.Computation
open AtrexAgent.Computation.Comp

/-- What is asked of a call: of the root it finds, of how it ends, and of what it leaves. -/
abbrev Condition := Call → Root → Outcome Exc Nat → Root → Bool

/-- `exec`, up to the first call that does not meet the condition. -/
def execWatched (code : Code) (ok : Condition) : Nat → Call → M Nat
  | 0, _ => diverge
  | fuel + 1, c => fun r =>
      let result := step code (execWatched code ok fuel) c r
      if ok c r result.1 result.2 then result else (.diverged, result.2)

def watch (code : Code) (ok : Condition) (fuel : Nat) (host : Prog) : M (Option Nat) :=
  runProg (execWatched code ok fuel) host

section Below

variable {code : Code} {call call' : Call → M Nat} (below : ∀ c, Below (call c) (call' c))

include below

theorem below_runProg (program : Prog) : Below (runProg call program) (runProg call' program) := by
  induction program with
  | ret disposer => exact below_refl _
  | raise error => exact below_refl _
  | op o next ih => exact below_bind (below_attempt (below (.op o))) ih

theorem below_callback (body : Nat → Prog) : Below (callback call body) (callback call' body) :=
  below_get_bind fun _ => below_modify_bind (below_runProg below _)

theorem below_deliver {handle handle' : Exc → M Unit} (handles : ∀ e, Below (handle e) (handle' e))
    (listener : Listener) :
    Below (deliver code call handle listener) (deliver code call' handle' listener) := by
  unfold deliver
  refine below_get_bind fun r => below_ite ?_ (below_refl _)
  refine below_bind (below_attempt (below_callback below _)) fun result => ?_
  cases result with
  | ok _ => exact below_refl _
  | error error => exact below_ite (handles error) (below_refl _)

theorem below_emitTo {handle handle' : Exc → M Unit} (handles : ∀ e, Below (handle e) (handle' e))
    (listeners : List Listener) :
    Below (emitTo code call handle listeners) (emitTo code call' handle' listeners) := by
  induction listeners with
  | nil => exact below_refl _
  | cons listener rest ih => exact below_bind (below_deliver below handles listener) fun _ => ih

theorem below_emit {handle handle' : Exc → M Unit} (handles : ∀ e, Below (handle e) (handle' e))
    (event : BusEvent) : Below (emit code call handle event) (emit code call' handle' event) :=
  below_get_bind fun _ => below_ite (below_refl _) (below_emitTo below handles _)

theorem below_report (error : Exc) : Below (report code call error) (report code call' error) := by
  unfold report
  refine below_bind (below_refl _) fun _ => below_get_bind fun r => below_ite (below_refl _) ?_
  exact below_modify_bind (below_andFinally (below_emit below (fun _ => below_refl _) _)
    (below_refl _))

theorem below_transition (f : Nat) (state : FiberState) :
    Below (transition code call f state) (transition code call' f state) :=
  below_modify_bind (below_emit below (below_report below) _)

theorem below_fail (f : Nat) (error : Exc) : Below (fail code call f error) (fail code call' f error) :=
  below_modify_bind (below_bind (below_transition below f _) fun _ => below_report below error)

theorem below_notify (name : String) (change : Root → Root) :
    Below (notify call name change) (notify call' name change) := by
  unfold notify
  refine below_modify_bind (below_get_bind fun r => below_ite ?_ (below_refl _))
  exact below_bind (below (.op .settle)) fun _ => below_refl _

theorem below_runUndo (f : Nat) (undo : Undo) :
    Below (runUndo code call f undo) (runUndo code call' f undo) := by
  cases undo with
  | callback disposer =>
      exact below_modify_bind (below_bind (below_callback below _) fun _ => below_refl _)
  | withdraw owner name serial =>
      exact below_modify_bind (below_get_bind fun r =>
        below_ite (below_notify below name _) (below_refl _))
  | unlisten sequence => exact below_refl _

theorem below_addEffect (f : Nat) (undo : Undo) :
    Below (addEffect code call f undo) (addEffect code call' f undo) := by
  unfold addEffect
  refine below_get_bind fun r => below_ite ?_ (below_refl _)
  exact below_bind (below_runUndo below f undo) fun _ => below_refl _

theorem below_callDisposer (f id : Nat) :
    Below (callDisposer code call f id) (callDisposer code call' f id) := by
  unfold callDisposer
  refine below_get_bind fun r => ?_
  cases (r.fiber f).effects.find? (·.id = id) with
  | none => exact below_refl _
  | some effect => exact below_modify_bind (below_runUndo below f _)

theorem below_unwindLoop (f failures : Nat) (abort : Option Exc) :
    Below (unwindLoop code call f failures abort) (unwindLoop code call' f failures abort) := by
  have again (failures' : Nat) (abort' : Option Exc) :
      Below (call (.unwindLoop f failures' abort') >>= fun _ => pure ())
        (call' (.unwindLoop f failures' abort') >>= fun _ => pure ()) :=
    below_bind (below _) fun _ => below_refl _
  unfold unwindLoop
  refine below_get_bind fun r => ?_
  cases (r.fiber f).effects with
  | nil => exact below_refl _
  | cons effect rest =>
      refine below_modify_bind (below_bind (below_attempt (below_runUndo below f _)) fun result => ?_)
      cases result with
      | ok _ => exact again failures abort
      | error error => exact below_ite (again _ abort) (again failures _)

theorem below_unwind (f : Nat) : Below (unwind call f) (unwind call' f) :=
  below_modify_bind (below_bind (below _) fun _ => below_refl _)

theorem below_provide (f : Nat) (name : String) (realm : Option Realm) (wellShaped : Bool) :
    Below (provide code call f name realm wellShaped)
      (provide code call' f name realm wellShaped) := by
  unfold provide
  refine below_get_bind fun r => below_ite (below_refl _) ?_
  cases found : r.impls ((realm.getD (r.fiber f).realm).ownerOf name) name with
  | some existing =>
      simp only [found]
      exact below_refl _
  | none =>
      simp only [found]
      refine below_ite (below_bind (below_notify below name _) fun _ => ?_) (below_refl _)
      exact below_modify_bind (below_addEffect below f _)

theorem below_on (f : Nat) (event : BusEvent) (listener : Nat) (order : Int) :
    Below (on code call f event listener order) (on code call' f event listener order) :=
  below_get_bind fun _ => below_ite (below_addEffect below f _)
    (below_modify_bind (below_addEffect below f _))

theorem below_disposeAll (children : List Nat) (abort : Option Exc) :
    Below (disposeAll call children abort) (disposeAll call' children abort) := by
  induction children generalizing abort with
  | nil => exact below_refl _
  | cons child rest ih =>
      refine below_bind (below_attempt (below (.op (.dispose child)))) fun result => ?_
      cases result with
      | ok _ => exact ih abort
      | error error => exact ih _

theorem below_discardStack (f : Nat) (abort : Option Exc) :
    Below (discardStack code call f abort) (discardStack code call' f abort) := by
  unfold discardStack
  refine below_modify_bind (below_bind (below_attempt (below_unwind below f)) fun result => ?_)
  cases result with
  | ok _ => exact below_refl _
  | error error =>
      cases error with
      | disposalErrors failures => exact below_bind (below_report below _) fun _ => below_refl _
      | _ => exact below_refl _

theorem below_discardEffects (f : Nat) :
    Below (discardEffects code call f) (discardEffects code call' f) :=
  below_get_bind fun _ => below_bind (below_disposeAll below _ none) fun abort =>
    below_discardStack below f abort

theorem below_unload (f : Nat) : Below (unload code call f) (unload code call' f) :=
  below_bind (below_transition below f _) fun _ => below_bind (below_discardEffects below f) fun _ =>
    below_transition below f _

theorem below_abandon (f : Nat) (error : Exc) :
    Below (abandon code call f error) (abandon code call' f error) :=
  below_bind (below_discardEffects below f) fun _ => below_modify_bind
    (below_bind (below_transition below f _) fun _ => below_refl _)

theorem below_applyPlugin (f : Nat) : Below (applyPlugin code call f) (applyPlugin code call' f) := by
  unfold applyPlugin
  refine below_get_bind fun r => below_bind (below_callback below _) fun result => ?_
  cases result with
  | none => exact below_refl _
  | some disposer => exact below_bind (below_addEffect below f _) fun _ => below_refl _

theorem below_finishLoad (f : Nat) : Below (finishLoad code call f) (finishLoad code call' f) := by
  unfold finishLoad
  refine below_get_bind fun r => below_ite (below_transition below f _) ?_
  exact below_bind (below_discardEffects below f) fun _ => below_fail below f _

theorem below_load (f : Nat) : Below (load code call f) (load code call' f) := by
  unfold load
  refine below_modify_bind (below_bind (below_transition below f _) fun _ => below_get_bind fun r => ?_)
  refine below_bind (below_attempt (below_callback below _)) fun result => ?_
  cases result with
  | error error => exact below_ite (below_fail below f error) (below_abandon below f error)
  | ok _ =>
      refine below_bind (below_attempt (below_applyPlugin below f)) fun result => ?_
      cases result with
      | error error =>
          refine below_ite ?_ (below_abandon below f error)
          exact below_bind (below_discardEffects below f) fun _ => below_fail below f error
      | ok _ => exact below_finishLoad below f

theorem below_stopForRestart (f : Nat) :
    Below (stopForRestart code call f) (stopForRestart code call' f) := by
  unfold stopForRestart
  refine below_get_bind fun r => below_ite (below_modify_bind (below_transition below f _)) ?_
  exact below_ite (below_unload below f) (below_refl _)

theorem below_refreshRestart (f : Nat) :
    Below (refreshRestart code call f) (refreshRestart code call' f) := by
  unfold refreshRestart
  refine below_get_bind fun r => below_ite (below_modify_bind ?_) (below_refl _)
  exact below_bind (below_stopForRestart below f) fun _ => below_refl _

theorem below_refreshEpoch (f : Nat) :
    Below (refreshEpoch code call f) (refreshEpoch code call' f) := by
  unfold refreshEpoch
  refine below_get_bind fun r => below_ite (below_refl _) (below_modify_bind ?_)
  refine below_ite (below_ite (below_unload below f) (below_refl _)) (below_ite (below_load below f) ?_)
  exact below_bind (below_unload below f) fun _ => below_load below f

theorem below_refresh (f : Nat) : Below (refresh code call f) (refresh code call' f) := by
  unfold refresh
  refine below_get_bind fun r => below_ite (below_refl _) ?_
  refine below_bind (below_refreshRestart below f) fun _ => below_get_bind fun r => ?_
  exact below_ite (below_refl _) (below_refreshEpoch below f)

theorem below_dispose (f : Nat) : Below (dispose code call f) (dispose code call' f) := by
  unfold dispose disposed
  refine below_get_bind fun r => below_ite (below_refl _) (below_modify_bind ?_)
  refine below_andFinally (below_ite (below_unload below f) (below_discardEffects below f)) ?_
  exact below_modify_bind (below_bind (below_transition below f _) fun _ => below_refl _)

theorem below_restart (f : Nat) : Below (restart call f) (restart call' f) := by
  unfold restart
  refine below_get_bind fun r => below_ite (below_refl _) (below_modify_bind (below_ite ?_ (below_refl _)))
  exact below_bind (below (.op .settle)) fun _ => below_refl _

theorem below_runBatch (batch : List Nat) : Below (runBatch code call batch) (runBatch code call' batch) := by
  induction batch with
  | nil => exact below_refl _
  | cons f rest ih =>
      refine below_bind (below_attempt (below_refresh below f)) fun result => ?_
      cases result with
      | ok _ => exact ih
      | error error => exact below_refl _

theorem below_settleLoop (rounds : Nat) :
    Below (settleLoop code call rounds) (settleLoop code call' rounds) := by
  unfold settleLoop
  refine below_get_bind fun r => below_ite (below_refl _) (below_ite (below_refl _) ?_)
  exact below_modify_bind (below_bind (below_runBatch below _) fun _ =>
    below_bind (below _) fun _ => below_refl _)

theorem below_settle : Below (settle call) (settle call') := by
  unfold settle
  refine below_get_bind fun r => below_ite (below_refl _) (below_modify_bind ?_)
  exact below_bind (below_andFinally (below_bind (below _) fun _ => below_refl _) (below_refl _))
    fun _ => below_refl _

theorem below_perform (o : Op) : Below (perform code call o) (perform code call' o) := by
  cases o with
  | mount declaration entryId isolated parent realm => exact below_refl _
  | plugin declaration entryId isolated parent realm =>
      exact below_bind (below_refl _) fun _ => below_bind (below _) fun _ => below_refl _
  | provide f name realm wellShaped => exact below_provide below f name realm wellShaped
  | effect f disposer => exact below_addEffect below f _
  | callDisposer f id => exact below_bind (below_callDisposer below f id) fun _ => below_refl _
  | on f event listener order => exact below_on below f event listener order
  | isolate => exact below_refl _
  | restart f => exact below_bind (below_restart below f) fun _ => below_refl _
  | dispose f => exact below_bind (below_dispose below f) fun _ => below_refl _
  | settle => exact below_bind (below_settle below) fun _ => below_refl _

theorem below_step (c : Call) : Below (step code call c) (step code call' c) := by
  cases c with
  | op o => exact below_perform below o
  | settleLoop rounds => exact below_bind (below_settleLoop below rounds) fun _ => below_refl _
  | unwindLoop f failures abort =>
      exact below_bind (below_unwindLoop below f failures abort) fun _ => below_refl _

end Below

theorem execWatched_below (code : Code) (ok : Condition) (fuel : Nat) (c : Call) :
    Below (execWatched code ok fuel c) (exec code fuel c) := by
  induction fuel generalizing c with
  | zero => exact below_refl _
  | succ fuel ih =>
      intro r
      rw [execWatched]
      dsimp only
      split
      · exact below_step ih c r
      · exact Or.inl rfl

/-- A watched run that does not stop is the run. -/
theorem watch_eq_drive (code : Code) (ok : Condition) (fuel : Nat) (host : Prog) (r : Root)
    (whole : (watch code ok fuel host r).1 ≠ .diverged) :
    drive code fuel host r = watch code ok fuel host r := by
  rcases below_runProg (execWatched_below code ok fuel) host r with early | same
  · exact absurd early whole
  · exact same.symm

end AtrexAgent.Core
