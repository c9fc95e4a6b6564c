import AtrexAgent.Library.Computation
import AtrexAgent.Library.Interaction

/-! Callbacks of a component: programs whose operations are calls of the component itself,
which may be in the middle of running them. -/

namespace AtrexAgent.Reentry

open AtrexAgent.Computation
open AtrexAgent.Computation.Comp
open AtrexAgent.Interaction

variable {σ ε ω ρ α : Type}

/-- A callback can branch on what an operation returned or raised. -/
abbrev Callback (ω ρ ε α : Type) : Type := Program ω (fun _ => Except ε ρ) ε α

def play (call : ω → Comp σ ε ρ) : Callback ω ρ ε α → Comp σ ε α
  | .done value => pure value
  | .stop error => raise error
  | .ask o next => do
      let result ← attempt (call o)
      play call (next result)

/-- The operations one after another, whatever they return or raise. -/
def sequence (value : α) : List ω → Callback ω ρ ε α
  | [] => .done value
  | o :: rest => .ask o fun _ => sequence value rest

/-- Errors of a kind the callback never catches. -/
def Passes (P : ε → Prop) : Callback ω ρ ε α → Prop
  | .done _ => True
  | .stop _ => True
  | .ask _ next =>
      (∀ error, P error → next (.error error) = .stop error) ∧ ∀ result, Passes P (next result)

variable {call : ω → Comp σ ε ρ} {I D : σ → Prop}

/-- An invariant of every operation is one of every callback. -/
theorem keeps_play (calls : ∀ o, Keeps I (fun _ => True) D (call o)) (callback : Callback ω ρ ε α) :
    Keeps I (fun _ => True) D (play call callback) := by
  induction callback with
  | done value => exact keeps_pure value
  | stop error => exact keeps_raise error trivial
  | ask o next ih =>
      unfold play
      exact keeps_attempt_bind (calls o) (fun value => ih (.ok value)) fun error _ => ih (.error error)

/-- Every operation of the callback satisfies `P`. -/
def Within (P : ω → Prop) : Callback ω ρ ε α → Prop
  | .done _ => True
  | .stop _ => True
  | .ask o next => P o ∧ ∀ result, Within P (next result)

theorem keeps_play_within {P : ω → Prop} (calls : ∀ o, P o → Keeps I (fun _ => True) D (call o))
    (callback : Callback ω ρ ε α) (within : Within P callback) :
    Keeps I (fun _ => True) D (play call callback) := by
  induction callback with
  | done value => exact keeps_pure value
  | stop error => exact keeps_raise error trivial
  | ask o next ih =>
      unfold play
      exact keeps_attempt_bind (calls o within.1) (fun value => ih (.ok value) (within.2 (.ok value)))
        fun error _ => ih (.error error) (within.2 (.error error))

/-- Where a callback lets errors of a kind pass, what holds after an operation that raised one
holds at the end. -/
theorem triple_play_passes {P : ε → Prop} {E : ε → σ → Prop} {E' : ε → σ → Prop}
    (calls : ∀ o, Triple I (call o) (fun _ => I) E' D)
    (passed : ∀ error s, P error → E' error s → E error s)
    (caught : ∀ error s, ¬ P error → E' error s → I s) (stops : ∀ error s, I s → E error s)
    (callback : Callback ω ρ ε α) (passes : Passes P callback) :
    Triple I (play call callback) (fun _ => I) E D := by
  induction callback with
  | done value => exact triple_pure value fun _ given => given
  | stop error => exact triple_raise error fun s given => stops error s given
  | ask o next ih =>
      unfold play
      refine triple_bind (Q := outcome (fun _ => I) E') (triple_attempt (calls o)) fun result => ?_
      cases result with
      | ok value => exact ih (.ok value) (passes.2 (.ok value))
      | error error =>
          by_cases kind : P error
          · rw [passes.1 error kind]
            exact triple_raise error fun s raised => passed error s kind raised
          · exact triple_pre (fun s raised => caught error s kind raised)
              (ih (.error error) (passes.2 (.error error)))

end AtrexAgent.Reentry
