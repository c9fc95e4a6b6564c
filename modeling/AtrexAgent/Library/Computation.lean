import Mathlib.Order.Lattice
import Mathlib.Order.Nat
import Mathlib.Tactic.TypeStar

/-! Computations over a mutable state that may raise, and whose nesting is
bounded by fuel. The state survives an exception, as it does in the host
language, so a postcondition is given for each way a run can end. -/

namespace AtrexAgent.Computation

inductive Outcome (ε α : Type) where
  | ret (value : α)
  | raised (error : ε)
  | diverged
  deriving DecidableEq, Repr

def Comp (σ ε α : Type) : Type := σ → Outcome ε α × σ

variable {σ ε α β : Type}

namespace Comp

protected def pure (value : α) : Comp σ ε α := fun s => (.ret value, s)

protected def bind (first : Comp σ ε α) (next : α → Comp σ ε β) : Comp σ ε β := fun s =>
  match first s with
  | (.ret value, s') => next value s'
  | (.raised error, s') => (.raised error, s')
  | (.diverged, s') => (.diverged, s')

instance : Monad (Comp σ ε) where
  pure := Comp.pure
  bind := Comp.bind

def raise (error : ε) : Comp σ ε α := fun s => (.raised error, s)

def diverge : Comp σ ε α := fun s => (.diverged, s)

def get : Comp σ ε σ := fun s => (.ret s, s)

def modify (change : σ → σ) : Comp σ ε Unit := fun s => (.ret (), change s)

/-- `try: ... except BaseException as error`, with the exception as a value. -/
def attempt (body : Comp σ ε α) : Comp σ ε (Except ε α) := fun s =>
  match body s with
  | (.ret value, s') => (.ret (.ok value), s')
  | (.raised error, s') => (.ret (.error error), s')
  | (.diverged, s') => (.diverged, s')

/-- `try: ... finally: ...`; an exception of the last part replaces the first. -/
def andFinally (body : Comp σ ε α) (last : Comp σ ε Unit) : Comp σ ε α := do
  let result ← attempt body
  last
  match result with
  | .ok value => Pure.pure value
  | .error error => raise error

end Comp

open Comp

/-- `Q` holds of what the run returns, `E` of what it raises, and `D` of the
state it was in when its fuel ran out. With `E` and `D` false it is total
correctness. -/
def Triple (P : σ → Prop) (body : Comp σ ε α) (Q : α → σ → Prop)
    (E : ε → σ → Prop) (D : σ → Prop) : Prop :=
  ∀ s, P s → match body s with
    | (.ret value, s') => Q value s'
    | (.raised error, s') => E error s'
    | (.diverged, s') => D s'

/-- `I` is an invariant of the run, which raises only what satisfies `R`. -/
def Keeps (I : σ → Prop) (R : ε → Prop) (D : σ → Prop) (body : Comp σ ε α) : Prop :=
  Triple I body (fun _ => I) (fun error s => I s ∧ R error) D

section Runs

@[simp] theorem run_pure (value : α) (s : σ) :
    (Pure.pure value : Comp σ ε α) s = (.ret value, s) := rfl

@[simp] theorem run_raise (error : ε) (s : σ) :
    (raise error : Comp σ ε α) s = (.raised error, s) := rfl

@[simp] theorem run_get (s : σ) : (get : Comp σ ε σ) s = (.ret s, s) := rfl

@[simp] theorem run_modify (change : σ → σ) (s : σ) :
    (modify change : Comp σ ε Unit) s = (.ret (), change s) := rfl

theorem run_bind (first : Comp σ ε α) (next : α → Comp σ ε β) (s : σ) :
    (first >>= next) s = match first s with
      | (.ret value, s') => next value s'
      | (.raised error, s') => (.raised error, s')
      | (.diverged, s') => (.diverged, s') := rfl

theorem run_bind_ret {first : Comp σ ε α} {s s' : σ} {value : α}
    (run : first s = (.ret value, s')) (next : α → Comp σ ε β) :
    (first >>= next) s = next value s' := by
  rw [run_bind, run]

@[simp] theorem run_get_bind (next : σ → Comp σ ε β) (s : σ) :
    ((get : Comp σ ε σ) >>= next) s = next s s := rfl

@[simp] theorem run_modify_bind (change : σ → σ) (next : Unit → Comp σ ε β) (s : σ) :
    ((modify change : Comp σ ε Unit) >>= next) s = next () (change s) := rfl

@[simp] theorem run_pure_bind (value : α) (next : α → Comp σ ε β) (s : σ) :
    ((Pure.pure value : Comp σ ε α) >>= next) s = next value s := rfl

theorem run_attempt (body : Comp σ ε α) (s : σ) :
    attempt body s = match body s with
      | (.ret value, s') => (.ret (.ok value), s')
      | (.raised error, s') => (.ret (.error error), s')
      | (.diverged, s') => (.diverged, s') := rfl

theorem run_andFinally_ret {body : Comp σ ε α} {last : Comp σ ε Unit} {s s' s'' : σ} {value : α}
    (run : body s = (.ret value, s')) (after : last s' = (.ret (), s'')) :
    andFinally body last s = (.ret value, s'') := by
  unfold andFinally
  rw [run_bind, run_attempt, run]
  exact run_bind_ret after _

end Runs

section Rules

variable {P P' I D : σ → Prop} {Q Q' : α → σ → Prop} {R : β → σ → Prop} {E E' : ε → σ → Prop}

theorem triple_pure (value : α) (holds : ∀ s, P s → Q value s) :
    Triple P (Pure.pure value : Comp σ ε α) Q E D := fun s given => holds s given

theorem triple_raise (error : ε) (holds : ∀ s, P s → E error s) :
    Triple P (raise error : Comp σ ε α) Q E D := fun s given => holds s given

theorem triple_modify (change : σ → σ) {Q : Unit → σ → Prop}
    (holds : ∀ s, P s → Q () (change s)) :
    Triple P (modify change : Comp σ ε Unit) Q E D := fun s given => holds s given

theorem triple_get {Q : σ → σ → Prop} (holds : ∀ s, P s → Q s s) :
    Triple P (get : Comp σ ε σ) Q E D := fun s given => holds s given

theorem triple_bind {first : Comp σ ε α} {next : α → Comp σ ε β}
    (left : Triple P first Q E D) (right : ∀ value, Triple (Q value) (next value) R E D) :
    Triple P (first >>= next) R E D := by
  intro s given
  have after := left s given
  change match Comp.bind first next s with
    | (.ret value, s') => R value s'
    | (.raised error, s') => E error s'
    | (.diverged, s') => D s'
  unfold Comp.bind
  cases run : first s with
  | mk outcome s' =>
      rw [run] at after
      cases outcome with
      | ret value => exact right value s' after
      | raised error => exact after
      | diverged => exact after

theorem triple_attempt {body : Comp σ ε α} {R : Except ε α → σ → Prop} {E' : ε → σ → Prop}
    (run : Triple P body (fun value => R (.ok value)) (fun error => R (.error error)) D) :
    Triple P (attempt body) R E' D := by
  intro s given
  have after := run s given
  unfold attempt
  cases result : body s with
  | mk outcome s' =>
      rw [result] at after
      cases outcome <;> exact after

theorem triple_conseq {body : Comp σ ε α} (run : Triple P body Q E D)
    (before : ∀ s, P' s → P s) (normal : ∀ value s, Q value s → Q' value s)
    (abnormal : ∀ error s, E error s → E' error s) : Triple P' body Q' E' D := by
  intro s given
  have after := run s (before s given)
  cases result : body s with
  | mk outcome s' =>
      rw [result] at after
      cases outcome with
      | ret value => exact normal value s' after
      | raised error => exact abnormal error s' after
      | diverged => exact after

theorem triple_pre {body : Comp σ ε α} (before : ∀ s, P' s → P s)
    (run : Triple P body Q E D) : Triple P' body Q E D :=
  triple_conseq run before (fun _ _ h => h) (fun _ _ h => h)

theorem triple_post {body : Comp σ ε α} (run : Triple P body Q E D)
    (normal : ∀ value s, Q value s → Q' value s)
    (abnormal : ∀ error s, E error s → E' error s) : Triple P body Q' E' D :=
  triple_conseq run (fun _ h => h) normal abnormal

theorem triple_stop {D' : σ → Prop} {body : Comp σ ε α} (run : Triple P body Q E D)
    (stops : ∀ s, D s → D' s) : Triple P body Q E D' := by
  intro s given
  have after := run s given
  cases result : body s with
  | mk outcome s' =>
      rw [result] at after
      cases outcome with
      | ret value => exact after
      | raised error => exact after
      | diverged => exact stops s' after

/-- Two facts about one run, the second of which says nothing if it diverges. -/
theorem triple_and {body : Comp σ ε α} (left : Triple P body Q E D)
    (right : Triple P' body Q' E' fun _ => True) :
    Triple (fun s => P s ∧ P' s) body (fun value s => Q value s ∧ Q' value s)
      (fun error s => E error s ∧ E' error s) D := by
  intro s given
  have first := left s given.1
  have second := right s given.2
  cases result : body s with
  | mk outcome s' =>
      rw [result] at first second
      cases outcome with
      | ret value => exact ⟨first, second⟩
      | raised error => exact ⟨first, second⟩
      | diverged => exact first

theorem triple_ite {condition : Prop} [Decidable condition] {yes no : Comp σ ε α}
    (first : condition → Triple P yes Q E D) (second : ¬ condition → Triple P no Q E D) :
    Triple P (if condition then yes else no) Q E D := by
  by_cases h : condition
  · rw [if_pos h]; exact first h
  · rw [if_neg h]; exact second h

/-- Start from a state that is known, to use what a read returned. -/
theorem triple_state {body : Comp σ ε α}
    (each : ∀ s₀, P s₀ → Triple (fun s => s = s₀) body Q E D) : Triple P body Q E D :=
  fun s given => each s given s rfl

theorem triple_get_bind {next : σ → Comp σ ε β}
    (each : ∀ s₀, P s₀ → Triple (fun s => s = s₀) (next s₀) R E D) :
    Triple P (get >>= next) R E D := fun s given => each s given s rfl

theorem triple_modify_bind {change : σ → σ} {next : Unit → Comp σ ε β}
    (rest : Triple (fun s' => ∃ s, P s ∧ s' = change s) (next ()) R E D) :
    Triple P (modify change >>= next) R E D := fun s given => rest (change s) ⟨s, given, rfl⟩

/-- What holds after an attempt: `Q` of what was returned, `E` of what was raised. -/
def outcome (Q : α → σ → Prop) (E : ε → σ → Prop) : Except ε α → σ → Prop
  | .ok value => Q value
  | .error error => E error

theorem triple_andFinally {body : Comp σ ε α} {last : Comp σ ε Unit}
    (run : Triple P body Q E D)
    (normal : ∀ value, Triple (Q value) last (fun _ => Q' value) E' D)
    (abnormal : ∀ error, Triple (E error) last (fun _ => E' error) E' D) :
    Triple P (andFinally body last) Q' E' D := by
  unfold andFinally
  refine triple_bind (Q := outcome Q E) (triple_attempt run) ?_
  intro result
  cases result with
  | ok value => exact triple_bind (normal value) fun _ => triple_pure value fun _ h => h
  | error error => exact triple_bind (abnormal error) fun _ => triple_raise error fun _ h => h

end Rules

/-- A run that is known outright. -/
theorem triple_run {P : σ → Prop} {body : Comp σ ε α} {Q : α → σ → Prop} {E : ε → σ → Prop}
    {D : σ → Prop}
    (run : ∀ s, P s → ∃ value s', body s = (.ret value, s') ∧ Q value s') :
    Triple P body Q E D := by
  intro s given
  obtain ⟨value, s', result, holds⟩ := run s given
  rw [result]
  exact holds

section Invariants

variable {I D : σ → Prop} {R R' : ε → Prop}

theorem keeps_pure (value : α) : Keeps I R D (Pure.pure value : Comp σ ε α) :=
  triple_pure value fun _ h => h

theorem keeps_raise (error : ε) (allowed : R error) :
    Keeps I R D (raise error : Comp σ ε α) := triple_raise error fun _ h => ⟨h, allowed⟩

theorem keeps_get : Keeps I R D (get : Comp σ ε σ) := triple_get fun _ h => h

theorem keeps_modify {change : σ → σ} (holds : ∀ s, I s → I (change s)) :
    Keeps I R D (modify change : Comp σ ε Unit) := triple_modify change holds

theorem keeps_bind {first : Comp σ ε α} {next : α → Comp σ ε β}
    (left : Keeps I R D first) (right : ∀ value, Keeps I R D (next value)) :
    Keeps I R D (first >>= next) := triple_bind left right

theorem keeps_get_bind {next : σ → Comp σ ε β}
    (right : ∀ s, I s → Triple (fun s' => s' = s) (next s) (fun _ => I)
      (fun error s' => I s' ∧ R error) D) :
    Keeps I R D (get >>= next) := triple_get_bind right

theorem keeps_weaken {body : Comp σ ε α} (run : Keeps I R D body)
    (wider : ∀ error, R error → R' error) : Keeps I R' D body :=
  triple_post run (fun _ _ h => h) fun error _ h => ⟨h.1, wider error h.2⟩

/-- After `try`, the handler knows which exceptions can arrive. -/
theorem attempt_raises {body : Comp σ ε α} {E : ε → σ → Prop} (run : Keeps I R D body) :
    Triple I (attempt body)
      (fun result s => I s ∧ ∀ error, result = .error error → R error) E D := by
  refine triple_attempt (triple_post run ?_ ?_)
  · exact fun value s h => ⟨h, fun error wrong => by cases wrong⟩
  · exact fun error s h => ⟨h.1, fun error' same => by cases same; exact h.2⟩

theorem keeps_attempt_bind {body : Comp σ ε α} {next : Except ε α → Comp σ ε β}
    (run : Keeps I R D body) (normal : ∀ value, Keeps I R' D (next (.ok value)))
    (abnormal : ∀ error, R error → Keeps I R' D (next (.error error))) :
    Keeps I R' D (attempt body >>= next) := by
  refine triple_bind (attempt_raises run) fun result => ?_
  cases result with
  | ok value => exact triple_pre (fun s h => h.1) (normal value)
  | error error =>
      intro s given
      exact abnormal error (given.2 error rfl) s given.1

theorem keeps_ite {condition : Prop} [Decidable condition] {yes no : Comp σ ε α}
    (first : condition → Keeps I R D yes) (second : ¬ condition → Keeps I R D no) :
    Keeps I R D (if condition then yes else no) := triple_ite first second

theorem keeps_andFinally {body : Comp σ ε α} {last : Comp σ ε Unit}
    (run : Keeps I R D body) (after : Keeps I R D last) : Keeps I R D (andFinally body last) := by
  refine triple_andFinally run (fun _ => after) ?_
  intro error s given
  exact triple_post after (fun _ _ h => ⟨h, given.2⟩) (fun _ _ h => h) s given.1

end Invariants

/-! ### Runs that end

A computation with a fuel argument ends in a state when it does so for all large
enough fuel. -/

section Results

variable {body : Nat → Comp σ ε α} {s s' s'' : σ} {outcome : Outcome ε α}

def Results (body : Nat → Comp σ ε α) (s : σ) (outcome : Outcome ε α) (s' : σ) : Prop :=
  ∃ bound, ∀ fuel, bound ≤ fuel → body fuel s = (outcome, s')

theorem results_same (each : ∀ fuel, body fuel s = (outcome, s')) : Results body s outcome s' :=
  ⟨0, fun fuel _ => each fuel⟩

/-- Run the same first steps for every amount of fuel. -/
theorem results_step {body' : Nat → Comp σ ε α} (steps : ∀ fuel, body fuel s = body' fuel s')
    (rest : Results body' s' outcome s'') : Results body s outcome s'' := by
  obtain ⟨bound, rest⟩ := rest
  use bound
  intro fuel enough
  rw [steps]
  exact rest fuel enough

theorem results_bind {next : Nat → α → Comp σ ε β} {value : α} {last : Outcome ε β}
    (first : Results body s (.ret value) s')
    (rest : Results (fun fuel => next fuel value) s' last s'') :
    Results (fun fuel => body fuel >>= next fuel) s last s'' := by
  obtain ⟨left, first⟩ := first
  obtain ⟨right, rest⟩ := rest
  use max left right
  intro fuel enough
  have before := first fuel (le_trans (le_max_left left right) enough)
  change (body fuel >>= next fuel) s = _
  rw [run_bind_ret before]
  exact rest fuel (le_trans (le_max_right left right) enough)

theorem results_attempt {value : α} (run : Results body s (.ret value) s') :
    Results (fun fuel => attempt (body fuel)) s (.ret (.ok value)) s' := by
  obtain ⟨bound, run⟩ := run
  use bound
  intro fuel enough
  change attempt (body fuel) s = _
  rw [run_attempt, run fuel enough]

theorem results_attempt_raised {error : ε} (run : Results body s (.raised error) s') :
    Results (fun fuel => attempt (body fuel)) s (.ret (.error error)) s' := by
  obtain ⟨bound, run⟩ := run
  use bound
  intro fuel enough
  change attempt (body fuel) s = _
  rw [run_attempt, run fuel enough]

/-- One more level of nesting only needs one more unit of fuel. -/
theorem results_succ {deeper : Nat → Comp σ ε α} (unfolds : ∀ fuel, deeper (fuel + 1) = body fuel)
    (run : Results body s outcome s') : Results deeper s outcome s' := by
  obtain ⟨bound, run⟩ := run
  use bound + 1
  intro fuel enough
  obtain ⟨fuel, rfl⟩ : ∃ less, fuel = less + 1 := ⟨fuel - 1, by omega⟩
  rw [unfolds]
  exact run fuel (by omega)

theorem results_andFinally {value : α} {last : Nat → Comp σ ε Unit}
    (run : Results body s (.ret value) s') (after : Results last s' (.ret ()) s'') :
    Results (fun fuel => andFinally (body fuel) (last fuel)) s (.ret value) s'' := by
  obtain ⟨left, run⟩ := run
  obtain ⟨right, after⟩ := after
  use max left right
  intro fuel enough
  exact run_andFinally_ret (run fuel (le_trans (le_max_left left right) enough))
    (after fuel (le_trans (le_max_right left right) enough))

end Results

/-! ### Runs that stop early

One computation is below another if it stops early or does the same. -/

section Below

def Below (body body' : Comp σ ε α) : Prop := ∀ s, (body s).1 = .diverged ∨ body s = body' s

variable {body body' : Comp σ ε α}

theorem below_refl (body : Comp σ ε α) : Below body body := fun _ => Or.inr rfl

theorem below_bind {next next' : α → Comp σ ε β} (first : Below body body')
    (rest : ∀ value, Below (next value) (next' value)) : Below (body >>= next) (body' >>= next') := by
  intro s
  rw [run_bind, run_bind]
  rcases first s with early | same
  · left
    cases run : body s with
    | mk outcome s' =>
        rw [run] at early
        dsimp only at early
        rw [early]
  · rw [← same]
    cases run : body s with
    | mk outcome s' =>
        cases outcome with
        | ret value => exact rest value s'
        | raised error => exact Or.inr rfl
        | diverged => exact Or.inr rfl

theorem below_attempt (run : Below body body') : Below (attempt body) (attempt body') := by
  intro s
  rw [run_attempt, run_attempt]
  rcases run s with early | same
  · left
    cases run : body s with
    | mk outcome s' =>
        rw [run] at early
        dsimp only at early
        rw [early]
  · rw [← same]
    exact Or.inr rfl

theorem below_andFinally {last last' : Comp σ ε Unit} (run : Below body body')
    (after : Below last last') : Below (andFinally body last) (andFinally body' last') := by
  unfold andFinally
  exact below_bind (below_attempt run) fun result => below_bind after fun _ => below_refl _

theorem below_ite {condition : Prop} [Decidable condition] {yes yes' no no' : Comp σ ε α}
    (first : Below yes yes') (second : Below no no') :
    Below (if condition then yes else no) (if condition then yes' else no') := by
  split
  · exact first
  · exact second

theorem below_get_bind {next next' : σ → Comp σ ε β} (rest : ∀ s, Below (next s) (next' s)) :
    Below (get >>= next) (get >>= next') := below_bind (below_refl _) rest

theorem below_modify_bind {change : σ → σ} {next next' : Unit → Comp σ ε β}
    (rest : Below (next ()) (next' ())) :
    Below (modify change >>= next) (modify change >>= next') :=
  below_bind (below_refl _) fun _ => rest

end Below

end AtrexAgent.Computation
