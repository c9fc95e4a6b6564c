import Mathlib.Logic.Relation

/-! Programs that act on a world one operation at a time, and get an answer to
each. A program may be cut off before any operation, so an assertion about it
says what holds whenever it is about to act, besides what holds when it ends. -/

namespace AtrexAgent.Interaction

inductive Program (Op : Type) (Answer : Op → Type) (ε α : Type) : Type
  | done (value : α)
  | stop (reason : ε)
  | ask (op : Op) (next : Answer op → Program Op Answer ε α)

variable {Op : Type} {Answer : Op → Type} {ε α β σ τ : Type}

namespace Program

protected def bind : Program Op Answer ε α → (α → Program Op Answer ε β) → Program Op Answer ε β
  | done value, next => next value
  | stop reason, _ => stop reason
  | ask op later, next => ask op fun answer => (later answer).bind next

instance : Monad (Program Op Answer ε) where
  pure := done
  bind := Program.bind

def perform (op : Op) : Program Op Answer ε (Answer op) := ask op done

@[simp] theorem pure_eq (value : α) : (pure value : Program Op Answer ε α) = done value := rfl

@[simp] theorem done_bind (value : α) (next : α → Program Op Answer ε β) :
    (done value >>= next) = next value := rfl

@[simp] theorem stop_bind (reason : ε) (next : α → Program Op Answer ε β) :
    ((stop reason : Program Op Answer ε α) >>= next) = stop reason := rfl

@[simp] theorem ask_bind (op : Op) (later : Answer op → Program Op Answer ε α)
    (next : α → Program Op Answer ε β) :
    (ask op later >>= next) = ask op fun answer => later answer >>= next := rfl

@[simp] theorem perform_bind (op : Op) (next : Answer op → Program Op Answer ε β) :
    (perform op >>= next) = ask op next := rfl

end Program

open Program

/-- What an operation may do to the world, with the answers it may give. -/
abbrev Effect (σ : Type) (Op : Type) (Answer : Op → Type) :=
  σ → (op : Op) → σ → Answer op → Prop

/-- Run from `s`, the program finds `C` whenever it is about to act, and leaves `Q`
when it is done and `E` when it stops. -/
def Holds (effect : Effect σ Op Answer) (C : σ → Prop) (Q : α → σ → Prop) (E : ε → σ → Prop) :
    Program Op Answer ε α → σ → Prop
  | done value, s => Q value s
  | stop reason, s => E reason s
  | ask op next, s => C s ∧ ∀ s' answer, effect s op s' answer → Holds effect C Q E (next answer) s'

section Rules

variable {effect : Effect σ Op Answer} {C C' : σ → Prop} {Q Q' : α → σ → Prop}
  {R : β → σ → Prop} {E E' : ε → σ → Prop}

@[simp] theorem holds_done (value : α) (s : σ) :
    Holds effect C Q E (done value : Program Op Answer ε α) s ↔ Q value s := Iff.rfl

@[simp] theorem holds_stop (reason : ε) (s : σ) :
    Holds effect C Q E (stop reason : Program Op Answer ε α) s ↔ E reason s := Iff.rfl

theorem holds_ask (op : Op) (next : Answer op → Program Op Answer ε α) (s : σ) :
    Holds effect C Q E (ask op next) s ↔
      C s ∧ ∀ s' answer, effect s op s' answer → Holds effect C Q E (next answer) s' := Iff.rfl

theorem holds_bind {first : Program Op Answer ε α} {next : α → Program Op Answer ε β} {s : σ} :
    Holds effect C R E (first >>= next) s ↔
      Holds effect C (fun value => Holds effect C R E (next value)) E first s := by
  induction first generalizing s with
  | done value => rfl
  | stop reason => rfl
  | ask op later ih =>
      constructor
      · intro holds
        exact ⟨holds.1, fun s' answer acted => (ih answer).mp (holds.2 s' answer acted)⟩
      · intro holds
        exact ⟨holds.1, fun s' answer acted => (ih answer).mpr (holds.2 s' answer acted)⟩

theorem Holds.imp {program : Program Op Answer ε α} {s : σ}
    (holds : Holds effect C Q E program s) (normal : ∀ value s, Q value s → Q' value s)
    (stopped : ∀ reason s, E reason s → E' reason s) : Holds effect C Q' E' program s := by
  induction program generalizing s with
  | done value => exact normal value s holds
  | stop reason => exact stopped reason s holds
  | ask op next ih => exact ⟨holds.1, fun s' answer acted => ih answer (holds.2 s' answer acted)⟩

/-- The first part of a program, by what it leaves. -/
theorem Holds.bind {first : Program Op Answer ε α} {next : α → Program Op Answer ε β} {s : σ}
    (holds : Holds effect C Q E first s)
    (rest : ∀ value s, Q value s → Holds effect C R E (next value) s) :
    Holds effect C R E (first >>= next) s :=
  holds_bind.mpr (holds.imp rest fun _ _ h => h)

end Rules

/-! ### A loop that only an exception leaves

`body` is one turn, from the variables at its head to those at the head of the
next one. -/

section Loops

variable {effect : Effect σ Op Answer} {body : τ → Program Op Answer ε τ}

inductive Step (effect : Effect σ Op Answer) (body : τ → Program Op Answer ε τ) :
    σ × Program Op Answer ε τ → σ × Program Op Answer ε τ → Prop
  | act {s s' : σ} {op : Op} {next : Answer op → Program Op Answer ε τ} {answer : Answer op} :
      effect s op s' answer → Step effect body (s, ask op next) (s', next answer)
  | again {s : σ} {vars : τ} : Step effect body (s, done vars) (s, body vars)

variable {C : σ → Prop} {I : τ → σ → Prop} {E : ε → σ → Prop}

/-- What is known at a point of a run, the program left to run being `program`. -/
theorem holds_now {program : Program Op Answer ε τ} {s : σ} (holds : Holds effect C I E program s)
    (acting : ∀ vars s, I vars s → C s) (stopped : ∀ reason s, E reason s → C s) : C s := by
  cases program with
  | done vars => exact acting vars s holds
  | stop reason => exact stopped reason s holds
  | ask op next => exact holds.1

theorem holds_step (turn : ∀ vars s, I vars s → Holds effect C I E (body vars) s)
    {s s' : σ} {program program' : Program Op Answer ε τ} (holds : Holds effect C I E program s)
    (step : Step effect body (s, program) (s', program')) : Holds effect C I E program' s' := by
  cases step with
  | act acted => exact holds.2 s' _ acted
  | again => exact turn _ s holds

theorem holds_steps (turn : ∀ vars s, I vars s → Holds effect C I E (body vars) s)
    {start last : σ × Program Op Answer ε τ} (holds : Holds effect C I E start.2 start.1)
    (steps : Relation.ReflTransGen (Step effect body) start last) :
    Holds effect C I E last.2 last.1 := by
  induction steps with
  | refl => exact holds
  | tail _ step ih => exact holds_step turn ih step

/-- The steps of one turn. -/
inductive Act (effect : Effect σ Op Answer) : σ × Program Op Answer ε τ → σ × Program Op Answer ε τ → Prop
  | act {s s' : σ} {op : Op} {next : Answer op → Program Op Answer ε τ} {answer : Answer op} :
      effect s op s' answer → Act effect (s, ask op next) (s', next answer)

theorem holds_acts {Q : τ → σ → Prop} {start last : σ × Program Op Answer ε τ}
    (holds : Holds effect C Q E start.2 start.1) (acts : Relation.ReflTransGen (Act effect) start last) :
    Holds effect C Q E last.2 last.1 := by
  induction acts with
  | refl => exact holds
  | tail _ act ih =>
      cases act with
      | act acted => exact ih.2 _ _ acted

/-- A run is in what it began with, or in a turn of the loop. -/
theorem steps_turn {start last : σ × Program Op Answer ε τ}
    (steps : Relation.ReflTransGen (Step effect body) start last) :
    Relation.ReflTransGen (Act effect) start last ∨ ∃ vars s,
      Relation.ReflTransGen (Step effect body) start (s, done vars) ∧
        Relation.ReflTransGen (Act effect) (s, body vars) last := by
  induction steps with
  | refl => exact .inl .refl
  | tail before step ih =>
      cases step with
      | act acted =>
          refine ih.imp (fun acts => acts.tail (.act acted)) ?_
          rintro ⟨vars, s, reached, acts⟩
          exact ⟨vars, s, reached, acts.tail (.act acted)⟩
      | again => exact .inr ⟨_, _, before, .refl⟩

/-- Less that may happen leaves no less known. -/
theorem Holds.fewer {effect' : Effect σ Op Answer} {Q : τ → σ → Prop}
    (fewer : ∀ s op s' answer, effect' s op s' answer → effect s op s' answer) {program : Program Op Answer ε τ} {s : σ}
    (holds : Holds effect C Q E program s) : Holds effect' C Q E program s := by
  induction program generalizing s with
  | done value => exact holds
  | stop reason => exact holds
  | ask op next ih => exact ⟨holds.1, fun s' answer acted => ih answer (holds.2 s' answer (fewer s op s' answer acted))⟩

/-- A program that has not stopped can go on, where every operation can. -/
theorem step_of_effect (total : ∀ s op, ∃ s' answer, effect s op s' answer)
    (program : Program Op Answer ε τ) (s : σ) :
    (∃ reason, program = stop reason) ∨ ∃ next, Step effect body (s, program) next := by
  cases program with
  | done vars => exact Or.inr ⟨_, Step.again⟩
  | stop reason => exact Or.inl ⟨reason, rfl⟩
  | ask op next =>
      obtain ⟨s', answer, acted⟩ := total s op
      exact Or.inr ⟨_, Step.act acted⟩

/-- A loop each turn of which lowers a measure has no endless run. -/
theorem terminates (measure : τ → σ → Nat)
    (turn : ∀ vars s, I vars s → Holds effect C
      (fun vars' s' => I vars' s' ∧ measure vars' s' < measure vars s) E
      (body vars) s)
    (bound : Nat) (program : Program Op Answer ε τ) (s : σ)
    (holds : Holds effect C (fun vars s' => I vars s' ∧ measure vars s' < bound) E
      program s) :
    Acc (flip (Step effect body)) (s, program) := by
  induction bound using Nat.strongRecOn generalizing program s with
  | _ bound smaller =>
      induction program generalizing s with
      | stop reason =>
          constructor
          rintro _ step
          cases step
      | done vars =>
          constructor
          rintro _ step
          cases step with
          | again =>
              exact smaller (measure vars s) holds.2 _ _ (turn vars s holds.1)
      | ask op next ih =>
          constructor
          rintro _ step
          cases step with
          | act acted => exact ih _ _ (holds.2 _ _ acted)

end Loops

/-! ### A program run once

It runs to its end, or is cut off before one of its operations. -/

section Once

variable {effect : Effect σ Op Answer} {C : σ → Prop} {Q : α → σ → Prop} {E : ε → σ → Prop}

inductive Ran (effect : Effect σ Op Answer) :
    Program Op Answer ε α → σ → Option (Except ε α) → σ → Prop
  | cut {program : Program Op Answer ε α} {s : σ} : Ran effect program s none s
  | done {value : α} {s : σ} : Ran effect (done value) s (some (.ok value)) s
  | stop {reason : ε} {s : σ} : Ran effect (stop reason) s (some (.error reason)) s
  | act {op : Op} {next : Answer op → Program Op Answer ε α} {s s' s'' : σ} {answer : Answer op}
      {outcome : Option (Except ε α)} : effect s op s' answer →
      Ran effect (next answer) s' outcome s'' → Ran effect (ask op next) s outcome s''

/-- What is known where the program ends, or where it was cut off. -/
theorem Holds.ran {program : Program Op Answer ε α} {s s' : σ} {outcome : Option (Except ε α)}
    (holds : Holds effect C Q E program s) (ran : Ran effect program s outcome s')
    {P : Option (Except ε α) → σ → Prop} (cut : ∀ s, C s → P none s)
    (ended : ∀ value s, Q value s → P none s ∧ P (some (.ok value)) s)
    (stopped : ∀ reason s, E reason s → P none s ∧ P (some (.error reason)) s) :
    P outcome s' := by
  induction ran with
  | @cut program s =>
      cases program with
      | done value => exact (ended value s holds).1
      | stop reason => exact (stopped reason s holds).1
      | ask op next => exact cut s holds.1
  | done => exact (ended _ _ holds).2
  | stop => exact (stopped _ _ holds).2
  | act acted _ ih => exact ih (holds.2 _ _ acted)

/-- Where every operation can act, some run reaches the end. -/
theorem Holds.ends (total : ∀ s op, ∃ s' answer, effect s op s' answer)
    {program : Program Op Answer ε α} {s : σ} (holds : Holds effect C Q E program s) :
    (∃ value s', Ran effect program s (some (.ok value)) s' ∧ Q value s') ∨
      ∃ reason s', Ran effect program s (some (.error reason)) s' ∧ E reason s' := by
  induction program generalizing s with
  | done value => exact Or.inl ⟨value, s, Ran.done, holds⟩
  | stop reason => exact Or.inr ⟨reason, s, Ran.stop, holds⟩
  | ask op next ih =>
      obtain ⟨s', answer, acted⟩ := total s op
      rcases ih answer (holds.2 s' answer acted) with ⟨value, last, ran, ended⟩ | ⟨reason, last, ran, ended⟩
      · exact Or.inl ⟨value, last, Ran.act acted ran, ended⟩
      · exact Or.inr ⟨reason, last, Ran.act acted ran, ended⟩

end Once

end AtrexAgent.Interaction
