import Mathlib.Data.List.Basic

/-! A component whose state is filled once, by the first call that needs it: when do its answers not depend on earlier calls? -/

namespace AtrexAgent.Warmup

variable {σ ι ο : Type}

/-- The answers to calls, one after the other. -/
def answers (call : σ → ι → ο × σ) : σ → List ι → List ο
  | _, [] => []
  | state, input :: inputs => (call state input).1 :: answers call (call state input).2 inputs

/-- A call that `asks` takes the cold state to the warm one, where it stays; the others neither change nor see the state. -/
structure Fills (call : σ → ι → ο × σ) (asks : ι → Bool) (cold warm : σ) : Prop where
  idle : ∀ input, asks input = false → (call cold input).2 = cold
  asked : ∀ input, asks input = true → (call cold input).2 = warm
  stays : ∀ input, (call warm input).2 = warm
  blind : ∀ input, asks input = false → (call warm input).1 = (call cold input).1

variable {call : σ → ι → ο × σ} {asks : ι → Bool} {cold warm : σ}

theorem Fills.warm_answers (fills : Fills call asks cold warm) (inputs : List ι) :
    answers call warm inputs = inputs.map fun input => (call warm input).1 := by
  induction inputs with
  | nil => rfl
  | cons input inputs ih => rw [answers, fills.stays, ih, List.map_cons]

/-- Where the warm state answers as the cold one does, no call depends on the ones before it. -/
theorem Fills.answers_of_agree (fills : Fills call asks cold warm)
    (agree : ∀ input, asks input = true → (call warm input).1 = (call cold input).1) (inputs : List ι) :
    answers call cold inputs = inputs.map fun input => (call cold input).1 := by
  have same (input : ι) : (call warm input).1 = (call cold input).1 := by
    cases asked : asks input with
    | false => exact fills.blind input asked
    | true => exact agree input asked
  induction inputs with
  | nil => rfl
  | cons input inputs ih =>
      rw [answers, List.map_cons]
      cases asked : asks input with
      | false => rw [fills.idle input asked, ih]
      | true => rw [fills.asked input asked, fills.warm_answers, List.map_congr_left fun input _ => same input]

/-- Where it always answers otherwise, the first call that asks is the last one that may. -/
theorem Fills.answers_iff_of_differ (fills : Fills call asks cold warm)
    (differ : ∀ input, asks input = true → (call warm input).1 ≠ (call cold input).1) (inputs : List ι) :
    answers call cold inputs = (inputs.map fun input => (call cold input).1) ↔ inputs.countP asks ≤ 1 := by
  induction inputs with
  | nil => simp [answers]
  | cons input inputs ih =>
      rw [answers, List.map_cons, List.cons.injEq, List.countP_cons]
      cases asked : asks input with
      | false =>
          rw [fills.idle input asked, ih]
          simp
      | true =>
          rw [fills.asked input asked, fills.warm_answers, List.map_inj_left]
          have none_left : (∀ other ∈ inputs, (call warm other).1 = (call cold other).1) ↔ inputs.countP asks = 0 := by
            rw [List.countP_eq_zero]
            constructor
            · intro same other member asks_too
              exact differ other asks_too (same other member)
            · intro none_asks other member
              exact fills.blind other (Bool.not_eq_true _ ▸ none_asks other member)
          rw [none_left]
          simp

end AtrexAgent.Warmup
