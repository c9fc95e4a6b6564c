import Mathlib.Data.List.Basic
import Mathlib.Logic.Relation

/-! Step relations, the states their runs reach, and the histories runs leave
behind: lists of events, newest first, each allowed by what came before it. -/

namespace AtrexAgent.Transition

variable {σ ε κ : Type}

inductive Reachable (initial : σ → Prop) (step : σ → σ → Prop) : σ → Prop
  | initial {s : σ} : initial s → Reachable initial step s
  | step {s s' : σ} : Reachable initial step s → step s s' → Reachable initial step s'

variable {initial : σ → Prop} {step : σ → σ → Prop}

theorem Reachable.invariant {I : σ → Prop} (start : ∀ s, initial s → I s)
    (preserved : ∀ s s', I s → step s s' → I s') {s : σ} (reach : Reachable initial step s) :
    I s := by
  induction reach with
  | initial holds => exact start _ holds
  | step _ taken ih => exact preserved _ _ ih taken

theorem Reachable.run {s s' : σ} (reach : Reachable initial step s)
    (steps : Relation.ReflTransGen step s s') : Reachable initial step s' := by
  induction steps with
  | refl => exact reach
  | tail _ taken ih => exact ih.step taken

/-- Every event was allowed by the history before it. -/
def Lawful (law : List ε → ε → Prop) : List ε → Prop
  | [] => True
  | event :: before => law before event ∧ Lawful law before

variable {law : List ε → ε → Prop}

@[simp] theorem lawful_nil : Lawful law [] := trivial

@[simp] theorem lawful_cons (event : ε) (before : List ε) :
    Lawful law (event :: before) ↔ law before event ∧ Lawful law before := Iff.rfl

theorem Lawful.before {after before : List ε} (lawful : Lawful law (after ++ before)) :
    Lawful law before := by
  induction after with
  | nil => exact lawful
  | cons _ _ ih => exact ih lawful.2

theorem Lawful.at {after before : List ε} {event : ε}
    (lawful : Lawful law (after ++ event :: before)) : law before event :=
  lawful.before.1

/-- What the law said when an event happened, of a history that held by then. -/
theorem Lawful.of_mem {log : List ε} (lawful : Lawful law log) {event : ε} (member : event ∈ log) :
    ∃ after before, log = after ++ event :: before ∧ law before event ∧ Lawful law before := by
  obtain ⟨after, before, rfl⟩ := List.append_of_mem member
  exact ⟨after, before, rfl, lawful.at, lawful.before.2⟩

theorem Lawful.imp {law' : List ε → ε → Prop} (weaker : ∀ before event, law before event →
    law' before event) {log : List ε} (lawful : Lawful law log) : Lawful law' log := by
  induction log with
  | nil => trivial
  | cons event before ih => exact ⟨weaker _ _ lawful.1, ih lawful.2⟩

/-- Events that the law allows only while fewer of their kind than a bound have happened are never more. -/
theorem Lawful.countP_le {kind : ε → Bool} {bound : Nat}
    (below : ∀ before event, law before event → kind event = true → before.countP kind < bound) {log : List ε}
    (lawful : Lawful law log) : log.countP kind ≤ bound := by
  induction log with
  | nil => exact Nat.zero_le _
  | cons event before ih =>
      by_cases of_kind : kind event = true
      · rw [List.countP_cons_of_pos of_kind]
        exact below before event lawful.1 of_kind
      · rw [List.countP_cons_of_neg of_kind]
        exact ih lawful.2

/-- Events that the law allows only where no event of their key happened before
have different keys. -/
theorem Lawful.nodup_keys {key : ε → Option κ}
    (fresh : ∀ before event k, law before event → key event = some k →
      ∀ earlier ∈ before, key earlier ≠ some k) {log : List ε} (lawful : Lawful law log) :
    (log.filterMap key).Nodup := by
  induction log with
  | nil => simp
  | cons event before ih =>
      have rest := ih lawful.2
      cases found : key event with
      | none => simpa [found] using rest
      | some k =>
          rw [List.filterMap_cons_some found, List.nodup_cons]
          constructor
          · intro member
            obtain ⟨earlier, within, same⟩ := List.mem_filterMap.mp member
            exact fresh before event k lawful.1 found earlier within same
          · exact rest

end AtrexAgent.Transition
