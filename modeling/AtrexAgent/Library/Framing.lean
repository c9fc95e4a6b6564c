import Mathlib.Data.List.TakeWhile
import Mathlib.Data.List.Infix

/-! Lines of a stream that arrives in parts. Lines above a limit are left out, also where only a part
of one is there yet. -/

namespace AtrexAgent.Framing

variable {β : Type} [DecidableEq β] (newline : β)

/-- The first line, with its newline, and what comes after it. -/
def cut (s : List β) : Option (List β × List β) :=
  (s.findIdx? (· = newline)).map fun n => (s.take (n + 1), s.drop (n + 1))

theorem cut_cons (c : β) (s : List β) : cut newline (c :: s) =
    if c = newline then some ([c], s) else (cut newline s).map fun parts => (c :: parts.1, parts.2) := by
  unfold cut
  rw [List.findIdx?_cons]
  by_cases here : c = newline
  · simp [here]
  · simp [here, Option.map_map, Function.comp_def]

theorem cut_some {s line rest : List β} (found : cut newline s = some (line, rest)) :
    s = line ++ rest ∧ line ≠ [] ∧ rest.length < s.length := by
  obtain ⟨n, index, parts⟩ := Option.map_eq_some_iff.mp found
  obtain ⟨rfl, rfl⟩ := Prod.mk.inj parts
  have inside := (List.findIdx?_eq_some_iff_findIdx_eq.mp index).1
  refine ⟨(List.take_append_drop _ _).symm, ?_, ?_⟩
  · rw [Ne, List.take_eq_nil_iff]
    rintro (zero | empty)
    · exact absurd zero (by omega)
    · simp [empty] at inside
  · rw [List.length_drop]
    omega

theorem cut_append {s line rest : List β} (found : cut newline s = some (line, rest)) (t : List β) :
    cut newline (s ++ t) = some (line, rest ++ t) := by
  induction s generalizing line with
  | nil => simp [cut] at found
  | cons c s ih =>
      rw [cut_cons] at found
      rw [List.cons_append, cut_cons]
      split at found
      · cases found
        simp_all
      · rename_i other
        obtain ⟨⟨first, later⟩, inside, parts⟩ := Option.map_eq_some_iff.mp found
        obtain ⟨rfl, rfl⟩ := Prod.mk.inj parts
        rw [if_neg other, ih inside]
        rfl

theorem cut_open {s : List β} (unfinished : cut newline s = none) (t : List β) :
    cut newline (s ++ t) = (cut newline t).map fun parts => (s ++ parts.1, parts.2) := by
  induction s with
  | nil => simp
  | cons c s ih =>
      rw [cut_cons] at unfinished
      rw [List.cons_append, cut_cons]
      split at unfinished
      · cases unfinished
      · rename_i other
        rw [if_neg other, ih (Option.map_eq_none_iff.mp unfinished), Option.map_map]
        rfl

/-! ### The lines within a limit -/

variable (limit : Nat)

/-- The lines of a text that are complete and within the limit; of the first one a part may have been
thrown away. -/
def lines (skip : Bool) (s : List β) : List (List β) :=
  match found : cut newline s with
  | none => []
  | some (line, rest) =>
      have := (cut_some newline found).2.2
      if skip || limit < line.length then lines false rest else line :: lines false rest
termination_by s.length

/-- The line that is not complete, if it is within the limit so far. -/
def leftover (skip : Bool) (s : List β) : List β :=
  match found : cut newline s with
  | none => if skip || limit < s.length then [] else s
  | some (_, rest) =>
      have := (cut_some newline found).2.2
      leftover false rest
termination_by s.length

variable {newline limit} {s t line rest : List β} {skip : Bool}

theorem lines_open (unfinished : cut newline s = none) : lines newline limit skip s = [] := by
  rw [lines]
  split
  · rfl
  · rename_i found
    rw [unfinished] at found
    cases found

theorem lines_cut (found : cut newline s = some (line, rest)) : lines newline limit skip s =
    if skip || limit < line.length then lines newline limit false rest
    else line :: lines newline limit false rest := by
  rw [lines]
  split
  · rename_i none
    rw [found] at none
    cases none
  · rename_i other
    rw [found] at other
    cases other
    rfl

theorem leftover_open (unfinished : cut newline s = none) :
    leftover newline limit skip s = if skip || limit < s.length then [] else s := by
  rw [leftover]
  split
  · rfl
  · rename_i found
    rw [unfinished] at found
    cases found

theorem leftover_cut (found : cut newline s = some (line, rest)) :
    leftover newline limit skip s = leftover newline limit false rest := by
  rw [leftover]
  split
  · rename_i none
    rw [found] at none
    cases none
  · rename_i other
    rw [found] at other
    cases other
    rfl

/-- A part of a line that is left out can be thrown away. -/
theorem lines_thrown (unfinished : cut newline s = none) (out : skip = true ∨ limit < s.length) :
    lines newline limit skip (s ++ t) = lines newline limit true t := by
  have parts := cut_open newline unfinished t
  cases later : cut newline t with
  | none =>
      rw [later] at parts
      rw [lines_open parts, lines_open later]
  | some pair =>
      rw [later] at parts
      rw [lines_cut parts, lines_cut later, if_pos, if_pos (by simp)]
      rcases out with skips | long
      · simp [skips]
      · simp only [List.length_append, Bool.or_eq_true, decide_eq_true_eq]
        exact .inr (by omega)

theorem leftover_thrown (unfinished : cut newline s = none) (out : skip = true ∨ limit < s.length) :
    leftover newline limit skip (s ++ t) = leftover newline limit true t := by
  have parts := cut_open newline unfinished t
  cases later : cut newline t with
  | none =>
      rw [later] at parts
      rw [leftover_open parts, leftover_open later, if_pos, if_pos (by simp)]
      rcases out with skips | long
      · simp [skips]
      · simp only [List.length_append, Bool.or_eq_true, decide_eq_true_eq]
        exact .inr (by omega)
  | some pair =>
      rw [later] at parts
      rw [leftover_cut parts, leftover_cut later]

/-! ### All lines -/

variable (newline) in
/-- The complete lines of a text. -/
def allLines (s : List β) : List (List β) :=
  match found : cut newline s with
  | none => []
  | some (line, rest) =>
      have := (cut_some newline found).2.2
      line :: allLines rest
termination_by s.length

theorem allLines_open (unfinished : cut newline s = none) : allLines newline s = [] := by
  rw [allLines]
  split
  · rfl
  · rename_i found
    rw [unfinished] at found
    cases found

theorem allLines_cut (found : cut newline s = some (line, rest)) : allLines newline s = line :: allLines newline rest := by
  rw [allLines]
  split
  · rename_i none
    rw [found] at none
    cases none
  · rename_i other
    rw [found] at other
    cases other
    rfl

/-- The lines above the limit are left out, and only those. -/
theorem lines_eq_filter (s : List β) :
    lines newline limit false s = (allLines newline s).filter (·.length ≤ limit) := by
  induction size : s.length using Nat.strong_induction_on generalizing s with
  | h n ih =>
      cases found : cut newline s with
      | none => rw [lines_open found, allLines_open found, List.filter_nil]
      | some parts =>
          have shorter := (cut_some newline found).2.2
          rw [lines_cut found, allLines_cut found, ih _ (size ▸ shorter) _ rfl, List.filter_cons]
          by_cases long : limit < parts.1.length
          · simp [long]
          · simp [long, Nat.le_of_not_lt long]

/-- No part of a text is in two lines, and the lines are in order. -/
theorem lines_sublist (s : List β) (skip : Bool) :
    ((lines newline limit skip s).flatten ++ leftover newline limit skip s).Sublist s := by
  induction size : s.length using Nat.strong_induction_on generalizing s skip with
  | h n ih =>
      cases found : cut newline s with
      | none =>
          rw [lines_open found, leftover_open found]
          split <;> simp
      | some parts =>
          obtain ⟨whole, -, shorter⟩ := cut_some newline found
          have later := ih _ (size ▸ shorter) parts.2 false rfl
          rw [lines_cut found, leftover_cut found]
          conv_rhs => rw [whole]
          split
          · exact later.trans (List.sublist_append_right _ _)
          · rw [List.flatten_cons, List.append_assoc]
            exact (List.Sublist.refl _).append later

end AtrexAgent.Framing
