import Mathlib.Data.List.Basic

/-! Interleavings of threads: where steps of different threads commute, it does not matter how the
threads are interleaved. -/

namespace AtrexAgent.Interleaving

variable {ι α σ : Type} [DecidableEq ι]

/-- The items of a thread, in their order. -/
def thread (i : ι) (items : List (ι × α)) : List α := items.filterMap fun item => if item.1 = i then some item.2 else none

theorem thread_cons_same (item : ι × α) (items : List (ι × α)) : thread item.1 (item :: items) = item.2 :: thread item.1 items :=
  List.filterMap_cons_some (if_pos rfl)

theorem thread_cons_other {i : ι} {item : ι × α} (other : item.1 ≠ i) (items : List (ι × α)) : thread i (item :: items) = thread i items :=
  List.filterMap_cons_none (if_neg other)

theorem thread_append (i : ι) (items more : List (ι × α)) : thread i (items ++ more) = thread i items ++ thread i more :=
  List.filterMap_append

theorem mem_thread {i : ι} {a : α} {items : List (ι × α)} : a ∈ thread i items ↔ (i, a) ∈ items := by
  unfold thread
  rw [List.mem_filterMap]
  constructor
  · rintro ⟨item, member, here⟩
    split at here
    · rename_i same
      cases here
      exact same ▸ member
    · cases here
  · intro member
    exact ⟨(i, a), member, if_pos rfl⟩

/-- Two lists interleave the same threads. -/
def Alike (items items' : List (ι × α)) : Prop := ∀ i, thread i items = thread i items'

theorem Alike.mem {items items' : List (ι × α)} (alike : Alike items items') {item : ι × α} (member : item ∈ items') : item ∈ items := by
  have here := mem_thread.mpr member
  rw [← alike item.1] at here
  exact mem_thread.mp here

/-- The first item of one interleaving is in the other one, with no item of its thread before it. -/
theorem Alike.split {item : ι × α} {items items' : List (ι × α)} (alike : Alike (item :: items) items') :
    ∃ before after, items' = before ++ item :: after ∧ (∀ earlier ∈ before, earlier.1 ≠ item.1) ∧ Alike items (before ++ after) := by
  have present : ∃ before after, items' = before ++ item :: after ∧ ∀ earlier ∈ before, earlier.1 ≠ item.1 := by
    have first : thread item.1 items' = item.2 :: thread item.1 items := (alike item.1).symm.trans (thread_cons_same item items)
    clear alike
    induction items' with
    | nil => cases first
    | cons head rest ih =>
        by_cases same : head.1 = item.1
        · have heads : head.2 = item.2 := by
            have whole := (thread_cons_same head rest).symm.trans (same ▸ first)
            exact (List.cons.inj whole).1
          exact ⟨[], rest, by rw [Prod.ext same heads]; rfl, by simp⟩
        · rw [thread_cons_other same] at first
          obtain ⟨before, after, rfl, others⟩ := ih first
          refine ⟨head :: before, after, rfl, ?_⟩
          rw [List.forall_mem_cons]
          exact ⟨same, others⟩
  obtain ⟨before, after, rfl, others⟩ := present
  refine ⟨before, after, rfl, others, fun i => ?_⟩
  have here := alike i
  rw [thread_append] at here ⊢
  by_cases same : item.1 = i
  · subst same
    have none_before : thread item.1 before = [] := by
      rw [List.eq_nil_iff_forall_not_mem]
      exact fun a member => others _ (mem_thread.mp member) rfl
    rw [thread_cons_same, thread_cons_same, none_before] at here
    rw [none_before]
    exact (List.cons.inj here).2
  · rw [thread_cons_other same, thread_cons_other same] at here
    exact here

section Fold

variable {step : σ → ι × α → σ}

omit [DecidableEq ι] in
/-- A step is taken before those that it commutes with. -/
theorem foldl_forward {item : ι × α} {before : List (ι × α)}
    (commute : ∀ earlier ∈ before, ∀ s, step (step s earlier) item = step (step s item) earlier) (s : σ) (after : List (ι × α)) :
    (before ++ item :: after).foldl step s = (before ++ after).foldl step (step s item) := by
  induction before generalizing s with
  | nil => rfl
  | cons head rest ih =>
      rw [List.cons_append, List.foldl_cons, ih fun earlier member => commute earlier (List.mem_cons_of_mem _ member),
        commute head List.mem_cons_self]
      rfl

/-- How threads are interleaved does not matter where their steps commute. -/
theorem foldl_alike {items items' : List (ι × α)} (alike : Alike items items')
    (commute : ∀ x ∈ items, ∀ y ∈ items, x.1 ≠ y.1 → ∀ s, step (step s x) y = step (step s y) x) (s : σ) :
    items.foldl step s = items'.foldl step s := by
  induction items generalizing items' s with
  | nil =>
      have empty : items' = [] := by
        rw [List.eq_nil_iff_forall_not_mem]
        exact fun item member => List.not_mem_nil (alike.mem member)
      rw [empty]
  | cons item rest ih =>
      obtain ⟨before, after, rfl, others, alike'⟩ := alike.split
      have here : ∀ earlier ∈ before, ∀ s, step (step s earlier) item = step (step s item) earlier := by
        intro earlier member
        have known := alike.mem (List.mem_append_left (item :: after) member)
        exact commute earlier known item List.mem_cons_self (others earlier member)
      calc
        (item :: rest).foldl step s = rest.foldl step (step s item) := rfl
        _ = (before ++ after).foldl step (step s item) :=
          ih alike' (fun x hx y hy => commute x (List.mem_cons_of_mem _ hx) y (List.mem_cons_of_mem _ hy)) (step s item)
        _ = (before ++ item :: after).foldl step s := (foldl_forward here s after).symm

end Fold

end AtrexAgent.Interleaving
