import Mathlib.Data.List.Forall2

/-! Traversals of a list by a function that may fail: a traversal that succeeds has
succeeded at every element, in order. -/

namespace AtrexAgent

variable {α β γ ε : Type}

theorem bind_ok_iff (x : Except ε α) (f : α → Except ε β) (y : β) :
    (x >>= f) = .ok y ↔ ∃ a, x = .ok a ∧ f a = .ok y := by
  cases x with
  | error e => simp [bind, Except.bind]
  | ok a => simp [bind, Except.bind]

theorem mapM_ok_iff (f : α → Except ε β) (xs : List α) (ys : List β) :
    xs.mapM f = .ok ys ↔ List.Forall₂ (fun x y => f x = .ok y) xs ys := by
  induction xs generalizing ys with
  | nil =>
      rw [List.mapM_nil, List.forall₂_nil_left_iff]
      constructor
      · intro done
        cases done
        rfl
      · rintro rfl
        rfl
  | cons x xs ih =>
      rw [List.mapM_cons, List.forall₂_cons_left_iff]
      constructor
      · intro done
        cases here : f x with
        | error e =>
            rw [here] at done
            cases done
        | ok y =>
            cases rest : xs.mapM f with
            | error e =>
                rw [here, rest] at done
                cases done
            | ok values =>
                rw [here, rest] at done
                cases done
                exact ⟨y, values, rfl, (ih values).mp rest, rfl⟩
      · rintro ⟨y, values, here, rest, rfl⟩
        rw [here, (ih values).mpr rest]
        rfl

theorem mapM_of_ok (f : α → Except ε β) (xs : List α) (defined : ∀ x ∈ xs, ∃ y, f x = .ok y) :
    ∃ ys, xs.mapM f = .ok ys := by
  induction xs with
  | nil => exact ⟨[], rfl⟩
  | cons x xs ih =>
      obtain ⟨y, here⟩ := defined x List.mem_cons_self
      obtain ⟨ys, rest⟩ := ih fun x member => defined x (List.mem_cons_of_mem _ member)
      refine ⟨y :: ys, ?_⟩
      rw [List.mapM_cons, here, rest]
      rfl

theorem mapM_some_iff (f : α → Option β) (xs : List α) (ys : List β) :
    xs.mapM f = some ys ↔ List.Forall₂ (fun x y => f x = some y) xs ys := by
  induction xs generalizing ys with
  | nil =>
      rw [List.mapM_nil, List.forall₂_nil_left_iff]
      simp [eq_comm]
  | cons x xs ih =>
      rw [List.mapM_cons, List.forall₂_cons_left_iff]
      constructor
      · intro done
        obtain ⟨y, here, done⟩ := Option.bind_eq_some_iff.mp done
        obtain ⟨values, rest, done⟩ := Option.bind_eq_some_iff.mp done
        cases done
        exact ⟨y, values, here, (ih values).mp rest, rfl⟩
      · rintro ⟨y, values, here, rest, rfl⟩
        rw [here, (ih values).mpr rest]
        rfl

theorem mapM_of_isSome (f : α → Option β) (xs : List α) (defined : ∀ x ∈ xs, (f x).isSome) :
    ∃ ys, xs.mapM f = some ys := by
  induction xs with
  | nil => exact ⟨[], rfl⟩
  | cons x xs ih =>
      obtain ⟨y, here⟩ := Option.isSome_iff_exists.mp (defined x List.mem_cons_self)
      obtain ⟨ys, rest⟩ := ih fun x member => defined x (List.mem_cons_of_mem _ member)
      exact ⟨y :: ys, by simp [List.mapM_cons, here, rest]⟩

theorem forM_ok_iff (f : α → Except ε Unit) (xs : List α) :
    xs.forM f = .ok () ↔ ∀ x ∈ xs, f x = .ok () := by
  induction xs with
  | nil => simp [pure, Except.pure]
  | cons x xs ih =>
      rw [List.forM_eq_forM, List.forM_cons]
      rw [List.forM_eq_forM] at ih
      cases here : f x with
      | error e => simp [bind, Except.bind, here]
      | ok u =>
          have next : (Except.ok u >>= fun _ => forM xs f) = forM xs f := rfl
          rw [next, ih]
          simp [here]

theorem forall₂_mem_left {R : α → β → Prop} {xs : List α} {ys : List β}
    (related : List.Forall₂ R xs ys) : ∀ x ∈ xs, ∃ y ∈ ys, R x y := by
  induction related with
  | nil => simp
  | cons here _ ih =>
      intro x member
      rcases List.mem_cons.mp member with rfl | later
      · exact ⟨_, List.mem_cons_self, here⟩
      · obtain ⟨y, present, holds⟩ := ih x later
        exact ⟨y, List.mem_cons_of_mem _ present, holds⟩

theorem forall₂_mem_right {R : α → β → Prop} {xs : List α} {ys : List β}
    (related : List.Forall₂ R xs ys) : ∀ y ∈ ys, ∃ x ∈ xs, R x y :=
  forall₂_mem_left related.flip

theorem forall₂_and {R S : α → β → Prop} {xs : List α} {ys : List β}
    (first : List.Forall₂ R xs ys) (second : List.Forall₂ S xs ys) :
    List.Forall₂ (fun x y => R x y ∧ S x y) xs ys := by
  induction first with
  | nil => exact .nil
  | cons here _ ih =>
      cases second with
      | cons here' rest' => exact .cons ⟨here, here'⟩ (ih rest')

theorem forall₂_imp_mem {R S : α → β → Prop} {xs : List α} {ys : List β}
    (related : List.Forall₂ R xs ys) (imp : ∀ x ∈ xs, ∀ y, R x y → S x y) :
    List.Forall₂ S xs ys := by
  induction related with
  | nil => exact .nil
  | cons here _ ih =>
      exact .cons (imp _ List.mem_cons_self _ here)
        (ih fun x member => imp x (List.mem_cons_of_mem _ member))

theorem forall₂_compose {R : α → β → Prop} {S : β → γ → Prop} {xs : List α} {ys : List β}
    {zs : List γ} (first : List.Forall₂ R xs ys) (second : List.Forall₂ S ys zs) :
    List.Forall₂ (fun x z => ∃ y, R x y ∧ S y z) xs zs := by
  induction first generalizing zs with
  | nil =>
      cases second
      exact .nil
  | cons here _ ih =>
      cases second with
      | cons next rest => exact .cons ⟨_, here, next⟩ (ih rest)

theorem forall₂_split {R : α → β → Prop} {xs xs' : List α} {x : α} {zs : List β}
    (related : List.Forall₂ R (xs ++ x :: xs') zs) :
    ∃ ys y ys', zs = ys ++ y :: ys' ∧ List.Forall₂ R xs ys ∧ R x y ∧ List.Forall₂ R xs' ys' := by
  induction xs generalizing zs with
  | nil =>
      cases related with
      | cons here rest => exact ⟨[], _, _, rfl, .nil, here, rest⟩
  | cons first xs ih =>
      cases related with
      | cons here rest =>
          obtain ⟨ys, y, ys', rfl, left, middle, right⟩ := ih rest
          exact ⟨_ :: ys, y, ys', rfl, .cons here left, middle, right⟩

end AtrexAgent
