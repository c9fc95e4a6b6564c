import Mathlib.Data.Finset.Card
import Mathlib.Logic.Relation

/-! An acyclic relation on finitely many elements has a rank that rises along it
and stays below their number. -/

namespace AtrexAgent.Rank

variable {α : Type}

/-- The rank of an element: how many elements lead to it. -/
theorem exists_rank (elements : Finset α) (feeds : α → α → Prop)
    (acyclic : ∀ a, ¬ Relation.TransGen feeds a a) :
    ∃ rank : α → Nat, (∀ a ∈ elements, rank a < elements.card) ∧
      ∀ a ∈ elements, ∀ b, feeds a b → rank a < rank b := by
  classical
  let above (a : α) : Finset α := elements.filter fun b => Relation.TransGen feeds b a
  use fun a => (above a).card
  constructor
  · intro a member
    apply Finset.card_lt_card
    rw [Finset.ssubset_iff_of_subset (Finset.filter_subset _ _)]
    use a, member
    intro inside
    exact acyclic a (Finset.mem_filter.mp inside).2
  · intro a member b edge
    apply Finset.card_lt_card
    have included : above a ⊆ above b := by
      intro c inside
      have path := (Finset.mem_filter.mp inside).2
      exact Finset.mem_filter.mpr ⟨(Finset.mem_filter.mp inside).1, path.tail edge⟩
    rw [Finset.ssubset_iff_of_subset included]
    use a, Finset.mem_filter.mpr ⟨member, Relation.TransGen.single edge⟩
    intro inside
    exact acyclic a (Finset.mem_filter.mp inside).2

end AtrexAgent.Rank
