import AtrexAgent.Library.JsonText

/-! The text of an encoded object, member by member. -/

namespace AtrexAgent.Json

variable {F : Type} [FloatText F]

/-- A member as it is written first. -/
def memberText (item : String × Json F) : Text := quoted item.1.toList ++ (':' :: ' ' :: dumps item.2)

/-- A member as it is written after another one. -/
def furtherMember (item : String × Json F) : Text := ',' :: ' ' :: memberText item

theorem dumpsMembers_cons (item : String × Json F) (items : Dict F) :
    dumpsMembers (item :: items) = memberText item ++ items.flatMap furtherMember := by
  induction items generalizing item with
  | nil => simp [dumpsMembers, memberText]
  | cons next items ih =>
      rw [dumpsMembers, ih, List.flatMap_cons, furtherMember, if_neg (by simp), memberText]
      simp [memberText]

/-- Members written after the first ones. -/
theorem dumpsMembers_append {items : Dict F} (some_item : items ≠ []) (more : Dict F) :
    dumpsMembers (items ++ more) = dumpsMembers items ++ more.flatMap furtherMember := by
  cases items with
  | nil => exact absurd rfl some_item
  | cons item items => rw [List.cons_append, dumpsMembers_cons, dumpsMembers_cons, List.flatMap_append, List.append_assoc]

end AtrexAgent.Json
