import Mathlib.Data.List.Basic

/-! JSON values as a dynamic language holds them: an object is a list of items in
insertion order, integers are unbounded, and floats are of a type `F`. -/

namespace AtrexAgent

inductive Json (F : Type) where
  | null
  | bool (value : Bool)
  | int (value : Int)
  | float (value : F)
  | str (value : String)
  | arr (items : List (Json F))
  | obj (items : List (String × Json F))

namespace Json

variable {F : Type}

/-- The items of a dict. -/
abbrev Dict (F : Type) := List (String × Json F)

def find? (d : Dict F) (key : String) : Option (Json F) :=
  (List.find? (fun item => item.1 = key) d).map Prod.snd

/-- `d.get(key)`. -/
def get (d : Dict F) (key : String) : Json F := (find? d key).getD .null

/-- `d[key] = value`. -/
def set (d : Dict F) (key : String) (value : Json F) : Dict F :=
  if d.any (fun item => item.1 = key) then
    d.map fun item => if item.1 = key then (key, value) else item
  else d ++ [(key, value)]

/-- `d.update(changes)`. -/
def update (d changes : Dict F) : Dict F :=
  changes.foldl (fun d item => set d item.1 item.2) d

@[simp] theorem find?_nil (key : String) : find? ([] : Dict F) key = none := rfl

@[simp] theorem find?_cons (item : String × Json F) (d : Dict F) (key : String) :
    find? (item :: d) key = if item.1 = key then some item.2 else find? d key := by
  unfold find?
  rw [List.find?_cons]
  by_cases same : item.1 = key
  · simp [same]
  · simp [same]

theorem find?_append (d d' : Dict F) (key : String) :
    find? (d ++ d') key = (find? d key).or (find? d' key) := by
  induction d with
  | nil => simp
  | cons item rest ih =>
      rw [List.cons_append, find?_cons, find?_cons]
      split
      · simp
      · exact ih

theorem find?_eq_none (d : Dict F) (key : String) :
    find? d key = none ↔ ∀ item ∈ d, item.1 ≠ key := by
  unfold find?
  simp

theorem find?_map_set (d : Dict F) (key other : String) (value : Json F) :
    find? (d.map fun item => if item.1 = key then (key, value) else item) other =
      if other = key then (find? d key).map fun _ => value else find? d other := by
  induction d with
  | nil => simp
  | cons item rest ih =>
      rw [List.map_cons, find?_cons, ih, find?_cons, find?_cons]
      by_cases here : item.1 = key
      · subst here
        by_cases same : item.1 = other
        · simp [same]
        · have other_way : other ≠ item.1 := fun h => same h.symm
          simp [same, other_way]
      · by_cases same : item.1 = other
        · subst same
          simp [here]
        · simp [here, same]

/-- Reading after writing. -/
@[simp] theorem find?_set (d : Dict F) (key other : String) (value : Json F) :
    find? (set d key value) other = if other = key then some value else find? d other := by
  unfold set
  split
  · rename_i present
    rw [find?_map_set]
    split
    · obtain ⟨item, member, same⟩ := List.any_eq_true.mp present
      have found : find? d key ≠ none := by
        rw [Ne, find?_eq_none]
        exact fun absent => absent item member (by simpa using same)
      obtain ⟨old, found⟩ := Option.ne_none_iff_exists'.mp found
      rw [found]
      rfl
    · rfl
  · rename_i absent
    rw [find?_append]
    by_cases same : other = key
    · have missing : find? d other = none := by
        rw [find?_eq_none]
        intro item member here
        apply absent
        rw [List.any_eq_true]
        exact ⟨item, member, by simpa [same] using here⟩
      rw [missing, if_pos same]
      simp [same]
    · have other_way : key ≠ other := fun h => same h.symm
      simp [same, other_way]

@[simp] theorem get_set (d : Dict F) (key other : String) (value : Json F) :
    get (set d key value) other = if other = key then value else get d other := by
  unfold get
  rw [find?_set]
  split <;> rfl

@[simp] theorem get_cons (item : String × Json F) (d : Dict F) (key : String) :
    get (item :: d) key = if item.1 = key then item.2 else get d key := by
  unfold get
  rw [find?_cons]
  split <;> rfl

@[simp] theorem update_nil (d : Dict F) : update d [] = d := rfl

@[simp] theorem update_cons (d : Dict F) (item : String × Json F) (changes : Dict F) :
    update d (item :: changes) = update (set d item.1 item.2) changes := rfl

theorem update_append (d changes more : Dict F) : update d (changes ++ more) = update (update d changes) more := List.foldl_append

theorem find?_update_other {key : String} (d : Dict F) {changes : Dict F} (other : ∀ item ∈ changes, item.1 ≠ key) :
    find? (update d changes) key = find? d key := by
  induction changes generalizing d with
  | nil => rfl
  | cons item changes ih =>
      rw [update_cons, ih _ fun item member => other item (List.mem_cons_of_mem _ member), find?_set,
        if_neg fun same => other item List.mem_cons_self same.symm]

end Json

end AtrexAgent
