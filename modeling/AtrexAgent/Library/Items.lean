import Mathlib.Data.List.Induction
import Mathlib.Data.List.Nodup

/-! Tables as lists of items in insertion order: reading, writing, removing and merging them. -/

namespace AtrexAgent.Items

variable {κ α : Type} [DecidableEq κ]

/-- `d.get(key)` -/
def get? (items : List (κ × α)) (key : κ) : Option α := (items.find? fun item => item.1 = key).map Prod.snd

/-- `d[key] = value` -/
def set (items : List (κ × α)) (key : κ) (value : α) : List (κ × α) :=
  if items.any (fun item => item.1 = key) then items.map fun item => if item.1 = key then (key, value) else item
  else items ++ [(key, value)]

/-- `del d[key]` -/
def remove (items : List (κ × α)) (key : κ) : List (κ × α) := items.filter fun item => item.1 ≠ key

/-- `d.update(changes)` -/
def update (items changes : List (κ × α)) : List (κ × α) := changes.foldl (fun items item => set items item.1 item.2) items

variable {items : List (κ × α)} {key other : κ} {value : α}

@[simp] theorem get?_nil (key : κ) : get? ([] : List (κ × α)) key = none := rfl

@[simp] theorem get?_cons (item : κ × α) (items : List (κ × α)) (key : κ) :
    get? (item :: items) key = if item.1 = key then some item.2 else get? items key := by
  unfold get?
  rw [List.find?_cons]
  by_cases same : item.1 = key
  · simp [same]
  · simp [same]

theorem get?_append (items more : List (κ × α)) (key : κ) : get? (items ++ more) key = (get? items key).or (get? more key) := by
  unfold get?
  rw [List.find?_append]
  cases items.find? fun item => item.1 = key <;> rfl

theorem get?_eq_none : get? items key = none ↔ ∀ item ∈ items, item.1 ≠ key := by
  rw [get?, Option.map_eq_none_iff, List.find?_eq_none]
  simp

theorem mem_of_get? (here : get? items key = some value) : (key, value) ∈ items := by
  obtain ⟨item, found, same⟩ := Option.map_eq_some_iff.mp here
  have at_key := List.find?_some found
  simp only [decide_eq_true_eq] at at_key
  rw [← at_key, ← same]
  exact List.mem_of_find?_eq_some found

theorem get?_map_other (items : List (κ × α)) (different : other ≠ key) (value : α) :
    get? (items.map fun item => if item.1 = key then (key, value) else item) other = get? items other := by
  induction items with
  | nil => rfl
  | cons item items ih =>
      rw [List.map_cons, get?_cons, get?_cons, ih]
      by_cases same : item.1 = key
      · simp [same, different.symm]
      · simp [same]

theorem get?_map_same (present : ∃ item ∈ items, item.1 = key) (value : α) :
    get? (items.map fun item => if item.1 = key then (key, value) else item) key = some value := by
  induction items with
  | nil => simp at present
  | cons item items ih =>
      rw [List.map_cons, get?_cons]
      by_cases same : item.1 = key
      · simp [same]
      · rw [if_neg same, if_neg same]
        apply ih
        simpa [same] using present

@[simp] theorem get?_set (items : List (κ × α)) (key other : κ) (value : α) :
    get? (set items key value) other = if other = key then some value else get? items other := by
  unfold set
  by_cases present : ∃ item ∈ items, item.1 = key
  · rw [if_pos (by simpa using present)]
    split
    · rename_i same
      rw [same, get?_map_same present]
    · rename_i different
      exact get?_map_other items different value
  · have absent : get? items key = none := get?_eq_none.mpr fun item member same => present ⟨item, member, same⟩
    rw [if_neg (by simpa using present), get?_append]
    by_cases same : other = key
    · rw [same, absent]
      simp
    · simp [same, Ne.symm same]

/-- What stays of a table where only some keys do. -/
theorem get?_filter (items : List (κ × α)) (p : κ → Bool) (key : κ) :
    get? (items.filter fun item => p item.1) key = if p key then get? items key else none := by
  induction items with
  | nil => simp
  | cons item items ih =>
      rw [List.filter_cons]
      by_cases same : item.1 = key
      · subst same
        by_cases kept : p item.1 = true <;> simp [kept, ih]
      · by_cases kept : p item.1 = true <;> simp [kept, ih, same]

@[simp] theorem get?_remove (items : List (κ × α)) (key other : κ) :
    get? (remove items key) other = if other = key then none else get? items other := by
  unfold remove
  rw [get?_filter items (fun key' => key' ≠ key) other]
  by_cases same : other = key <;> simp [same]

/-- The last one of the changes counts. -/
theorem get?_update (items changes : List (κ × α)) (key : κ) :
    get? (update items changes) key = (get? changes.reverse key).or (get? items key) := by
  induction changes generalizing items with
  | nil => rfl
  | cons item changes ih =>
      have step : update items (item :: changes) = update (set items item.1 item.2) changes := rfl
      rw [step, ih, get?_set, List.reverse_cons, get?_append, Option.or_assoc, get?_cons]
      congr 1
      by_cases same : item.1 = key
      · simp [same]
      · simp [same, Ne.symm same]

theorem get?_reverse (distinct : (items.map Prod.fst).Nodup) (key : κ) : get? items.reverse key = get? items key := by
  induction items with
  | nil => rfl
  | cons item items ih =>
      rw [List.map_cons, List.nodup_cons] at distinct
      rw [List.reverse_cons, get?_append, ih distinct.2, get?_cons, get?_cons, get?_nil]
      by_cases same : item.1 = key
      · have absent : get? items key = none := by
          apply get?_eq_none.mpr
          intro other member there
          apply distinct.1
          rw [same, ← there]
          exact List.mem_map_of_mem member
        simp [same, absent]
      · simp [same]

theorem get?_of_mem (distinct : (items.map Prod.fst).Nodup) (member : (key, value) ∈ items) : get? items key = some value := by
  induction items with
  | nil => cases member
  | cons item items ih =>
      rw [List.map_cons, List.nodup_cons] at distinct
      rw [get?_cons]
      rcases List.mem_cons.mp member with rfl | rest
      · exact if_pos rfl
      · have different : item.1 ≠ key := by
          intro same
          apply distinct.1
          rw [same]
          exact List.mem_map_of_mem rest
        rw [if_neg different]
        exact ih distinct.2 rest

/-- The last item is set in place. -/
theorem set_append (absent : get? items key = none) (old value : α) : set (items ++ [(key, old)]) key value = items ++ [(key, value)] := by
  have missing := get?_eq_none.mp absent
  have same : (items.map fun item => if item.1 = key then (key, value) else item) = items := by
    calc (items.map fun item => if item.1 = key then (key, value) else item) = items.map id :=
          List.map_congr_left fun item member => if_neg (missing item member)
      _ = items := List.map_id items
  rw [set, if_pos (by simp), List.map_append, same]
  simp

theorem keys_remove (items : List (κ × α)) (key : κ) : (remove items key).map Prod.fst = (items.map Prod.fst).filter (· ≠ key) := by
  rw [remove, List.filter_map]
  rfl

theorem mem_set {item : κ × α} (member : item ∈ set items key value) : item ∈ items ∨ item = (key, value) := by
  unfold set at member
  split at member
  · obtain ⟨old, inside, same⟩ := List.mem_map.mp member
    split at same
    · exact .inr same.symm
    · exact .inl (same ▸ inside)
  · simpa using member

theorem keys_set_absent (absent : get? items key = none) (value : α) : set items key value = items ++ [(key, value)] := by
  have missing := get?_eq_none.mp absent
  rw [set, if_neg]
  rw [List.any_eq_true]
  intro ⟨item, member, same⟩
  exact missing item member (of_decide_eq_true same)

theorem get?_mapValue {β : Type} (f : α → β) (items : List (κ × α)) (key : κ) :
    get? (items.map fun item => (item.1, f item.2)) key = (get? items key).map f := by
  induction items with
  | nil => rfl
  | cons item items ih =>
      rw [List.map_cons, get?_cons, get?_cons, ih]
      split <;> rfl

theorem set_cons_other {item : κ × α} (different : item.1 ≠ key) (value : α) : set (item :: items) key value = item :: set items key value := by
  unfold set
  simp only [List.any_cons, different, decide_false, Bool.false_or]
  split
  · rw [List.map_cons, if_neg different]
  · rfl

theorem set_cons_same {item : κ × α} (same : item.1 = key) (once : ∀ other ∈ items, other.1 ≠ key) (value : α) :
    set (item :: items) key value = (key, value) :: items := by
  have others : (items.map fun item => if item.1 = key then (key, value) else item) = items := by
    calc (items.map fun item => if item.1 = key then (key, value) else item) = items.map id :=
          List.map_congr_left fun other member => if_neg (once other member)
      _ = items := List.map_id items
  rw [set, if_pos (by simp [same]), List.map_cons, if_pos same, others]

theorem keys_set (items : List (κ × α)) (key : κ) (value : α) :
    (set items key value).map Prod.fst = if key ∈ items.map Prod.fst then items.map Prod.fst else items.map Prod.fst ++ [key] := by
  unfold set
  by_cases present : key ∈ items.map Prod.fst
  · have known : items.any (fun item => decide (item.1 = key)) = true := by simpa using present
    rw [if_pos present, if_pos known, List.map_map]
    refine List.map_congr_left fun item _ => ?_
    rw [Function.comp_apply]
    split
    · rename_i same
      exact same.symm
    · rfl
  · have unknown : ¬ items.any (fun item => decide (item.1 = key)) = true := by simpa using present
    rw [if_neg present, if_neg unknown, List.map_append]
    rfl

theorem keys_set_nodup (distinct : (items.map Prod.fst).Nodup) (key : κ) (value : α) : ((set items key value).map Prod.fst).Nodup := by
  rw [keys_set]
  split
  · exact distinct
  · rename_i absent
    rw [List.nodup_append]
    refine ⟨distinct, List.nodup_singleton _, fun first member second last same => absent ?_⟩
    rw [List.mem_singleton] at last
    rw [← last, ← same]
    exact member

theorem update_concat (items changes : List (κ × α)) (item : κ × α) :
    update items (changes ++ [item]) = set (update items changes) item.1 item.2 := List.foldl_concat ..

/-- Items with keys of their own come after the others. -/
theorem update_fresh {items changes : List (κ × α)} (distinct : (changes.map Prod.fst).Nodup)
    (fresh : ∀ key ∈ changes.map Prod.fst, key ∉ items.map Prod.fst) : update items changes = items ++ changes := by
  induction changes using List.reverseRecOn with
  | nil => rw [List.append_nil]; rfl
  | append_singleton changes item ih =>
      rw [List.map_append, List.nodup_append] at distinct
      rw [update_concat, ih distinct.1 fun key inside => fresh key (by simp [inside]), ← List.append_assoc]
      apply keys_set_absent
      rw [get?_eq_none]
      intro other member same
      rcases List.mem_append.mp member with old | new
      · exact fresh item.1 (by simp) (same ▸ List.mem_map_of_mem old)
      · exact distinct.2.2 _ (List.mem_map_of_mem new) item.1 (by simp) same

/-- The keys of a table that is filled with items, each where it first came. -/
theorem keys_update (changes : List (κ × α)) : (update [] changes).map Prod.fst = (changes.map Prod.fst).eraseDups := by
  induction changes using List.reverseRecOn with
  | nil => rfl
  | append_singleton changes item ih =>
      rw [update_concat, keys_set, ih, List.map_append, List.eraseDups_append]
      by_cases known : item.1 ∈ changes.map Prod.fst
      · rw [if_pos (List.mem_eraseDups.mpr known)]
        simp [List.removeAll, known]
      · rw [if_neg fun inside => known (List.mem_eraseDups.mp inside)]
        simp [List.removeAll, known, List.eraseDups_cons]

/-- A table that is filled with items has no others. -/
theorem mem_update {changes : List (κ × α)} {item : κ × α} (member : item ∈ update [] changes) : item ∈ changes := by
  induction changes using List.reverseRecOn with
  | nil => exact member
  | append_singleton changes last ih =>
      rw [update_concat] at member
      rcases mem_set member with inside | same
      · exact List.mem_append_left _ (ih inside)
      · rw [same]
        exact List.mem_append_right _ (List.mem_singleton_self _)

end AtrexAgent.Items
