import AtrexAgent.Library.Json

/-! Dicts as objects. A program that copies some of the dicts of a tree and writes to others
works on a heap; `Rep` says which JSON value an object stands for. -/

namespace AtrexAgent.Objects

open AtrexAgent.Json

variable {F : Type}

/-- What a dict holds under a key: another dict, or a value that nobody writes to. -/
inductive Value (F : Type) where
  | plain (value : Json F)
  | dict (object : Nat)

abbrev Entries (F : Type) := List (String × Value F)

abbrev Heap (F : Type) := List (Entries F)

def isDict : Json F → Bool
  | .obj _ => true
  | _ => false

def getEntry (entries : Entries F) (key : String) : Option (Value F) :=
  (entries.find? fun entry => entry.1 = key).map Prod.snd

def setEntry (entries : Entries F) (key : String) (value : Value F) : Entries F :=
  if entries.any (fun entry => entry.1 = key) then
    entries.map fun entry => if entry.1 = key then (key, value) else entry
  else entries ++ [(key, value)]

mutual

inductive Rep (heap : Heap F) : Value F → Json F → Prop where
  | plain (value : Json F) (leaf : isDict value = false) : Rep heap (.plain value) value
  | dict (object : Nat) (entries : Entries F) (items : Dict F) (read : heap[object]? = some entries)
      (distinct : (entries.map Prod.fst).Nodup) (fields : Fields heap entries items) :
      Rep heap (.dict object) (.obj items)

inductive Fields (heap : Heap F) : Entries F → Dict F → Prop where
  | nil : Fields heap [] []
  | cons (key : String) (value : Value F) (json : Json F) (entries : Entries F) (items : Dict F)
      (field : Rep heap value json) (rest : Fields heap entries items) :
      Fields heap ((key, value) :: entries) ((key, json) :: items)

end

/-! ### Nesting -/

mutual

/-- How deeply the dicts of a tree are nested. -/
def depth : Json F → Nat
  | .obj items => depthFields items + 1
  | _ => 0

def depthFields : Dict F → Nat
  | [] => 0
  | (_, value) :: rest => max (depth value) (depthFields rest)

end

mutual

/-- Keys are distinct in every dict that is an object. -/
inductive Keyed : Json F → Prop where
  | leaf (value : Json F) (leaf : isDict value = false) : Keyed value
  | dict (items : Dict F) (distinct : (items.map Prod.fst).Nodup) (inside : KeyedFields items) :
      Keyed (.obj items)

inductive KeyedFields : Dict F → Prop where
  | nil : KeyedFields []
  | cons (key : String) (value : Json F) (rest : Dict F) (field : Keyed value)
      (later : KeyedFields rest) : KeyedFields ((key, value) :: rest)

end

theorem depth_field {items : Dict F} {key : String} {json : Json F} (member : (key, json) ∈ items) :
    depth json ≤ depthFields items := by
  induction items with
  | nil => cases member
  | cons item rest ih =>
      rw [depthFields]
      rcases List.mem_cons.mp member with rfl | later
      · exact Nat.le_max_left _ _
      · exact Nat.le_trans (ih later) (Nat.le_max_right _ _)

section Reading

variable {heap heap' : Heap F}

mutual

theorem rep_unique {value : Value F} {json json' : Json F} (rep : Rep heap value json)
    (again : Rep heap value json') : json = json' := by
  cases rep with
  | plain value leaf =>
      cases again
      rfl
  | dict object entries items read distinct fields =>
      cases again with
      | dict _ entries' items' read' distinct' fields' =>
          cases read.symm.trans read'
          rw [fields_unique fields fields']

theorem fields_unique {entries : Entries F} {items items' : Dict F} (fields : Fields heap entries items)
    (again : Fields heap entries items') : items = items' := by
  cases fields with
  | nil =>
      cases again
      rfl
  | cons key value json entries items field rest =>
      cases again with
      | cons _ _ json' _ items' field' rest' =>
          rw [rep_unique field field', fields_unique rest rest']

end

mutual

/-- What does not reach a dict does not show that it, and it alone, has changed. A dict is not
reached by what is less deeply nested than it. -/
theorem rep_frame {value : Value F} {json whole : Json F} {changed : Nat}
    (same : ∀ a, a < heap.length → a ≠ changed → heap'[a]? = heap[a]?)
    (at_ : Rep heap (.dict changed) whole) (rep : Rep heap value json) (below : depth json < depth whole) :
    Rep heap' value json := by
  cases rep with
  | plain _ leaf => exact .plain _ leaf
  | dict object entries items read distinct fields =>
      have apart : object ≠ changed := by
        rintro rfl
        rw [rep_unique at_ (.dict object entries items read distinct fields)] at below
        exact Nat.lt_irrefl _ below
      have known : object < heap.length := by
        by_contra beyond
        rw [List.getElem?_eq_none (Nat.le_of_not_lt beyond)] at read
        cases read
      rw [depth] at below
      exact .dict object entries items ((same object known apart).trans read) distinct
        (fields_frame same at_ fields (by omega))

theorem fields_frame {entries : Entries F} {items : Dict F} {whole : Json F} {changed : Nat}
    (same : ∀ a, a < heap.length → a ≠ changed → heap'[a]? = heap[a]?)
    (at_ : Rep heap (.dict changed) whole) (fields : Fields heap entries items)
    (below : depthFields items < depth whole) : Fields heap' entries items := by
  cases fields with
  | nil => exact .nil
  | cons key value json entries items field rest =>
      rw [depthFields] at below
      exact .cons key value json entries items (rep_frame same at_ field (by omega))
        (fields_frame same at_ rest (by omega))

end

mutual

theorem rep_grow {value : Value F} {json : Json F} (grown : heap <+: heap') (rep : Rep heap value json) :
    Rep heap' value json := by
  obtain ⟨more, same⟩ := id grown
  cases rep with
  | plain _ leaf => exact .plain _ leaf
  | dict object entries items read distinct fields =>
      refine .dict object entries items ?_ distinct (fields_grow grown fields)
      rw [← same, List.getElem?_append_left (List.getElem?_eq_some_iff.mp read).1]
      exact read

theorem fields_grow {entries : Entries F} {items : Dict F} (grown : heap <+: heap')
    (fields : Fields heap entries items) : Fields heap' entries items := by
  cases fields with
  | nil => exact .nil
  | cons key value json entries items field rest =>
      exact .cons key value json entries items (rep_grow grown field) (fields_grow grown rest)

end

theorem fields_keys {entries : Entries F} {items : Dict F} (fields : Fields heap entries items) :
    entries.map Prod.fst = items.map Prod.fst := by
  induction entries generalizing items with
  | nil =>
      cases fields
      rfl
  | cons entry rest ih =>
      cases fields with
      | cons key value json _ _ field later => rw [List.map_cons, List.map_cons, ih later]

mutual

theorem rep_keyed {value : Value F} {json : Json F} (rep : Rep heap value json) : Keyed json := by
  cases rep with
  | plain _ leaf => exact .leaf _ leaf
  | dict object entries items read distinct fields =>
      exact .dict items (fields_keys fields ▸ distinct) (fields_keyed fields)

theorem fields_keyed {entries : Entries F} {items : Dict F} (fields : Fields heap entries items) :
    KeyedFields items := by
  cases fields with
  | nil => exact .nil
  | cons key value json entries items field rest =>
      exact .cons key json items (rep_keyed field) (fields_keyed rest)

end

theorem fields_get {entries : Entries F} {items : Dict F} (fields : Fields heap entries items)
    {key : String} {json : Json F} (found : find? items key = some json) :
    ∃ value, getEntry entries key = some value ∧ Rep heap value json := by
  induction entries generalizing items with
  | nil =>
      cases fields
      cases found
  | cons entry rest ih =>
      cases fields with
      | cons key' value json' _ items' field later =>
          rw [find?_cons] at found
          by_cases here : key' = key
          · rw [if_pos here] at found
            cases found
            exact ⟨value, by simp [getEntry, here], field⟩
          · rw [if_neg here] at found
            obtain ⟨value', got, rep⟩ := ih later found
            refine ⟨value', ?_, rep⟩
            unfold getEntry at got ⊢
            rw [List.find?_cons_of_neg (by simpa using here)]
            exact got

/-! ### Writing -/

theorem setEntry_present {entries : Entries F} {key : String} (present : key ∈ entries.map Prod.fst)
    (value : Value F) : setEntry entries key value =
      entries.map fun entry => if entry.1 = key then (key, value) else entry := by
  obtain ⟨entry, member, named⟩ := List.mem_map.mp present
  exact if_pos (List.any_eq_true.mpr ⟨entry, member, by simpa using named⟩)

theorem set_present {items : Dict F} {key : String} (present : key ∈ items.map Prod.fst)
    (value : Json F) : set items key value =
      items.map fun item => if item.1 = key then (key, value) else item := by
  obtain ⟨item, member, named⟩ := List.mem_map.mp present
  exact if_pos (List.any_eq_true.mpr ⟨item, member, by simpa using named⟩)

theorem setEntry_keys {entries : Entries F} {key : String} (present : key ∈ entries.map Prod.fst)
    (value : Value F) : (setEntry entries key value).map Prod.fst = entries.map Prod.fst := by
  rw [setEntry_present present, List.map_map]
  refine List.map_congr_left fun entry _ => ?_
  by_cases here : entry.1 = key
  · simp [here]
  · simp [here]

/-- One key is set, and the other values stand for what they stood for. -/
theorem fields_set {entries : Entries F} {items : Dict F} {key : String} {value : Value F} {json : Json F}
    (fields : Fields heap entries items) (rep : Rep heap' value json)
    (others : ∀ value' json', Rep heap value' json' → (∃ key', (key', json') ∈ items) →
      Rep heap' value' json')
    (present : key ∈ items.map Prod.fst) :
    Fields heap' (setEntry entries key value) (set items key json) := by
  rw [setEntry_present (fields_keys fields ▸ present), set_present present]
  clear present
  induction entries generalizing items with
  | nil =>
      cases fields
      exact .nil
  | cons entry rest ih =>
      cases fields with
      | cons key' value' json' _ items' field later =>
          have rest_ := ih later fun value json rep member => others value json rep
            (member.imp fun _ => List.mem_cons_of_mem _)
          rw [List.map_cons, List.map_cons]
          by_cases here : key' = key
          · simp only [here, if_true]
            exact .cons key value json _ _ rep rest_
          · simp only [here, if_false]
            exact .cons key' value' json' _ _ (others value' json' field ⟨key', List.mem_cons_self⟩) rest_

theorem rep_read {object : Nat} {items : Dict F} (rep : Rep heap (.dict object) (.obj items)) :
    ∃ entries, heap[object]? = some entries ∧ (entries.map Prod.fst).Nodup ∧ Fields heap entries items := by
  cases rep with
  | dict _ entries _ read distinct fields => exact ⟨entries, read, distinct, fields⟩

/-- A dict after a write to it, when nothing else that was there has changed. -/
theorem rep_set {object : Nat} {entries : Entries F} {items : Dict F} {key : String} {value : Value F}
    {json : Json F} (rep : Rep heap (.dict object) (.obj items)) (read : heap[object]? = some entries)
    (same : ∀ a, a < heap.length → a ≠ object → heap'[a]? = heap[a]?)
    (written : heap'[object]? = some (setEntry entries key value)) (new : Rep heap' value json)
    (present : key ∈ items.map Prod.fst) : Rep heap' (.dict object) (.obj (set items key json)) := by
  obtain ⟨entries', read', distinct, fields⟩ := rep_read rep
  cases read.symm.trans read'
  refine .dict object (setEntry entries key value) _ written ?_ (fields_set fields new ?_ present)
  · rw [setEntry_keys (fields_keys fields ▸ present)]
    exact distinct
  · rintro value' json' rep' ⟨key', member⟩
    refine rep_frame same rep rep' ?_
    rw [depth]
    exact Nat.lt_succ_of_le (depth_field member)

end Reading

end AtrexAgent.Objects
