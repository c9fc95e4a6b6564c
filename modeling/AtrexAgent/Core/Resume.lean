import AtrexAgent.Core.Lock
import AtrexAgent.Library.Overlay
import AtrexAgent.Library.Traversal

/-! Which compositions may resume under a lock. -/

namespace AtrexAgent.Lock

open AtrexAgent.Boot
open AtrexAgent.Json
open AtrexAgent.Schema (Floats equal equalItems equal_obj_iff equal_str equal_strs isStr isStr_iff SameAt find?_isSome_iff find?_of_mem mem_of_find?)

variable {F : Type} {floats : Floats F}

/-! ### Entries -/

theorem mem_entriesOf {lock entry : Dict F} : entry ∈ entriesOf lock ↔ ∃ items, get lock "entries" = .arr items ∧ .obj entry ∈ items := by
  unfold entriesOf
  split
  · rename_i items here
    rw [here, List.mem_filterMap]
    constructor
    · rintro ⟨item, member, same⟩
      cases item with
      | obj items' =>
          cases same
          exact ⟨items, rfl, member⟩
      | _ => cases same
    · rintro ⟨_, same, member⟩
      cases same
      exact ⟨.obj entry, member, rfl⟩
  · rename_i other
    constructor
    · intro member
      cases member
    · rintro ⟨items, same, _⟩
      exact absurd same (other items)

theorem entryAt_ids {lock : Dict F} {id : String} {entry : Dict F} (found : entryAt lock id = some entry) : id ∈ idsOf lock := by
  have member := List.mem_reverse.mp (List.mem_of_find?_eq_some found)
  have named := List.find?_some found
  simp only [isStr_iff] at named
  exact List.mem_filterMap.mpr ⟨entry, member, by rw [named]; rfl⟩

theorem mem_sortedSet {names : List String} {name : String} : name ∈ sortedSet names ↔ name ∈ names := by
  rw [sortedSet, List.mem_insertionSort, List.mem_dedup]

/-! ### Differences -/

theorem differsAt_iff {before after : Dict F} {key : String} : differsAt floats before after key = true ↔ ¬ SameAt floats before after key := by
  unfold differsAt SameAt
  cases find? before key <;> cases find? after key <;> simp

theorem mem_differingFields {before after : Dict F} {key : String} :
    key ∈ differingFields floats before after ↔ ¬ SameAt floats before after key := by
  rw [differingFields, mem_sortedSet, List.mem_filter, differsAt_iff, and_iff_right_iff_imp]
  intro differs
  rw [List.mem_append, ← find?_isSome_iff, ← find?_isSome_iff]
  unfold SameAt at differs
  cases here : find? before key <;> cases there : find? after key <;> simp_all

variable (floats) in
/-- An entry of a lock against one of a composition that may resume under it. -/
inductive Resumable : Option (Dict F) → Option (Dict F) → Prop
  | neither : Resumable none none
  | same {before after : Dict F} (same : ∀ key, SameAt floats before after key) : Resumable (some before) (some after)
  | observed {before after : Dict F} {fields fields' : List String} (lax : isStrict before = false) (lax' : isStrict after = false)
      (observes : observationalFields before = .ok fields) (observes' : observationalFields after = .ok fields')
      (only : ∀ key, SameAt floats before after key ∨ (key ∈ fields ∧ key ∈ fields')) : Resumable (some before) (some after)

/-- A difference of two entries is let through where one may resume under the other. -/
theorem differenceAt_resumable {stored current : Dict F} {id : String}
    (distinct : ∀ entry, entryAt stored id = some entry → (entry.map Prod.fst).Nodup)
    (distinct' : ∀ entry, entryAt current id = some entry → (entry.map Prod.fst).Nodup) :
    (∀ difference, differenceAt floats stored current id = some difference → isSensitive stored current difference = .ok false) ↔
      Resumable floats (entryAt stored id) (entryAt current id) := by
  unfold differenceAt
  cases here : entryAt stored id with
  | none =>
      cases there : entryAt current id with
      | none => simpa using Resumable.neither
      | some after =>
          constructor
          · intro passes
            have := passes _ rfl
            cases this
          · intro resumable
            cases resumable
  | some before =>
      cases there : entryAt current id with
      | none =>
          constructor
          · intro passes
            have := passes _ rfl
            cases this
          · intro resumable
            cases resumable
      | some after =>
          have equal_iff : equal floats (.obj before) (.obj after) = true ↔ ∀ key, SameAt floats before after key :=
            equal_obj_iff (distinct before here) (distinct' after there)
          dsimp only
          by_cases same : equal floats (.obj before) (.obj after) = true
          · rw [if_pos same]
            exact ⟨fun _ => .same (equal_iff.mp same), by simp⟩
          · rw [if_neg same]
            have passes_iff : (∀ difference, some (⟨some id, differingFields floats before after, .changed⟩ : Difference) = some difference →
                isSensitive stored current difference = .ok false) ↔
                isSensitive stored current ⟨some id, differingFields floats before after, .changed⟩ = .ok false := by
              simp
            rw [passes_iff, isSensitive]
            simp only [Option.getD_some, here, there]
            cases lax : isStrict before with
            | true =>
                constructor
                · intro refused
                  cases refused
                · intro resumable
                  cases resumable with
                  | same agree => exact absurd (equal_iff.mpr agree) same
                  | observed lax' => exact absurd (lax.symm.trans lax') (by decide)
            | false =>
                cases lax' : isStrict after with
                | true =>
                    constructor
                    · intro refused
                      cases refused
                    · intro resumable
                      cases resumable with
                      | same agree => exact absurd (equal_iff.mpr agree) same
                      | observed _ lax => exact absurd (lax'.symm.trans lax) (by decide)
                | false =>
                    rw [Bool.or_false, if_neg (by decide)]
                    constructor
                    · intro passes
                      obtain ⟨fields, observes, passes⟩ := (bind_ok_iff _ _ _).mp passes
                      obtain ⟨fields', observes', passes⟩ := (bind_ok_iff _ _ _).mp passes
                      have within : (!(differingFields floats before after).all fun field =>
                          fields.contains field && fields'.contains field) = false := Except.ok.inj passes
                      simp only [Bool.not_eq_false', List.all_eq_true, Bool.and_eq_true, List.contains_iff_mem] at within
                      refine .observed lax lax' observes observes' fun key => ?_
                      by_cases agree : SameAt floats before after key
                      · exact .inl agree
                      · exact .inr (within key (mem_differingFields.mpr agree))
                    · intro resumable
                      cases resumable with
                      | same agree => exact absurd (equal_iff.mpr agree) same
                      | observed _ _ observes observes' only =>
                          refine (bind_ok_iff _ _ _).mpr ⟨_, observes, (bind_ok_iff _ _ _).mpr ⟨_, observes', ?_⟩⟩
                          refine congrArg Except.ok ?_
                          simp only [Bool.not_eq_false', List.all_eq_true, Bool.and_eq_true, List.contains_iff_mem]
                          intro key differs
                          exact (only key).resolve_left (mem_differingFields.mp differs)

theorem sensitives_nil {stored current : Dict F} (differences : List Difference) :
    sensitives stored current differences = .ok [] ↔ ∀ difference ∈ differences, isSensitive stored current difference = .ok false := by
  induction differences with
  | nil => simp [sensitives]
  | cons difference rest ih =>
      rw [List.forall_mem_cons, ← ih, sensitives]
      constructor
      · intro none
        obtain ⟨refused, judged, none⟩ := (bind_ok_iff _ _ _).mp none
        obtain ⟨more, judges, none⟩ := (bind_ok_iff _ _ _).mp none
        have empty := Except.ok.inj none
        cases refused with
        | true => cases empty
        | false => exact ⟨judged, empty ▸ judges⟩
      · rintro ⟨judged, judges⟩
        rw [judged, judges]
        rfl

/-- A lock resumes a composition if and only if their global fields agree and each entry may resume under the one
that is stored. -/
theorem resume_accepts_iff {path : String} {stored current : Dict F}
    (distinct : ∀ id entry, entryAt stored id = some entry → (entry.map Prod.fst).Nodup)
    (distinct' : ∀ id entry, entryAt current id = some entry → (entry.map Prod.fst).Nodup) :
    (∃ lines, resume floats path stored current = .ok lines) ↔
      (∀ field ∈ GLOBAL_FIELDS, equal floats (get stored field) (get current field) = true) ∧
        ∀ id, Resumable floats (entryAt stored id) (entryAt current id) := by
  have accepted : (∃ lines, resume floats path stored current = .ok lines) ↔
      sensitives stored current (differenceRecords floats stored current) = .ok [] := by
    unfold resume
    constructor
    · rintro ⟨lines, ok⟩
      obtain ⟨refused, judged, ok⟩ := (bind_ok_iff _ _ _).mp ok
      by_cases empty : refused = []
      · exact empty ▸ judged
      · rw [if_pos empty] at ok
        cases ok
    · intro judged
      exact ⟨_, (bind_ok_iff _ _ _).mpr ⟨[], judged, rfl⟩⟩
  rw [accepted, sensitives_nil, differenceRecords, List.forall_mem_append, and_comm]
  refine and_congr ?_ ?_
  · constructor
    · intro passes field member
      by_contra differs
      have record : globalDifference floats stored current field = some ⟨none, [field], .global⟩ := if_neg differs
      have := passes _ (List.mem_filterMap.mpr ⟨field, member, record⟩)
      cases this
    · intro agree difference member
      obtain ⟨field, here, found⟩ := List.mem_filterMap.mp member
      rw [globalDifference, if_pos (agree field here)] at found
      cases found
  · constructor
    · intro passes id
      refine (differenceAt_resumable (distinct id) (distinct' id)).mp fun difference found => passes _ (List.mem_filterMap.mpr ⟨id, ?_, found⟩)
      rw [mem_sortedSet, List.mem_append]
      cases here : entryAt stored id with
      | some entry => exact .inl (entryAt_ids here)
      | none =>
          cases there : entryAt current id with
          | some entry => exact .inr (entryAt_ids there)
          | none =>
              rw [differenceAt, here, there] at found
              cases found
    · intro resumable difference member
      obtain ⟨id, _, found⟩ := List.mem_filterMap.mp member
      exact (differenceAt_resumable (distinct id) (distinct' id)).mpr (resumable id) difference found

/-! ### Locks that were written -/

theorem find?_sortMembers (items : Dict F) (key : String) : find? (sortMembers items) key = (find? items key).map sortKeys := by
  induction items with
  | nil => rfl
  | cons item rest ih =>
      rw [sortMembers, find?_cons, find?_cons, ih]
      split <;> rfl

/-- A key of an object whose keys were sorted. -/
theorem find?_sorted {items : Dict F} (nodup : (items.map Prod.fst).Nodup) (key : String) :
    find? ((sortMembers items).insertionSort fun a b => a.1 ≤ b.1) key = (find? items key).map sortKeys := by
  have perm := List.perm_insertionSort (fun a b : String × Json F => a.1 ≤ b.1) (sortMembers items)
  have nodup' : (((sortMembers items).insertionSort fun a b => a.1 ≤ b.1).map Prod.fst).Nodup :=
    (perm.map Prod.fst).nodup_iff.mpr (keys_sortMembers items ▸ nodup)
  rw [← find?_sortMembers]
  cases found : find? (sortMembers items) key with
  | none =>
      rw [find?_eq_none] at found ⊢
      exact fun item member => found item (perm.mem_iff.mp member)
  | some value => exact find?_of_mem nodup' (perm.mem_iff.mpr (mem_of_find? found))

mutual

/-- The order of keys does not matter to `==`. -/
theorem equal_sortKeys : ∀ (v w : Json F), Distinct v → Distinct w → equal floats (sortKeys v) w = equal floats v w
  | .arr items, w, distinct, distinct' => by
      cases w with
      | arr items' => exact equal_sortItems items items' distinct distinct'
      | _ => rfl
  | .obj items, w, distinct, distinct' => by
      cases w with
      | obj items' =>
          have sorted : Distinct (sortKeys (.obj items)) := distinct_sortKeys _ distinct
          rw [Bool.eq_iff_iff, sortKeys, equal_obj_iff sorted.1 distinct'.1, equal_obj_iff distinct.1 distinct'.1]
          refine forall_congr' fun key => ?_
          unfold SameAt
          rw [find?_sorted distinct.1]
          cases here : find? items key with
          | none => rfl
          | some value =>
              cases there : find? items' key with
              | none => rfl
              | some other =>
                  have distinct_other : Distinct other := distinct_member items' distinct'.2 _ (mem_of_find? there)
                  have same := equal_sortMembers items distinct.2 _ (mem_of_find? here) other distinct_other
                  simp only [Option.map_some]
                  rw [same]
      | _ => rfl
  | .null, _, _, _ | .bool _, _, _, _ | .int _, _, _, _ | .float _, _, _, _ | .str _, _, _, _ => by rw [sortKeys]

theorem equal_sortItems : ∀ (items items' : List (Json F)), DistinctItems items → DistinctItems items' →
    equalItems floats (sortItems items) items' = equalItems floats items items'
  | [], _, _, _ => rfl
  | _ :: _, [], _, _ => rfl
  | item :: rest, item' :: rest', distinct, distinct' => by
      rw [sortItems, equalItems, equalItems, equal_sortKeys item item' distinct.1 distinct'.1,
        equal_sortItems rest rest' distinct.2 distinct'.2]

theorem equal_sortMembers : ∀ (items : Dict F), DistinctMembers items → ∀ item ∈ items, ∀ w, Distinct w →
    equal floats (sortKeys item.2) w = equal floats item.2 w
  | [], _, _, member, _, _ => nomatch member
  | (key, value) :: rest, distinct, item, member, w, distinct' => by
      rcases List.mem_cons.mp member with rfl | later
      · exact equal_sortKeys value w distinct.1 distinct'
      · exact equal_sortMembers rest distinct.2 item later w distinct'

end

mutual

/-- There are no floats in a value, so that it equals itself. -/
def Floatless : Json F → Prop
  | .float _ => False
  | .arr items => FloatlessItems items
  | .obj items => FloatlessMembers items
  | _ => True

def FloatlessItems : List (Json F) → Prop
  | [] => True
  | item :: rest => Floatless item ∧ FloatlessItems rest

def FloatlessMembers : Dict F → Prop
  | [] => True
  | (_, value) :: rest => Floatless value ∧ FloatlessMembers rest

end

theorem floatlessMembers_iff {items : Dict F} : FloatlessMembers items ↔ ∀ item ∈ items, Floatless item.2 := by
  induction items with
  | nil => exact ⟨fun _ _ member => absurd member List.not_mem_nil, fun _ => trivial⟩
  | cons item rest ih => rw [FloatlessMembers, ih, List.forall_mem_cons]

theorem floatlessItems_iff {items : List (Json F)} : FloatlessItems items ↔ ∀ item ∈ items, Floatless item := by
  induction items with
  | nil => exact ⟨fun _ _ member => absurd member List.not_mem_nil, fun _ => trivial⟩
  | cons item rest ih => rw [FloatlessItems, ih, List.forall_mem_cons]

mutual

theorem equal_refl : ∀ v : Json F, Distinct v → Floatless v → equal floats v v = true
  | .arr items, distinct, floatless => equalItems_refl items distinct floatless
  | .obj items, distinct, floatless => by
      rw [equal_obj_iff distinct.1 distinct.1]
      intro key
      unfold SameAt
      cases found : find? items key with
      | none => trivial
      | some value => exact equalMembers_refl items distinct.2 floatless _ (mem_of_find? found)
  | .float _, _, floatless => floatless.elim
  | .null, _, _ => rfl
  | .bool b, _, _ => by simp [equal, Schema.sameNumber, Schema.unbool]
  | .int n, _, _ => by simp [equal, Schema.sameNumber, Schema.unbool]
  | .str s, _, _ => by simp [equal]

theorem equalItems_refl : ∀ items : List (Json F), DistinctItems items → FloatlessItems items → equalItems floats items items = true
  | [], _, _ => rfl
  | item :: rest, distinct, floatless => by
      rw [equalItems, equal_refl item distinct.1 floatless.1, equalItems_refl rest distinct.2 floatless.2]
      rfl

theorem equalMembers_refl : ∀ items : Dict F, DistinctMembers items → FloatlessMembers items → ∀ item ∈ items, equal floats item.2 item.2 = true
  | [], _, _, _, member => by cases member
  | (key, value) :: rest, distinct, floatless, item, member => by
      rcases List.mem_cons.mp member with rfl | later
      · exact equal_refl value distinct.1 floatless.1
      · exact equalMembers_refl rest distinct.2 floatless.2 item later

end

theorem loads_lockText [FloatText F] {current : Dict F} (distinct : Distinct (.obj current)) :
    loads (lockText current) = some (sortKeys (.obj current)) := by
  have sorted := distinct_sortKeys _ distinct
  obtain ⟨c, rest, text, begins⟩ := dumpsIndented_begins 2 0 (sortKeys (.obj current))
  have spelled : lockText current = asciiText (dumpsIndented 2 0 (sortKeys (.obj current)) ++ ['\n']) := by
    rw [asciiText_append]
    rfl
  have plain : (dumpsIndented 2 0 (sortKeys (.obj current)) ++ ['\n']).dropWhile isSpace = dumpsIndented 2 0 (sortKeys (.obj current)) ++ ['\n'] := by
    rw [text]
    exact dropWhile_begins c _ begins
  have ascii := space_respelled respelling_ascii (s := dumpsIndented 2 0 (sortKeys (.obj current)) ++ ['\n']) (by rw [plain]; simp)
  have longer := length_asciiText (dumpsIndented 2 0 (sortKeys (.obj current)) ++ ['\n'])
  have written := scanValue_dumpsIndented 2 0 _ sorted _ (Nat.lt_succ_self _) ['\n'] (stops_of inNumber '\n' [] (by decide))
  rw [List.length_append, List.length_singleton] at longer
  have scanned := (scan_respelled respelling_ascii _).1
    ((asciiText (dumpsIndented 2 0 (sortKeys (.obj current)) ++ ['\n'])).length + 1) _ _ _ (by omega) written ⟨'\n', [], rfl, by decide⟩
  unfold loads
  rw [spelled, if_neg]
  · rw [ascii, plain, scanned]
    rfl
  · intro marked
    have small := asciiText_small _ _ (List.mem_of_head? marked)
    exact absurd small (by decide)

/-- The items of a dict and of the dicts in it, in the order of their keys. -/
def sortedDict (items : Dict F) : Dict F := (sortMembers items).insertionSort fun a b => a.1 ≤ b.1

theorem get_sorted {items : Dict F} (nodup : (items.map Prod.fst).Nodup) (key : String) : get (sortedDict items) key = sortKeys (get items key) := by
  unfold Json.get sortedDict
  rw [find?_sorted nodup]
  cases find? items key <;> rfl

theorem sameAt_sorted {before after : Dict F} (distinct : Distinct (.obj before)) (distinct' : Distinct (.obj after)) (key : String) :
    SameAt floats (sortedDict before) after key ↔ SameAt floats before after key := by
  unfold SameAt sortedDict
  rw [find?_sorted distinct.1]
  cases here : find? before key with
  | none => rfl
  | some value =>
      cases there : find? after key with
      | none => rfl
      | some other =>
          simp only [Option.map_some]
          rw [equal_sortKeys value other (distinct_member before distinct.2 _ (mem_of_find? here))
            (distinct_member after distinct'.2 _ (mem_of_find? there))]

theorem sortItems_map (items : List (Json F)) : sortItems items = items.map sortKeys := by
  induction items with
  | nil => rfl
  | cons item rest ih => rw [sortItems, ih, List.map_cons]

theorem entriesOf_sorted {lock : Dict F} (nodup : (lock.map Prod.fst).Nodup) : entriesOf (sortedDict lock) = (entriesOf lock).map sortedDict := by
  unfold entriesOf
  rw [get_sorted nodup]
  cases get lock "entries" with
  | arr items =>
      rw [sortKeys, sortItems_map]
      show (items.map sortKeys).filterMap _ = (items.filterMap _).map sortedDict
      rw [List.filterMap_map, List.map_filterMap]
      refine List.filterMap_congr fun item _ => ?_
      cases item <;> rfl
  | _ => rfl

theorem isStr_sortKeys (word : String) (value : Json F) : isStr word (sortKeys value) = isStr word value := by
  cases value <;> rw [sortKeys] <;> rfl

theorem entryAt_sorted {lock : Dict F} (nodup : (lock.map Prod.fst).Nodup) (each : ∀ entry ∈ entriesOf lock, (entry.map Prod.fst).Nodup)
    (id : String) : entryAt (sortedDict lock) id = (entryAt lock id).map sortedDict := by
  unfold entryAt
  rw [entriesOf_sorted nodup, ← List.map_reverse, List.find?_map]
  refine congrArg (Option.map sortedDict) (List.find?_congr fun entry member => ?_)
  rw [Function.comp_apply, get_sorted (each entry (List.mem_reverse.mp member)), isStr_sortKeys]

/-! ### Snapshots -/

section Snapshots

variable {environ environ' : Text → Option Text} {checkout checkout' : Checkout F} {composition composition' : Composition F}
  {prepared prepared' : Prepared F} {old new : Dict F}

theorem distinct_strings (names : List String) : Distinct (strings names : Json F) := by
  show DistinctItems (names.map .str)
  induction names with
  | nil => trivial
  | cons name rest ih => exact ⟨trivial, ih⟩

theorem distinct_texts {items : List (String × String)} (nodup : (items.map Prod.fst).Nodup) : Distinct (texts items : Json F) := by
  refine ⟨by rw [List.map_map]; exact nodup, distinct_members _ fun item member => ?_⟩
  obtain ⟨_, _, rfl⟩ := List.mem_map.mp member
  trivial

theorem distinct_filesOf (identity : Identity) : Distinct (filesOf identity : Json F) := by
  refine ⟨by rw [List.map_map]; exact identity.packages, distinct_members _ fun item member => ?_⟩
  obtain ⟨package, here, rfl⟩ := List.mem_map.mp member
  exact distinct_texts (identity.names package here)

theorem distinct_undeclaredEntry (row : Row F) : Distinct (.obj (undeclaredEntry checkout row)) := by
  refine ⟨by simp [undeclaredEntry, rowFields], distinct_members _ fun item member => ?_⟩
  simp only [undeclaredEntry, rowFields, List.cons_append, List.nil_append, List.mem_cons, List.not_mem_nil, or_false] at member
  rcases member with rfl | rfl | rfl | rfl | rfl | rfl | rfl | rfl | rfl | rfl | rfl
  · trivial
  · trivial
  · trivial
  · trivial
  · trivial
  · exact distinct_strings _
  · exact distinct_strings _
  · trivial
  · trivial
  · trivial
  · exact ⟨List.nodup_nil, trivial⟩

theorem distinct_declaredEntry (row : Row F) (declaration : Declaration F) (identity : Identity) (config : Dict F) :
    Distinct (.obj (declaredEntry checkout row declaration identity config)) := by
  refine ⟨by simp [declaredEntry, rowFields], distinct_members _ fun item member => ?_⟩
  simp only [declaredEntry, rowFields, List.cons_append, List.nil_append, List.mem_cons, List.not_mem_nil, or_false] at member
  rcases member with rfl | rfl | rfl | rfl | rfl | rfl | rfl | rfl | rfl | rfl | rfl | rfl
  · trivial
  · trivial
  · trivial
  · trivial
  · trivial
  · exact distinct_strings _
  · exact distinct_strings _
  · trivial
  · trivial
  · trivial
  · exact distinct_filesOf identity
  · exact distinct_strings _

/-- What an entry is that a snapshot makes of a row. -/
inductive EntryOf (checkout : Checkout F) (row : Row F) : Dict F → Prop
  | undeclared : EntryOf checkout row (undeclaredEntry checkout row)
  | declared (declaration : Declaration F) (identity : Identity) (config : Dict F) :
      EntryOf checkout row (declaredEntry checkout row declaration identity config)

theorem snapshotEntry_made {row : Row F} {entry : Dict F} (made : snapshotEntry environ checkout composition prepared row = .ok entry) :
    EntryOf checkout row entry := by
  unfold snapshotEntry at made
  split at made
  · cases made
    exact .undeclared
  · rename_i declaration _
    obtain ⟨identity, _, made⟩ := (bind_ok_iff _ _ _).mp made
    obtain ⟨config, _, made⟩ := (bind_ok_iff _ _ _).mp made
    cases made
    exact .declared declaration identity config

theorem EntryOf.distinct {row : Row F} {entry : Dict F} (made : EntryOf checkout row entry) : Distinct (.obj entry) := by
  cases made with
  | undeclared => exact distinct_undeclaredEntry row
  | declared declaration identity config => exact distinct_declaredEntry row declaration identity config

theorem EntryOf.id {row : Row F} {entry : Dict F} (made : EntryOf checkout row entry) : get entry "id" = .str row.id := by
  cases made with
  | undeclared => rfl
  | declared declaration identity config => rfl

variable (environ checkout composition prepared) in
/-- The entry of the row with an id. -/
def rowEntry (id : String) : Option (Dict F) :=
  (Overlay.entry Row.id composition.rows id).bind fun row => (snapshotEntry environ checkout composition prepared row).toOption

theorem rowEntry_made {id : String} {entry : Dict F} (found : rowEntry environ checkout composition prepared id = some entry) :
    ∃ row, EntryOf checkout row entry := by
  obtain ⟨row, _, made⟩ := Option.bind_eq_some_iff.mp found
  cases read : snapshotEntry environ checkout composition prepared row with
  | error failure =>
      rw [read] at made
      cases made
  | ok entry' =>
      rw [read] at made
      cases made
      exact ⟨row, snapshotEntry_made read⟩

theorem entriesOf_lockOf (entries : List (Dict F)) : entriesOf (lockOf checkout composition prepared entries) = entries := by
  have here : get (lockOf checkout composition prepared entries) "entries" = .arr (entries.map .obj) := rfl
  unfold entriesOf
  rw [here]
  show (entries.map Json.obj).filterMap _ = entries
  rw [List.filterMap_map]
  exact List.filterMap_some

/-- The entry of an id in a snapshot is that of the row of the composition. -/
theorem entryAt_snapshot (made : snapshot environ checkout composition prepared = .ok old) (id : String) :
    entryAt old id = rowEntry environ checkout composition prepared id := by
  obtain ⟨entries, each, made⟩ := (bind_ok_iff _ _ _).mp made
  cases made
  rw [mapM_ok_iff] at each
  unfold entryAt rowEntry
  rw [entriesOf_lockOf]
  cases found : entries.reverse.find? fun entry => isStr id (get entry "id") with
  | some entry =>
      have member := List.mem_reverse.mp (List.mem_of_find?_eq_some found)
      have named := List.find?_some found
      obtain ⟨row, here, of_row⟩ := forall₂_mem_right each _ member
      rw [isStr_iff, (snapshotEntry_made of_row).id] at named
      rw [← Json.str.inj named, Overlay.entry_of_mem Row.id composition.distinct here, Option.bind_some, of_row]
      rfl
  | none =>
      cases present : Overlay.entry Row.id composition.rows id with
      | none => rfl
      | some row =>
          have here : row ∈ composition.rows := List.mem_of_find?_eq_some present
          have named := List.find?_some present
          obtain ⟨entry, member, of_row⟩ := forall₂_mem_left each _ here
          have absent := List.find?_eq_none.mp found entry (List.mem_reverse.mpr member)
          rw [(snapshotEntry_made of_row).id] at absent
          simp_all

variable (floats) in
/-- An entry of a snapshot that a later one keeps: it is the same, or the same but for its group where
the plugin says that this is only observed. -/
inductive Kept : Option (Dict F) → Option (Dict F) → Prop
  | neither : Kept none none
  | same {before after : Dict F} (same : ∀ key, SameAt floats before after key) : Kept (some before) (some after)
  | regrouped {before after : Dict F} (observed : get before "resume_policy" = .str "observational")
      (same : ∀ key, key ≠ "group" → SameAt floats before after key) : Kept (some before) (some after)

theorem textsIn_strings (names : List String) : textsIn (strings names : Json F) = .ok names := by
  have plain : (names.map (Json.str (F := F))).all isHashable = true := by simp [isHashable]
  have each : (names.map (Json.str (F := F))).filterMap textIn = names := by
    rw [List.filterMap_map]
    exact List.filterMap_some
  rw [strings, textsIn, if_pos plain, each]

theorem sortKeys_strings (names : List String) : sortKeys (strings names : Json F) = strings names := by
  unfold strings
  rw [sortKeys, sortItems_map, List.map_map]
  exact congrArg Json.arr (List.map_congr_left fun name _ => by rw [Function.comp_apply, sortKeys])

/-- What may be observed of an entry that is not strict, in the lock as in the snapshot. -/
theorem EntryOf.observational {row : Row F} {entry : Dict F} (made : EntryOf checkout row entry) (lax : isStrict entry = false) :
    get entry "resume_policy" = .str "observational" ∧
      observationalFields (sortedDict entry) = observationalFields entry ∧
      ∃ fields, observationalFields entry = .ok fields ∧ ∀ field, field ∈ fields ↔ field = "group" := by
  have nodup := made.distinct.1
  cases made with
  | undeclared => cases lax
  | declared declaration identity config =>
      have policy : get (declaredEntry checkout row declaration identity config) "resume_policy" = .str identity.resumePolicy := rfl
      have fields : find? (declaredEntry checkout row declaration identity config) "observational_fields" =
          some (strings identity.observationalFields) := rfl
      have observational : identity.resumePolicy = "observational" ∧ identity.observationalFields ≠ [] := by
        refine identity.policy.resolve_left fun strict => ?_
        have strict_entry : isStrict (declaredEntry checkout row declaration identity config) = isStr "strict" (.str identity.resumePolicy : Json F) := rfl
        rw [strict_entry, strict] at lax
        cases lax
      refine ⟨by rw [policy, observational.1], ?_, identity.observationalFields, ?_, fun field => ⟨identity.onlyGroup field, ?_⟩⟩
      · unfold observationalFields sortedDict
        rw [find?_sorted nodup, fields, Option.map_some, sortKeys_strings]
      · unfold observationalFields
        rw [fields]
        exact textsIn_strings _
      · rintro rfl
        obtain ⟨first, here⟩ := List.exists_mem_of_ne_nil _ observational.2
        exact identity.onlyGroup first here ▸ here

theorem isStrict_sorted {entry : Dict F} (nodup : (entry.map Prod.fst).Nodup) : isStrict (sortedDict entry) = isStrict entry := by
  unfold isStrict sortedDict
  rw [find?_sorted nodup]
  cases find? entry "resume_policy" with
  | none => rfl
  | some value => exact isStr_sortKeys "strict" value

theorem isStrict_policy {entry : Dict F} (observed : get entry "resume_policy" = .str "observational") : isStrict entry = false := by
  unfold isStrict
  unfold Json.get at observed
  cases found : find? entry "resume_policy" with
  | none =>
      rw [found] at observed
      cases observed
  | some value =>
      rw [found] at observed
      simp only [Option.getD_some] at observed ⊢
      rw [observed]
      rfl

/-- An entry that was written may be resumed by one of a snapshot where that keeps it. -/
theorem resumable_iff_kept {row row' : Row F} {before after : Dict F} (made : EntryOf checkout row before) (made' : EntryOf checkout' row' after) :
    Resumable floats (some (sortedDict before)) (some after) ↔ Kept floats (some before) (some after) := by
  have agree (key : String) : SameAt floats (sortedDict before) after key ↔ SameAt floats before after key :=
    sameAt_sorted made.distinct made'.distinct key
  constructor
  · intro resumable
    cases resumable with
    | same same => exact .same fun key => (agree key).mp (same key)
    | observed lax lax' observes observes' only =>
        rw [isStrict_sorted made.distinct.1] at lax
        obtain ⟨policy, sorted, fields, observes_before, group⟩ := made.observational lax
        rw [sorted, observes_before] at observes
        cases observes
        exact .regrouped policy fun key other => (agree key).mp ((only key).resolve_right fun within => other ((group key).mp within.1))
  · intro kept
    cases kept with
    | same same => exact .same fun key => (agree key).mpr (same key)
    | regrouped policy same =>
        have lax := isStrict_policy policy
        have policy' : get after "resume_policy" = .str "observational" := by
          have here := same "resume_policy" (by decide)
          unfold SameAt at here
          unfold Json.get at policy ⊢
          cases found : find? before "resume_policy" with
          | none =>
              rw [found] at policy
              cases policy
          | some value =>
              rw [found] at policy here
              cases found' : find? after "resume_policy" with
              | none =>
                  rw [found'] at here
                  exact here.elim
              | some value' =>
                  rw [found'] at here
                  simp only [Option.getD_some] at policy ⊢
                  rw [policy] at here
                  cases value' <;> simp_all [equal, Schema.sameNumber, Schema.unbool]
        have lax' := isStrict_policy policy'
        obtain ⟨_, sorted, fields, observes, group⟩ := made.observational lax
        obtain ⟨_, _, fields', observes', group'⟩ := made'.observational lax'
        refine .observed (by rw [isStrict_sorted made.distinct.1, lax]) lax' (sorted.trans observes) observes' fun key => ?_
        by_cases grouped : key = "group"
        · exact .inr ⟨(group key).mpr grouped, (group' key).mpr grouped⟩
        · exact .inl ((agree key).mpr (same key grouped))

theorem distinct_arr {items : List (Json F)} (each : ∀ item ∈ items, Distinct item) : Distinct (.arr items) := by
  show DistinctItems items
  induction items with
  | nil => trivial
  | cons item rest ih => exact ⟨each item List.mem_cons_self, ih fun other member => each other (List.mem_cons_of_mem _ member)⟩

theorem distinct_tokenEntry (token : ServiceKey) : Distinct (tokenEntry token : Json F) := by
  refine ⟨by simp, distinct_members _ fun item member => ?_⟩
  simp only [List.mem_cons, List.not_mem_nil, or_false] at member
  rcases member with rfl | rfl | rfl | rfl | rfl <;> trivial

theorem distinct_lockOf {entries : List (Dict F)} (each : ∀ entry ∈ entries, Distinct (.obj entry)) :
    Distinct (.obj (lockOf checkout composition prepared entries)) := by
  refine ⟨by simp [lockOf], distinct_members _ fun item member => ?_⟩
  simp only [lockOf, List.mem_cons, List.not_mem_nil, or_false] at member
  rcases member with rfl | rfl | rfl | rfl | rfl | rfl | rfl
  · trivial
  · trivial
  · trivial
  · trivial
  · trivial
  · refine distinct_arr fun item here => ?_
    obtain ⟨token, _, rfl⟩ := List.mem_map.mp here
    exact distinct_tokenEntry token
  · refine distinct_arr fun item here => ?_
    obtain ⟨entry, within, rfl⟩ := List.mem_map.mp here
    exact each entry within

/-- A snapshot is a lock whose entries are those of the rows. -/
theorem snapshot_made (made : snapshot environ checkout composition prepared = .ok old) :
    ∃ entries, old = lockOf checkout composition prepared entries ∧ ∀ entry ∈ entries, ∃ row, EntryOf checkout row entry := by
  obtain ⟨entries, each, made⟩ := (bind_ok_iff _ _ _).mp made
  cases made
  refine ⟨entries, rfl, fun entry member => ?_⟩
  obtain ⟨row, _, of_row⟩ := forall₂_mem_right ((mapM_ok_iff _ _ _).mp each) _ member
  exact ⟨row, snapshotEntry_made of_row⟩

theorem snapshot_distinct (made : snapshot environ checkout composition prepared = .ok old) : Distinct (.obj old) := by
  obtain ⟨entries, rfl, each⟩ := snapshot_made made
  refine distinct_lockOf fun entry member => ?_
  obtain ⟨row, of_row⟩ := each entry member
  exact of_row.distinct

/-- What is written of a snapshot is read back as a lock, with its keys in order. -/
theorem read_created [FloatText F] {printing : Printing F} {path : String} (made : snapshot environ checkout composition prepared = .ok old) :
    read floats printing path (some (lockText old)) = .ok (some (sortedDict old)) := by
  have distinct := snapshot_distinct made
  obtain ⟨entries, rfl, each⟩ := snapshot_made made
  have loaded : loads (lockText (lockOf checkout composition prepared entries)) =
      some (.obj (sortedDict (lockOf checkout composition prepared entries))) := by
    rw [loads_lockText distinct, sortKeys]
    rfl
  have version : get (sortedDict (lockOf checkout composition prepared entries)) "lock_version" = .int LOCK_VERSION := by
    rw [get_sorted distinct.1]
    rfl
  have listed : get (sortedDict (lockOf checkout composition prepared entries)) "entries" = .arr (entries.map fun entry => .obj (sortedDict entry)) := by
    have here : get (lockOf checkout composition prepared entries) "entries" = .arr (entries.map .obj) := rfl
    rw [get_sorted distinct.1, here, sortKeys, sortItems_map, List.map_map]
    rfl
  have entries_named : (entries.map fun entry => Json.obj (sortedDict entry)).all isEntry = true := by
    rw [List.all_eq_true]
    intro value member
    obtain ⟨entry, here, rfl⟩ := List.mem_map.mp member
    obtain ⟨row, of_row⟩ := each entry here
    have named : get (sortedDict entry) "id" = .str row.id := by
      rw [get_sorted of_row.distinct.1, of_row.id]
      rfl
    have found : ((dictIn (.obj (sortedDict entry))).bind fun entry => textIn (get entry "id")) = some row.id := by
      rw [dictIn, Option.bind_some, named]
      rfl
    rw [isEntry, found]
    rfl
  unfold read
  dsimp only
  rw [loaded]
  dsimp only
  rw [version, if_pos (by simp [equal, Schema.sameNumber, Schema.unbool]), listed]
  exact if_pos entries_named

/-- What a lock says of a service. -/
def recorded (token : ServiceKey) : String × String × String × Bool × Int :=
  (token.name, token.module, token.definition, token.single, token.protocolVersion)

theorem equal_tokenEntry (token token' : ServiceKey) :
    equal floats (tokenEntry token : Json F) (tokenEntry token') = true ↔ recorded token = recorded token' := by
  have cardinality : ((if token.single then "single" else "registry") = if token'.single then "single" else "registry") ↔ token.single = token'.single := by
    cases token.single <;> cases token'.single <;> decide
  simp [tokenEntry, equal, Schema.equalMembers, Schema.sameNumber, Schema.unbool, recorded, cardinality]

theorem equal_tokens (tokens tokens' : List ServiceKey) : equal floats (.arr (tokens.map (tokenEntry (F := F)))) (.arr (tokens'.map tokenEntry)) = true ↔
    tokens.map recorded = tokens'.map recorded := by
  rw [equal]
  induction tokens generalizing tokens' with
  | nil => cases tokens' <;> simp [equalItems]
  | cons token rest ih =>
      cases tokens' with
      | nil => simp [equalItems]
      | cons token' rest' => rw [List.map_cons, List.map_cons, equalItems, Bool.and_eq_true, ih, equal_tokenEntry, List.map_cons, List.map_cons, List.cons.injEq]

/-! ### Resuming what was created -/

theorem floatless_strings (names : List String) : Floatless (strings names : Json F) := by
  show FloatlessItems _
  rw [floatlessItems_iff]
  intro item member
  obtain ⟨_, _, rfl⟩ := List.mem_map.mp member
  trivial

theorem floatless_filesOf (identity : Identity) : Floatless (filesOf identity : Json F) := by
  show FloatlessMembers _
  rw [floatlessMembers_iff]
  intro item member
  obtain ⟨package, _, rfl⟩ := List.mem_map.mp member
  show FloatlessMembers _
  rw [floatlessMembers_iff]
  intro file here
  obtain ⟨_, _, rfl⟩ := List.mem_map.mp here
  trivial

theorem EntryOf.floatless {row : Row F} {entry : Dict F} (made : EntryOf checkout row entry) : Floatless (.obj entry) := by
  cases made with
  | undeclared =>
      exact ⟨trivial, trivial, trivial, trivial, trivial, floatless_strings _, floatless_strings _, trivial, trivial, trivial, trivial, trivial⟩
  | declared declaration identity config =>
      exact ⟨trivial, trivial, trivial, trivial, trivial, floatless_strings _, floatless_strings _, trivial, trivial, trivial,
        floatless_filesOf identity, floatless_strings _, trivial⟩

/-- The composition that a lock was created for resumes under it, without a difference. -/
theorem resume_same {path : String} (made : snapshot environ checkout composition prepared = .ok old) :
    resume floats path (sortedDict old) old = .ok [] := by
  have distinct := snapshot_distinct made
  obtain ⟨entries, rfl, each⟩ := snapshot_made made
  have entries_sorted (id : String) := entryAt_sorted distinct.1 (fun entry member => by
    obtain ⟨row, of_row⟩ := each entry (entriesOf_lockOf entries ▸ member)
    exact of_row.distinct.1) id
  have rows : ∀ id, differenceAt floats (sortedDict (lockOf checkout composition prepared entries))
      (lockOf checkout composition prepared entries) id = none := by
    intro id
    rw [differenceAt, entries_sorted]
    cases found : entryAt (lockOf checkout composition prepared entries) id with
    | none => rfl
    | some entry =>
        have member := List.mem_reverse.mp (List.mem_of_find?_eq_some found)
        obtain ⟨row, of_row⟩ := each entry (entriesOf_lockOf entries ▸ member)
        have same : equal floats (.obj (sortedDict entry)) (.obj entry) = true :=
          (equal_sortKeys (.obj entry) (.obj entry) of_row.distinct of_row.distinct).trans (equal_refl _ of_row.distinct of_row.floatless)
        exact if_pos same
  have globals : ∀ field ∈ GLOBAL_FIELDS, globalDifference floats (sortedDict (lockOf checkout composition prepared entries))
      (lockOf checkout composition prepared entries) field = none := by
    intro field member
    have plain : Floatless (get (lockOf checkout composition prepared entries) field) := by
      simp only [GLOBAL_FIELDS, List.mem_cons, List.not_mem_nil, or_false] at member
      rcases member with rfl | rfl | rfl | rfl
      · trivial
      · trivial
      · show FloatlessItems _
        rw [floatlessItems_iff]
        intro item here
        obtain ⟨token, _, rfl⟩ := List.mem_map.mp here
        exact ⟨trivial, trivial, trivial, trivial, trivial, trivial⟩
      · trivial
    have within := Schema.distinct_get distinct field
    rw [globalDifference, get_sorted distinct.1, if_pos]
    rw [equal_sortKeys _ _ within within]
    exact equal_refl _ within plain
  have records : differenceRecords floats (sortedDict (lockOf checkout composition prepared entries)) (lockOf checkout composition prepared entries) = [] := by
    rw [differenceRecords, List.append_eq_nil_iff, List.filterMap_eq_nil_iff, List.filterMap_eq_nil_iff]
    exact ⟨fun id _ => rows id, globals⟩
  rw [resume, records]
  rfl

variable (floats) in
/-- The composition that a lock was created for resumes under it without a difference, and another one if and only if
the variables, the core and the services are the same and every row is kept. -/
theorem resume_of_created [FloatText F] (printing : Printing F) (path : String) (made : snapshot environ checkout composition prepared = .ok old)
    (made' : snapshot environ' checkout' composition' prepared' = .ok new) :
    ∃ stored, read floats printing path (some (lockText old)) = .ok (some stored) ∧ resume floats path stored old = .ok [] ∧
      ((∃ lines, resume floats path stored new = .ok lines) ↔
        checkout.digest (texts composition.vars) = checkout'.digest (texts composition'.vars) ∧ checkout.version = checkout'.version ∧
        checkout.digest checkout.framework = checkout'.digest checkout'.framework ∧
        (byName prepared.seams).map recorded = (byName prepared'.seams).map recorded ∧
        ∀ id, Kept floats (rowEntry environ checkout composition prepared id) (rowEntry environ' checkout' composition' prepared' id)) := by
  have distinct := snapshot_distinct made
  have distinct' := snapshot_distinct made'
  have sorted (id : String) : entryAt (sortedDict old) id = (rowEntry environ checkout composition prepared id).map sortedDict := by
    rw [← entryAt_snapshot made]
    refine entryAt_sorted distinct.1 (fun entry member => ?_) id
    obtain ⟨entries, rfl, each⟩ := snapshot_made made
    obtain ⟨row, of_row⟩ := each entry (entriesOf_lockOf entries ▸ member)
    exact of_row.distinct.1
  refine ⟨sortedDict old, read_created made, resume_same made, ?_⟩
  rw [resume_accepts_iff, ← and_assoc, ← and_assoc, ← and_assoc]
  · refine and_congr ?_ (forall_congr' fun id => ?_)
    · have globals (field : String) : equal floats (get (sortedDict old) field) (get new field) = equal floats (get old field) (get new field) := by
        rw [get_sorted distinct.1]
        exact equal_sortKeys _ _ (Schema.distinct_get distinct field) (Schema.distinct_get distinct' field)
      obtain ⟨entries, rfl, _⟩ := snapshot_made made
      obtain ⟨entries', rfl, _⟩ := snapshot_made made'
      have vars : get (lockOf checkout composition prepared entries) "variables_digest" = .str (checkout.digest (texts composition.vars)) := rfl
      have vars' : get (lockOf checkout' composition' prepared' entries') "variables_digest" = .str (checkout'.digest (texts composition'.vars)) := rfl
      have version : get (lockOf checkout composition prepared entries) "core_version" = .str checkout.version := rfl
      have version' : get (lockOf checkout' composition' prepared' entries') "core_version" = .str checkout'.version := rfl
      have digest : get (lockOf checkout composition prepared entries) "core_digest" = .str (checkout.digest checkout.framework) := rfl
      have digest' : get (lockOf checkout' composition' prepared' entries') "core_digest" = .str (checkout'.digest checkout'.framework) := rfl
      have tokens : get (lockOf checkout composition prepared entries) "tokens" = .arr ((byName prepared.seams).map tokenEntry) := rfl
      have tokens' : get (lockOf checkout' composition' prepared' entries') "tokens" = .arr ((byName prepared'.seams).map tokenEntry) := rfl
      simp only [GLOBAL_FIELDS, List.forall_mem_cons, globals, vars, vars', version, version', digest, digest', tokens, tokens', equal_str,
        equal_tokens, Json.str.injEq]
      tauto
    · rw [sorted, entryAt_snapshot made']
      cases before : rowEntry environ checkout composition prepared id with
      | none =>
          constructor
          · intro resumable
            cases after : rowEntry environ' checkout' composition' prepared' id with
            | none => exact .neither
            | some _ =>
                rw [after] at resumable
                cases resumable
          · intro kept
            cases after : rowEntry environ' checkout' composition' prepared' id with
            | none => exact .neither
            | some _ =>
                rw [after] at kept
                cases kept
      | some entry =>
          cases after : rowEntry environ' checkout' composition' prepared' id with
          | none =>
              constructor
              · intro resumable
                cases resumable
              · intro kept
                cases kept
          | some entry' =>
              obtain ⟨row, of_row⟩ := rowEntry_made before
              obtain ⟨row', of_row'⟩ := rowEntry_made after
              exact resumable_iff_kept of_row of_row'
  · intro id entry found
    rw [sorted] at found
    obtain ⟨before, here, rfl⟩ := Option.map_eq_some_iff.mp found
    obtain ⟨row, of_row⟩ := rowEntry_made here
    exact (distinct_sortKeys _ of_row.distinct).1
  · intro id entry found
    rw [entryAt_snapshot made'] at found
    obtain ⟨row, of_row⟩ := rowEntry_made found
    exact of_row.distinct.1

end Snapshots

/-! ### A row that moves to another group -/

def exampleFloats : Floats OnlyNan :=
  ⟨fun _ => false, fun _ _ => false, fun _ _ => false, fun _ _ => false, fun _ _ => false, fun _ _ => false⟩

def examplePrinting : Printing OnlyNan := ⟨fun _ => "", fun _ => ""⟩

def exampleCheckout : Checkout OnlyNan where
  digest _ := "digest"
  identity _ := .ok ⟨"observational", ["group"], [("aka.log", [("log.py", "digest")])], by decide, by decide, by decide, by decide⟩
  framework := .null
  version := "1.0"

/-- A composition of one row, in a group. -/
def exampleComposition (group : String) : Composition OnlyNan where
  profile := group
  rows := [⟨"log", "aka.log", [], true, false, [], [], group, "", "bundle:base", ""⟩]
  layers := ["bundle:base"]
  vars := []
  configsResolved := false
  distinct := List.nodup_singleton _
  named row member := by
    rw [List.mem_singleton.mp member]
    exact ne_of_beq_false rfl

def examplePrepared : Prepared OnlyNan where
  seams := []
  declarations := [("log", some ⟨"log", "aka.log", none, none, [], [], [], [], []⟩)]
  effectiveConfigs := [("log", [])]

theorem example_fields : differingFields exampleFloats
    ((rowEntry (fun _ => none) exampleCheckout (exampleComposition "first") examplePrepared "log").getD [])
    ((rowEntry (fun _ => none) exampleCheckout (exampleComposition "second") examplePrepared "log").getD []) = ["group"] := by
  decide +kernel

theorem example_kept (id : String) : Kept exampleFloats (rowEntry (fun _ => none) exampleCheckout (exampleComposition "first") examplePrepared id)
    (rowEntry (fun _ => none) exampleCheckout (exampleComposition "second") examplePrepared id) := by
  by_cases here : "log" = id
  · subst here
    refine .regrouped rfl fun key other => ?_
    by_contra differs
    have field : key ∈ differingFields exampleFloats
        ((rowEntry (fun _ => none) exampleCheckout (exampleComposition "first") examplePrepared "log").getD [])
        ((rowEntry (fun _ => none) exampleCheckout (exampleComposition "second") examplePrepared "log").getD []) :=
      mem_differingFields.mpr differs
    rw [example_fields, List.mem_singleton] at field
    exact other field
  · have absent (group : String) : rowEntry (fun _ => none) exampleCheckout (exampleComposition group) examplePrepared id = none := by
      simp [rowEntry, Overlay.entry, exampleComposition, here]
    rw [absent, absent]
    exact .neither

theorem example_snapshot (group : String) :
    ∃ lock, snapshot (fun _ => none) exampleCheckout (exampleComposition group) examplePrepared = .ok lock := ⟨_, rfl⟩

/-- A row whose plugin only observes its group resumes in another one. -/
theorem resume_of_created_regrouped : ∃ old new stored lines,
    snapshot (fun _ => none) exampleCheckout (exampleComposition "first") examplePrepared = .ok old ∧
      snapshot (fun _ => none) exampleCheckout (exampleComposition "second") examplePrepared = .ok new ∧
      read exampleFloats examplePrinting "lock" (some (lockText old)) = .ok (some stored) ∧ resume exampleFloats "lock" stored new = .ok lines := by
  obtain ⟨old, made⟩ := example_snapshot "first"
  obtain ⟨new, made'⟩ := example_snapshot "second"
  obtain ⟨stored, reads, _, accepts⟩ := resume_of_created exampleFloats examplePrinting "lock" made made'
  obtain ⟨lines, resumed⟩ := accepts.mpr ⟨rfl, rfl, rfl, rfl, example_kept⟩
  exact ⟨old, new, stored, lines, made, made', reads, resumed⟩

end AtrexAgent.Lock
