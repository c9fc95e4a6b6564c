import AtrexAgent.Core.Schema
import AtrexAgent.Library.JsonText

/-! `==` of JSON values, read off the items of dicts. -/

namespace AtrexAgent.Schema

open AtrexAgent.Json

variable {F : Type} {floats : Floats F}

/-- `bool(value)` -/
def truthy (floats : Floats F) : Json F → Bool
  | .null => false
  | .bool b => b
  | .int n => n ≠ 0
  | .float x => !floats.sameInt x 0
  | .str s => s ≠ ""
  | .arr items => !items.isEmpty
  | .obj items => !items.isEmpty

/-- `value == s` -/
def isStr (s : String) : Json F → Bool
  | .str t => t = s
  | _ => false

@[simp] theorem isStr_iff (s : String) (value : Json F) : isStr s value = true ↔ value = .str s := by
  cases value <;> simp [isStr]

/-- Two dicts hold equal values at a key, or neither has it. -/
def SameAt (floats : Floats F) (a b : Dict F) (key : String) : Prop :=
  match find? a key, find? b key with
  | none, none => True
  | some value, some other => equal floats value other = true
  | _, _ => False

theorem find?_isSome_iff (d : Dict F) (key : String) :
    (find? d key).isSome ↔ key ∈ d.map Prod.fst := by
  rw [Option.isSome_iff_ne_none, Ne, find?_eq_none]
  simp only [not_forall, not_not, List.mem_map, exists_prop]

theorem find?_of_mem {d : Dict F} (distinct : (d.map Prod.fst).Nodup) {key : String} {value : Json F}
    (member : (key, value) ∈ d) : find? d key = some value := by
  induction d with
  | nil => cases member
  | cons item rest ih =>
      rw [List.map_cons, List.nodup_cons] at distinct
      rw [find?_cons]
      rcases List.mem_cons.mp member with rfl | later
      · exact if_pos rfl
      · rw [if_neg, ih distinct.2 later]
        rintro rfl
        exact distinct.1 (List.mem_map.mpr ⟨_, later, rfl⟩)

theorem mem_of_find? {d : Dict F} {key : String} {value : Json F} (found : find? d key = some value) :
    (key, value) ∈ d := by
  unfold find? at found
  obtain ⟨⟨name, held⟩, here, rfl⟩ := Option.map_eq_some_iff.mp found
  have same : name = key := by simpa using List.find?_some here
  subst same
  exact List.mem_of_find?_eq_some here

theorem distinct_get {d : Dict F} (distinct : Distinct (.obj d)) (key : String) :
    Distinct (get d key) := by
  unfold Json.get
  cases found : find? d key with
  | none => trivial
  | some value => exact distinct_member d distinct.2 _ (mem_of_find? found)

theorem distinct_membersOf {value : Json F} (distinct : Distinct value) :
    Distinct (.obj (membersOf value)) := by
  cases value with
  | obj items => exact distinct
  | _ => exact ⟨List.nodup_nil, trivial⟩

theorem equalMembers_iff (a b : Dict F) : equalMembers floats a b = true ↔
    ∀ item ∈ a, ∃ other, find? b item.1 = some other ∧ equal floats item.2 other = true := by
  induction a with
  | nil => simp [equalMembers]
  | cons item rest ih =>
      obtain ⟨key, value⟩ := item
      rw [equalMembers, Bool.and_eq_true, ih, List.forall_mem_cons]
      refine and_congr_left fun _ => ?_
      cases find? b key with
      | none => simp
      | some other => simp

/-- Dicts are equal where they are at every key. -/
theorem equal_obj_iff {a b : Dict F} (distinct : (a.map Prod.fst).Nodup)
    (distinct' : (b.map Prod.fst).Nodup) :
    equal floats (.obj a) (.obj b) = true ↔ ∀ key, SameAt floats a b key := by
  rw [equal, Bool.and_eq_true, equalMembers_iff, decide_eq_true_eq]
  constructor
  · rintro ⟨length, members⟩ key
    have within : a.map Prod.fst ⊆ b.map Prod.fst := by
      intro name member
      obtain ⟨item, given, rfl⟩ := List.mem_map.mp member
      obtain ⟨other, found, -⟩ := members item given
      exact (find?_isSome_iff b item.1).mp (by rw [found]; rfl)
    have perm : (a.map Prod.fst).Perm (b.map Prod.fst) :=
      (distinct.subperm within).perm_of_length_le (by simp [length])
    unfold SameAt
    cases here : find? a key with
    | none =>
        cases there : find? b key with
        | none => trivial
        | some other =>
            have member := (find?_isSome_iff b key).mp (by rw [there]; rfl)
            have member' := (find?_isSome_iff a key).mpr (perm.mem_iff.mpr member)
            rw [here] at member'
            cases member'
    | some value =>
        have member := (find?_isSome_iff a key).mp (by rw [here]; rfl)
        obtain ⟨⟨_, value'⟩, given, rfl⟩ := List.mem_map.mp member
        obtain ⟨other, found, same⟩ := members _ given
        rw [find?_of_mem distinct given] at here
        cases here
        dsimp only at found ⊢
        rw [found]
        exact same
  · intro same
    have keys : ∀ key, key ∈ a.map Prod.fst ↔ key ∈ b.map Prod.fst := by
      intro key
      rw [← find?_isSome_iff, ← find?_isSome_iff]
      have here := same key
      unfold SameAt at here
      cases found : find? a key <;> cases found' : find? b key <;> simp_all
    have perm := (List.perm_ext_iff_of_nodup distinct distinct').mpr keys
    refine ⟨by simpa using perm.length_eq, ?_⟩
    rintro ⟨key, value⟩ given
    have here := same key
    unfold SameAt at here
    rw [find?_of_mem distinct given] at here
    cases found : find? b key with
    | none =>
        rw [found] at here
        exact here.elim
    | some other =>
        rw [found] at here
        exact ⟨other, rfl, here⟩

theorem equal_str (value : Json F) (s : String) : equal floats value (.str s) = true ↔ value = .str s := by
  cases value <;> simp [equal, sameNumber, unbool]

theorem equal_strs (words words' : List String) :
    equal floats (.arr (words.map .str)) (.arr (words'.map .str)) = true ↔ words = words' := by
  rw [equal]
  induction words generalizing words' with
  | nil => cases words' <;> simp [equalItems]
  | cons word rest ih =>
      cases words' with
      | nil => simp [equalItems]
      | cons word' rest' =>
          rw [List.map_cons, List.map_cons, equalItems, Bool.and_eq_true, ih, equal_str]
          simp

end AtrexAgent.Schema
