import AtrexAgent.Core.Reference
import AtrexAgent.Library.Computation
import AtrexAgent.Library.Objects

/-! Interpolation of the config of a composition row: references in the text of fields that a
plugin lists are replaced, and are rejected anywhere else. -/

namespace AtrexAgent.Interpolation

open AtrexAgent.Computation
open AtrexAgent.Computation.Comp
open AtrexAgent.Json
open AtrexAgent.Objects

/-! ### Fields -/

variable {F : Type}

abbrev Path := List String

abbrev Field (F : Type) := Path × Json F

def consSegment (c : Char) : List Text → List Text
  | [] => [[c]]
  | first :: rest => (c :: first) :: rest

def segments : Text → List Text
  | [] => [[]]
  | c :: s => if c = '.' then [] :: segments s else consSegment c (segments s)

/-- `tuple(entry.split("."))` -/
def split (entry : String) : Path := (segments entry.toList).map String.ofList

mutual

/-- `_contains_reference` -/
def containsReference : Json F → Bool
  | .str text => hasReference text.toList
  | .arr items => itemsContain items
  | .obj items => valuesContain items
  | .null => false
  | .bool _ => false
  | .int _ => false
  | .float _ => false

def itemsContain : List (Json F) → Bool
  | [] => false
  | item :: rest => containsReference item || itemsContain rest

def valuesContain : Dict F → Bool
  | [] => false
  | (_, value) :: rest => containsReference value || valuesContain rest

end

mutual

/-- `_substitute_value` -/
def substituteValue (scope : Scope) : Json F → Except Exc (Json F)
  | .str text => do
      let text ← substitute scope text.toList
      pure (.str (String.ofList text))
  | .arr items => do
      let items ← substituteItems scope items
      pure (.arr items)
  | .obj items => do
      let items ← substituteMembers scope items
      pure (.obj items)
  | .null => .ok .null
  | .bool value => .ok (.bool value)
  | .int value => .ok (.int value)
  | .float value => .ok (.float value)

def substituteItems (scope : Scope) : List (Json F) → Except Exc (List (Json F))
  | [] => .ok []
  | item :: rest => do
      let item ← substituteValue scope item
      let rest ← substituteItems scope rest
      pure (item :: rest)

def substituteMembers (scope : Scope) : Dict F → Except Exc (Dict F)
  | [] => .ok []
  | (key, value) :: rest => do
      let value ← substituteValue scope value
      let rest ← substituteMembers scope rest
      pure ((key, value) :: rest)

end

abbrev M (F : Type) := Comp (Heap F) Exc

def lift {α : Type} : Except Exc α → M F α
  | .ok value => pure value
  | .error error => raise error

def walkEntries (walk : Path → Nat → Except Exc (List (Field F))) (before : Path) :
    Entries F → Except Exc (List (Field F))
  | [] => .ok []
  | (key, .dict object) :: rest => do
      let found ← walk (before ++ [key]) object
      let later ← walkEntries walk before rest
      pure (found ++ later)
  | (key, .plain value) :: rest => do
      let later ← walkEntries walk before rest
      pure ((before ++ [key], value) :: later)

/-- `_walk`, as far as the interpreter follows the nesting of dicts. -/
def walk (heap : Heap F) : Nat → Path → Nat → Except Exc (List (Field F))
  | 0, _, _ => .error .recursionError
  | limit + 1, before, object => walkEntries (walk heap limit) before (heap[object]?.getD [])

def dotted (path : Path) : String := ".".intercalate path

/-- A copy of a dict. -/
def copyDict (object : Nat) : M F Nat := do
  let heap ← get
  modify fun heap => heap ++ [heap[object]?.getD []]
  pure heap.length

def setItem (object : Nat) (key : String) (value : Value F) : M F Unit :=
  modify fun heap => heap.set object (setEntry (heap[object]?.getD []) key value)

/-- The loop of `_assign`, with the dict that is its cursor. -/
def assignAt (path : Path) (value : Value F) : Path → Nat → M F Unit
  | [], _ => raise .indexError
  | [last], cursor => setItem cursor last value
  | segment :: rest, cursor => do
      let heap ← get
      match getEntry (heap[cursor]?.getD []) segment with
      | some (.dict child) => do
          let child ← copyDict child
          setItem cursor segment (.dict child)
          assignAt path value rest child
      | _ => raise (.compositionError "interpolation"
          ("cannot write \"" ++ dotted path ++ "\": " ++ segment ++ " is not an object"))

def interpolateField (allowed : List Path) (scope : Scope) (result : Nat) (field : Field F) : M F Unit :=
  if containsReference field.2 then
    if field.1 ∈ allowed then do
      let value ← lift (substituteValue scope field.2)
      assignAt field.1 (.plain value) field.1 result
    else raise (.compositionError scope.source ("field \"" ++ dotted field.1 ++ "\" contains \"$\x7b\" " ++
      "but is not listed in the plugin's interpolate allowlist"))
  else pure ()

def interpolateFields (allowed : List Path) (scope : Scope) (result : Nat) : List (Field F) → M F Unit
  | [] => pure ()
  | field :: rest => do
      interpolateField allowed scope result field
      interpolateFields allowed scope result rest

/-- `apply_interpolation` -/
def applyInterpolation (limit : Nat) (allowlist : List String) (scope : Scope) (config : Nat) : M F Nat := do
  let result ← copyDict config
  let heap ← get
  let fields ← lift (walk heap limit [] config)
  interpolateFields (allowlist.map split) scope result fields
  pure result

/-! ### Trees -/

mutual

/-- The fields of a tree: what it holds under nested keys. -/
def fieldsIn : Json F → List (Field F)
  | .obj items => fields items
  | value => [([], value)]

def fields : Dict F → List (Field F)
  | [] => []
  | (key, value) :: rest => ((fieldsIn value).map fun field => (key :: field.1, field.2)) ++ fields rest

end

mutual

/-- The strings of a value. -/
def texts : Json F → List Text
  | .str text => [text.toList]
  | .arr items => itemTexts items
  | .obj items => memberTexts items
  | _ => []

def itemTexts : List (Json F) → List Text
  | [] => []
  | item :: rest => texts item ++ itemTexts rest

def memberTexts : Dict F → List Text
  | [] => []
  | (_, value) :: rest => texts value ++ memberTexts rest

end

mutual

def mapTexts (f : Text → Text) : Json F → Json F
  | .str text => .str (String.ofList (f text.toList))
  | .arr items => .arr (mapItems f items)
  | .obj items => .obj (mapMembers f items)
  | .null => .null
  | .bool value => .bool value
  | .int value => .int value
  | .float value => .float value

def mapItems (f : Text → Text) : List (Json F) → List (Json F)
  | [] => []
  | item :: rest => mapTexts f item :: mapItems f rest

def mapMembers (f : Text → Text) : Dict F → Dict F
  | [] => []
  | (key, value) :: rest => (key, mapTexts f value) :: mapMembers f rest

end

mutual

/-- A tree with the strings of the fields that are allowed rewritten. -/
def mapField (allowed : Path → Prop) [DecidablePred allowed] (f : Text → Text) : Json F → Json F
  | .obj items => .obj (mapFields allowed f items)
  | .str text => if allowed [] then mapTexts f (.str text) else .str text
  | .arr items => if allowed [] then mapTexts f (.arr items) else .arr items
  | .null => .null
  | .bool value => .bool value
  | .int value => .int value
  | .float value => .float value

def mapFields (allowed : Path → Prop) [DecidablePred allowed] (f : Text → Text) : Dict F → Dict F
  | [] => []
  | (key, value) :: rest =>
      (key, mapField (fun path => allowed (key :: path)) f value) :: mapFields allowed f rest

end

def assign (value : Json F) : Path → Dict F → Dict F
  | [], items => items
  | [last], items => set items last value
  | segment :: rest, items =>
      match find? items segment with
      | some (.obj inner) => set items segment (.obj (assign value rest inner))
      | _ => items

/-- A path to what a dict holds and is not a dict. -/
def Leaf : Path → Dict F → Prop
  | [], _ => False
  | [last], items => ∃ value, find? items last = some value ∧ isDict value = false
  | segment :: rest, items => ∃ inner, find? items segment = some (.obj inner) ∧ Leaf rest inner

mutual

theorem containsReference_texts (value : Json F) :
    containsReference value = true ↔ ∃ s ∈ texts value, hasReference s = true := by
  cases value with
  | str text => simp [containsReference, texts]
  | arr items => rw [containsReference, texts, itemsContain_texts items]
  | obj items => rw [containsReference, texts, valuesContain_texts items]
  | null => simp [containsReference, texts]
  | bool value => simp [containsReference, texts]
  | int value => simp [containsReference, texts]
  | float value => simp [containsReference, texts]

theorem itemsContain_texts (items : List (Json F)) :
    itemsContain items = true ↔ ∃ s ∈ itemTexts items, hasReference s = true := by
  cases items with
  | nil => simp [itemsContain, itemTexts]
  | cons item rest =>
      simp only [itemsContain, itemTexts, Bool.or_eq_true, containsReference_texts item,
        itemsContain_texts rest, List.mem_append, or_and_right, exists_or]

theorem valuesContain_texts (items : Dict F) :
    valuesContain items = true ↔ ∃ s ∈ memberTexts items, hasReference s = true := by
  cases items with
  | nil => simp [valuesContain, memberTexts]
  | cons item rest =>
      simp only [valuesContain, memberTexts, Bool.or_eq_true, containsReference_texts item.2,
        valuesContain_texts rest, List.mem_append, or_and_right, exists_or]

end

/-- A computation over all the texts of a value: its result, unless one of them is refused. -/
def Substitutes {α : Type} (scope : Scope) (run : Except Exc α) (result : α) (within : List Text) : Prop :=
  ((∃ error, run = .error error) ↔ ∃ s ∈ within, Refused scope s) ∧
    ∀ value, run = .ok value → value = result

theorem substitutes_bind {α β γ : Type} {scope : Scope} {run : Except Exc α} {next : Except Exc β}
    {result : α} {result' : β} {within within' : List Text} (join : α → β → γ)
    (first : Substitutes scope run result within) (second : Substitutes scope next result' within') :
    Substitutes scope (do let a ← run; let b ← next; pure (join a b)) (join result result')
      (within ++ within') := by
  have either : (∃ s ∈ within ++ within', Refused scope s) ↔
      (∃ s ∈ within, Refused scope s) ∨ ∃ s ∈ within', Refused scope s := by
    simp only [List.mem_append, or_and_right, exists_or]
  unfold Substitutes
  rw [either, ← first.1, ← second.1]
  cases run with
  | error error => exact ⟨⟨fun _ => Or.inl ⟨error, rfl⟩, fun _ => ⟨error, rfl⟩⟩, fun _ => nofun⟩
  | ok a =>
      cases next with
      | error error => exact ⟨⟨fun _ => Or.inr ⟨error, rfl⟩, fun _ => ⟨error, rfl⟩⟩, fun _ => nofun⟩
      | ok b =>
          refine ⟨⟨?_, ?_⟩, ?_⟩
          · rintro ⟨_, wrong⟩
            cases wrong
          · rintro (⟨_, wrong⟩ | ⟨_, wrong⟩) <;> cases wrong
          · rintro value ⟨⟩
            rw [first.2 a rfl, second.2 b rfl]

theorem substitutes_map {α β : Type} {scope : Scope} {run : Except Exc α} {result : α}
    {within : List Text} (wrap : α → β) (given : Substitutes scope run result within) :
    Substitutes scope (do let a ← run; pure (wrap a)) (wrap result) within := by
  unfold Substitutes
  rw [← given.1]
  cases run with
  | error error => exact ⟨⟨fun _ => ⟨error, rfl⟩, fun _ => ⟨error, rfl⟩⟩, fun _ => nofun⟩
  | ok a =>
      refine ⟨⟨?_, ?_⟩, ?_⟩
      · rintro ⟨_, wrong⟩
        cases wrong
      · rintro ⟨_, wrong⟩
        cases wrong
      · rintro value ⟨⟩
        rw [given.2 a rfl]

theorem substitutes_ok {α : Type} {scope : Scope} (value : α) : Substitutes scope (.ok value) value [] := by
  refine ⟨⟨?_, ?_⟩, ?_⟩
  · rintro ⟨_, wrong⟩
    cases wrong
  · rintro ⟨_, member, -⟩
    cases member
  · rintro _ ⟨⟩
    rfl

theorem substitutes_text (scope : Scope) (s : Text) :
    Substitutes scope (substitute scope s) (substituted scope s) [s] := by
  refine ⟨?_, ?_⟩
  · simp [Refused]
  · intro value done
    unfold substituted
    rw [done]

mutual

theorem substituteValue_texts (scope : Scope) (value : Json F) :
    Substitutes scope (substituteValue scope value) (mapTexts (substituted scope) value) (texts value) := by
  cases value with
  | str text =>
      rw [substituteValue, mapTexts, texts]
      exact substitutes_map (fun text => Json.str (String.ofList text)) (substitutes_text scope text.toList)
  | arr items =>
      rw [substituteValue, mapTexts, texts]
      exact substitutes_map Json.arr (substituteItems_texts scope items)
  | obj items =>
      rw [substituteValue, mapTexts, texts]
      exact substitutes_map Json.obj (substituteMembers_texts scope items)
  | null => exact substitutes_ok _
  | bool value => exact substitutes_ok _
  | int value => exact substitutes_ok _
  | float value => exact substitutes_ok _

theorem substituteItems_texts (scope : Scope) (items : List (Json F)) :
    Substitutes scope (substituteItems scope items) (mapItems (substituted scope) items)
      (itemTexts items) := by
  cases items with
  | nil => exact substitutes_ok _
  | cons item rest =>
      rw [substituteItems, mapItems, itemTexts]
      exact substitutes_bind List.cons (substituteValue_texts scope item)
        (substituteItems_texts scope rest)

theorem substituteMembers_texts (scope : Scope) (items : Dict F) :
    Substitutes scope (substituteMembers scope items) (mapMembers (substituted scope) items)
      (memberTexts items) := by
  cases items with
  | nil => exact substitutes_ok _
  | cons item rest =>
      rw [substituteMembers, mapMembers, memberTexts]
      exact substitutes_bind (fun value rest => (item.1, value) :: rest)
        (substituteValue_texts scope item.2) (substituteMembers_texts scope rest)

end

/-! ### Writing to copies -/

section Copies

variable {heap old : Heap F}

theorem leaf_find {path : Path} {segment : String} {items : Dict F} (leaf : Leaf (segment :: path) items) :
    ∃ json, find? items segment = some json := by
  cases path with
  | nil =>
      obtain ⟨json, found, -⟩ := leaf
      exact ⟨json, found⟩
  | cons next rest =>
      obtain ⟨inner, found, -⟩ := leaf
      exact ⟨_, found⟩

theorem find_present {items : Dict F} {key : String} {json : Json F} (found : find? items key = some json) :
    (key, json) ∈ items := by
  unfold find? at found
  obtain ⟨item, member, rfl⟩ := Option.map_eq_some_iff.mp found
  have named := List.find?_some member
  rw [decide_eq_true_iff] at named
  rw [← named]
  exact List.mem_of_find?_eq_some member

theorem run_setItem {object : Nat} {entries : Entries F} (read : heap[object]? = some entries)
    (key : String) (value : Value F) :
    setItem object key value heap = (.ret (), heap.set object (setEntry entries key value)) := by
  change (Outcome.ret (), heap.set object (setEntry (heap[object]?.getD []) key value)) = _
  rw [read]
  rfl

theorem run_copyDict {object : Nat} {entries : Entries F} (read : heap[object]? = some entries) :
    copyDict object heap = (.ret heap.length, heap ++ [entries]) := by
  change (Outcome.ret heap.length, heap ++ [heap[object]?.getD []]) = _
  rw [read]
  rfl

/-- `_assign` writes to the dict that is its cursor and to copies of its own. -/
theorem assignAt_rep (whole : Path) {json : Json F} (plain : isDict json = false) (path : Path) (cursor : Nat)
    (items : Dict F) (rep : Rep heap (.dict cursor) (.obj items)) (leaf : Leaf path items) :
    ∃ heap', assignAt whole (.plain json) path cursor heap = (.ret (), heap') ∧
      Rep heap' (.dict cursor) (.obj (assign json path items)) ∧ heap.length ≤ heap'.length ∧
      ∀ a, a < heap.length → a ≠ cursor → heap'[a]? = heap[a]? := by
  induction path generalizing cursor items heap with
  | nil => exact leaf.elim
  | cons segment rest ih =>
      obtain ⟨entries, read, distinct, fields⟩ := rep_read rep
      have known : cursor < heap.length := (List.getElem?_eq_some_iff.mp read).1
      obtain ⟨inside, found⟩ := leaf_find leaf
      have present : segment ∈ items.map Prod.fst := List.mem_map_of_mem (find_present found)
      cases rest with
      | nil =>
          have same : ∀ a, a < heap.length → a ≠ cursor →
              (heap.set cursor (setEntry entries segment (.plain json)))[a]? = heap[a]? :=
            fun a _ apart => List.getElem?_set_ne (Ne.symm apart)
          exact ⟨_, run_setItem read segment (.plain json),
            rep_set rep read same (List.getElem?_set_self known) (.plain json plain) present,
            (List.length_set ..).ge, same⟩
      | cons next rest =>
          obtain ⟨inner, found, leaf⟩ := leaf
          obtain ⟨value, got, held⟩ := fields_get fields found
          cases held with
          | plain _ wrong => cases wrong
          | dict child childEntries _ childRead childDistinct childFields =>
              -- the child is copied, the cursor points to the copy, and the rest is written there
              let copied := heap ++ [childEntries]
              let linked := copied.set cursor (setEntry entries segment (.dict heap.length))
              have grown : heap <+: copied := List.prefix_append _ _
              have copiedRead : copied[cursor]? = some entries := by
                rw [List.getElem?_append_left known]
                exact read
              have size : linked.length = heap.length + 1 := by
                rw [List.length_set, List.length_append]
                rfl
              have untouched : ∀ a, a < copied.length → a ≠ cursor → linked[a]? = copied[a]? :=
                fun a _ apart => List.getElem?_set_ne (Ne.symm apart)
              have copy : Rep copied (.dict heap.length) (.obj inner) :=
                .dict heap.length childEntries inner List.getElem?_concat_length childDistinct
                  (fields_grow grown childFields)
              have below : depth (.obj inner) < depth (.obj items) := by
                rw [depth.eq_def (.obj items)]
                exact Nat.lt_succ_of_le (depth_field (find_present found))
              obtain ⟨heap', run, rep', longer, same⟩ := ih heap.length inner
                (rep_frame untouched (rep_grow grown rep) copy below) leaf
              have kept : ∀ a, a < heap.length → a ≠ cursor → heap'[a]? = heap[a]? := by
                intro a old apart
                rw [same a (by omega) (by omega), untouched a (by simp [copied]; omega) apart,
                  List.getElem?_append_left old]
              have written : heap'[cursor]? = some (setEntry entries segment (.dict heap.length)) := by
                rw [same cursor (by omega) (by omega)]
                exact List.getElem?_set_self (by simp [copied]; omega)
              refine ⟨heap', ?_, ?_, by omega, kept⟩
              · have got' : getEntry (heap[cursor]?.getD []) segment = some (.dict child) := by
                  rw [read]
                  exact got
                rw [assignAt]
                · rw [run_get_bind]
                  simp only [got']
                  rw [run_bind_ret (run_copyDict childRead), run_bind_ret (run_setItem copiedRead _ _)]
                  exact run
                · exact List.cons_ne_nil _ _
              · rw [assign, found]
                · exact rep_set rep read kept written rep' present
                · exact List.cons_ne_nil _ _

theorem walkEntries_fields {limit : Nat} (before : Path) (entries : Entries F) (items : Dict F)
    (walks : ∀ before object inner, Rep heap (.dict object) (.obj inner) → depth (.obj inner) ≤ limit →
      walk heap limit before object = .ok ((fields inner).map fun field => (before ++ field.1, field.2)))
    (rep : Fields heap entries items) (shallow : depthFields items ≤ limit) :
    walkEntries (walk heap limit) before entries =
      .ok ((fields items).map fun field => (before ++ field.1, field.2)) := by
  induction entries generalizing items with
  | nil =>
      cases rep
      rfl
  | cons entry rest ih =>
      cases rep with
      | cons key value json _ items' field later =>
          rw [depthFields] at shallow
          have rest_ := ih items' later (by omega)
          cases field with
          | plain _ leaf =>
              have own : fieldsIn json = [([], json)] := by
                cases json <;> first | rfl | cases leaf
              rw [walkEntries, rest_, fields, own]
              rfl
          | dict object childEntries inner read distinct childFields =>
              have found := walks (before ++ [key]) object inner
                (.dict object childEntries inner read distinct childFields) (by omega)
              rw [walkEntries, found, rest_, fields, fieldsIn, List.map_append, List.map_map]
              simp [bind, Except.bind, pure, Except.pure, Function.comp_def]

theorem walk_fields (limit : Nat) (before : Path) (object : Nat) (items : Dict F)
    (rep : Rep heap (.dict object) (.obj items)) (shallow : depth (.obj items) ≤ limit) :
    walk heap limit before object = .ok ((fields items).map fun field => (before ++ field.1, field.2)) := by
  induction limit generalizing before object items with
  | zero =>
      rw [depth] at shallow
      cases shallow
  | succ limit ih =>
      obtain ⟨entries, read, -, inside⟩ := rep_read rep
      rw [depth] at shallow
      rw [walk, read]
      exact walkEntries_fields before entries items ih inside (by omega)

end Copies

/-! ### Writing to trees -/

theorem find_middle (done rest : Dict F) (key : String) (value : Json F) (new : key ∉ done.map Prod.fst) :
    find? (done ++ (key, value) :: rest) key = some value := by
  have absent : find? done key = none :=
    (find?_eq_none done key).mpr fun item member same => new (same ▸ List.mem_map_of_mem member)
  rw [find?_append, absent, find?_cons, if_pos rfl]
  rfl

theorem set_other (items : Dict F) (key : String) (value : Json F) (absent : key ∉ items.map Prod.fst) :
    (items.map fun item => if item.1 = key then (key, value) else item) = items := by
  conv_rhs => rw [← List.map_id items]
  refine List.map_congr_left fun item member => if_neg ?_
  rintro rfl
  exact absent (List.mem_map_of_mem member)

theorem set_middle (done rest : Dict F) (key : String) (value value' : Json F)
    (distinct : ((done ++ (key, value) :: rest).map Prod.fst).Nodup) :
    set (done ++ (key, value) :: rest) key value' = done ++ (key, value') :: rest := by
  have present : key ∈ (done ++ (key, value) :: rest).map Prod.fst := by simp
  rw [List.map_append, List.map_cons, List.nodup_middle, List.nodup_cons, List.mem_append, not_or]
    at distinct
  rw [set_present present, List.map_append, List.map_cons, set_other done key value' distinct.1.1,
    set_other rest key value' distinct.1.2, if_pos rfl]

theorem fieldsIn_leaf {value : Json F} (leaf : isDict value = false) : fieldsIn value = [([], value)] := by
  cases value <;> first | rfl | cases leaf

theorem find_distinct {items : Dict F} (distinct : (items.map Prod.fst).Nodup) {key : String} {value : Json F}
    (member : (key, value) ∈ items) : find? items key = some value := by
  obtain ⟨done, rest, rfl⟩ := List.append_of_mem member
  rw [List.map_append, List.map_cons, List.nodup_middle, List.nodup_cons, List.mem_append, not_or]
    at distinct
  exact find_middle done rest key value distinct.1.1

theorem keyedFields_leaf {items rest : Dict F} (keyed : KeyedFields rest)
    (found : ∀ key value, (key, value) ∈ rest → find? items key = some value) :
    ∀ field ∈ fields rest, Leaf field.1 items := by
  cases keyed with
  | nil =>
      intro field member
      cases member
  | cons key value rest field later =>
      have here := found key value List.mem_cons_self
      intro field' member
      rw [fields, List.mem_append] at member
      rcases member with member | member
      · obtain ⟨inner, inside_, rfl⟩ := List.mem_map.mp member
        cases field with
        | leaf _ leaf =>
            rw [fieldsIn_leaf leaf, List.mem_singleton] at inside_
            rw [inside_]
            exact ⟨value, here, leaf⟩
        | dict items' distinct inside =>
            have below : Leaf inner.1 items' := keyedFields_leaf inside
              (fun _ _ member => find_distinct distinct member) inner inside_
            obtain ⟨path, value⟩ := inner
            cases path with
            | nil => exact below.elim
            | cons segment path => exact ⟨items', here, below⟩
      · exact keyedFields_leaf later (fun key value member => found key value (List.mem_cons_of_mem _ member))
          field' member

/-- The fields of a tree are where their paths lead. -/
theorem fields_leaf {items : Dict F} (keyed : Keyed (.obj items)) :
    ∀ field ∈ fields items, Leaf field.1 items := by
  cases keyed with
  | leaf _ wrong => cases wrong
  | dict _ distinct inside => exact keyedFields_leaf inside fun _ _ member => find_distinct distinct member

theorem leaf_congr {segment : String} {path : Path} {items items' : Dict F}
    (same : find? items' segment = find? items segment) (leaf : Leaf (segment :: path) items) :
    Leaf (segment :: path) items' := by
  cases path with
  | nil =>
      obtain ⟨value, found, plain⟩ := leaf
      exact ⟨value, same.trans found, plain⟩
  | cons next rest =>
      obtain ⟨inner, found, below⟩ := leaf
      exact ⟨inner, same.trans found, below⟩

theorem find_assign_other {value : Json F} {segment segment' : String} (path : Path) (items : Dict F)
    (apart : segment ≠ segment') : find? (assign value (segment' :: path) items) segment =
      find? items segment := by
  cases path with
  | nil => rw [assign, find?_set, if_neg apart]
  | cons next rest =>
      rw [assign]
      · split
        · rw [find?_set, if_neg apart]
        · rfl
      · exact List.cons_ne_nil _ _

theorem assign_inner {value : Json F} {segment next : String} {rest : Path} {items inner : Dict F}
    (found : find? items segment = some (.obj inner)) :
    assign value (segment :: next :: rest) items =
      set items segment (.obj (assign value (next :: rest) inner)) := by
  rw [assign, found]
  exact List.cons_ne_nil _ _

/-- A write to one field leaves the others where they are. -/
theorem leaf_assign {value : Json F} (leaf : isDict value = false) {path path' : Path} {items : Dict F}
    (at_ : Leaf path items) (at' : Leaf path' items) : Leaf path (assign value path' items) := by
  induction path' generalizing path items with
  | nil => exact at'.elim
  | cons segment' rest' ih =>
      cases path with
      | nil => exact at_.elim
      | cons segment rest =>
          by_cases same : segment = segment'
          · subst same
            cases rest' with
            | nil =>
                obtain ⟨old, found, plain⟩ := at'
                cases rest with
                | nil => exact ⟨value, by rw [assign, find?_set, if_pos rfl], leaf⟩
                | cons next rest =>
                    obtain ⟨inner, found', -⟩ := at_
                    cases found.symm.trans found'
                    cases plain
            | cons next' rest' =>
                obtain ⟨inner, found, below⟩ := at'
                rw [assign_inner found]
                cases rest with
                | nil =>
                    obtain ⟨old, found', plain⟩ := at_
                    cases found.symm.trans found'
                    cases plain
                | cons next rest =>
                    obtain ⟨inner', found', below'⟩ := at_
                    cases found.symm.trans found'
                    exact ⟨_, by rw [find?_set, if_pos rfl], ih below' below⟩
          · exact leaf_congr (find_assign_other rest' items same) at_

/-- What the loop does to the tree when no field is refused. -/
def rewrite (f : Text → Text) (items : Dict F) (field : Field F) : Dict F :=
  if containsReference field.2 then assign (mapTexts f field.2) field.1 items else items

theorem isDict_mapTexts (f : Text → Text) (value : Json F) : isDict (mapTexts f value) = isDict value := by
  cases value <;> rfl

theorem mapField_leaf (allowed : Path → Prop) [DecidablePred allowed] (f : Text → Text) {value : Json F}
    (leaf : isDict value = false) :
    mapField allowed f value = if allowed [] then mapTexts f value else value := by
  cases value with
  | obj items => cases leaf
  | str text => rfl
  | arr items => rfl
  | null => exact (ite_self _).symm
  | bool value => exact (ite_self _).symm
  | int value => exact (ite_self _).symm
  | float value => exact (ite_self _).symm

theorem rewrite_inside (f : Text → Text) (done rest : Dict F) (key : String) (inner : Dict F)
    (changes : List (Field F)) (distinct : ((done ++ (key, .obj inner) :: rest).map Prod.fst).Nodup)
    (inside : ∀ field ∈ changes, field.1 ≠ []) :
    (changes.map fun field => (key :: field.1, field.2)).foldl (rewrite f)
        (done ++ (key, .obj inner) :: rest) =
      done ++ (key, .obj (changes.foldl (rewrite f) inner)) :: rest := by
  induction changes generalizing inner with
  | nil => rfl
  | cons change later ih =>
      have new : key ∉ done.map Prod.fst := by
        rw [List.map_append, List.map_cons, List.nodup_middle, List.nodup_cons, List.mem_append,
          not_or] at distinct
        exact distinct.1.1
      have first : rewrite f (done ++ (key, .obj inner) :: rest) (key :: change.1, change.2) =
          done ++ (key, .obj (rewrite f inner change)) :: rest := by
        unfold rewrite
        split
        · obtain ⟨path, value⟩ := change
          cases path with
          | nil => exact absurd rfl (inside _ List.mem_cons_self)
          | cons segment path =>
              rw [assign_inner (find_middle done rest key (.obj inner) new), set_middle _ _ _ _ _ distinct]
        · rfl
      rw [List.map_cons, List.foldl_cons, List.foldl_cons, first]
      refine ih _ ?_ fun field member => inside field (List.mem_cons_of_mem _ member)
      rwa [List.map_append, List.map_cons] at distinct ⊢

/-- The loop over the fields of a tree rewrites those that are allowed. -/
theorem rewrite_fields (f : Text → Text) (allowed : Path → Prop) [DecidablePred allowed] (done members : Dict F)
    (keyed : KeyedFields members) (distinct : ((done ++ members).map Prod.fst).Nodup)
    (permitted : ∀ field ∈ fields members, containsReference field.2 = true → allowed field.1)
    (same : ∀ field ∈ fields members, containsReference field.2 = false → mapTexts f field.2 = field.2) :
    (fields members).foldl (rewrite f) (done ++ members) = done ++ mapFields allowed f members := by
  cases keyed with
  | nil => rfl
  | cons key value rest field later =>
      rw [fields] at permitted same ⊢
      have own (field : Field F) (member : field ∈ fieldsIn value) :
          (key :: field.1, field.2) ∈ (fieldsIn value).map (fun field => (key :: field.1, field.2)) ++
            fields rest := List.mem_append_left _ (List.mem_map_of_mem member)
      have first : ((fieldsIn value).map fun field => (key :: field.1, field.2)).foldl (rewrite f)
          (done ++ (key, value) :: rest) =
            done ++ (key, mapField (fun path => allowed (key :: path)) f value) :: rest := by
        cases field with
        | leaf _ leaf =>
            rw [fieldsIn_leaf leaf, mapField_leaf _ _ leaf]
            have here := own ([], value) (by rw [fieldsIn_leaf leaf]; exact List.mem_cons_self)
            rw [List.map_singleton, List.foldl_cons, List.foldl_nil, rewrite]
            cases has : containsReference value with
            | false => rw [same _ here has, if_neg Bool.false_ne_true, ite_self]
            | true =>
                rw [if_pos rfl, if_pos (permitted _ here has), assign]
                exact set_middle done rest key value _ distinct
        | dict items distinct' inside =>
            rw [fieldsIn, mapField]
            have leaves := fields_leaf (.dict items distinct' inside)
            rw [rewrite_inside f done rest key items (fields items) distinct fun field member empty =>
              by have leaf := leaves field member; rw [empty] at leaf; exact leaf]
            have inner := rewrite_fields f (fun path => allowed (key :: path)) [] items inside distinct'
              (fun field member => permitted (key :: field.1, field.2) (own field member))
              (fun field member => same (key :: field.1, field.2) (own field member))
            rw [List.nil_append, List.nil_append] at inner
            rw [inner]
      rw [List.foldl_append, first, mapFields]
      have next := rewrite_fields f allowed
        (done ++ [(key, mapField (fun path => allowed (key :: path)) f value)]) rest later (by simpa using distinct)
        (fun field member => permitted _ (List.mem_append_right _ member))
        (fun field member => same _ (List.mem_append_right _ member))
      simpa using next

/-! ### The loop over the fields -/

/-- A field that the loop refuses. -/
def RefusedField (allowed : List Path) (scope : Scope) (field : Field F) : Prop :=
  containsReference field.2 = true ∧ (field.1 ∉ allowed ∨ ∃ s ∈ texts field.2, Refused scope s)

section Loop

variable {heap old : Heap F} (allowed : List Path) (scope : Scope) {result : Nat} {items : Dict F}

theorem prefix_same {heap' : Heap F} (grown : old <+: heap)
    (same : ∀ a, a < old.length → heap'[a]? = heap[a]?) : old <+: heap' := by
  obtain ⟨more, rfl⟩ := grown
  rw [List.prefix_iff_getElem?]
  intro a known
  rw [same a known, List.getElem?_append_left known, List.getElem?_eq_getElem known]

theorem run_lift {α : Type} (value : α) : (lift (.ok value) : M F α) heap = (.ret value, heap) := rfl

/-- One turn of the loop. -/
theorem interpolateField_rep (grown : old <+: heap) (own : old.length ≤ result)
    (rep : Rep heap (.dict result) (.obj items)) (field : Field F) (leaf : Leaf field.1 items)
    (plain : isDict field.2 = false) :
    (RefusedField allowed scope field ∧
      ∃ error, interpolateField allowed scope result field heap = (.raised error, heap)) ∨
    (¬ RefusedField allowed scope field ∧
      ∃ heap', interpolateField allowed scope result field heap = (.ret (), heap') ∧ old <+: heap' ∧
        Rep heap' (.dict result) (.obj (rewrite (substituted scope) items field))) := by
  have spec := substituteValue_texts scope field.2
  unfold interpolateField rewrite RefusedField
  by_cases has : containsReference field.2 = true
  · rw [if_pos has, if_pos has]
    by_cases permitted : field.1 ∈ allowed
    · rw [if_pos permitted]
      cases done : substituteValue scope field.2 with
      | error error =>
          exact Or.inl ⟨⟨has, Or.inr (spec.1.mp ⟨error, done⟩)⟩, error, rfl⟩
      | ok value =>
          have value_ := spec.2 value done
          have plain' : isDict value = false := by rw [value_, isDict_mapTexts, plain]
          obtain ⟨heap', run, rep', -, same⟩ := assignAt_rep field.1 plain' field.1 result items rep leaf
          refine Or.inr ⟨?_, heap', ?_, prefix_same grown fun a known => ?_, value_ ▸ rep'⟩
          · rintro ⟨-, forbidden | refused⟩
            · exact forbidden permitted
            · obtain ⟨_, wrong⟩ := spec.1.mpr refused
              cases done.symm.trans wrong
          · rw [run_bind_ret (run_lift value), run]
          · have := grown.length_le
            exact same a (by omega) (by omega)
    · rw [if_neg permitted]
      exact Or.inl ⟨⟨has, Or.inl permitted⟩, _, rfl⟩
  · rw [if_neg has, if_neg has]
    exact Or.inr ⟨fun refused => has refused.1, heap, rfl, grown, rep⟩

theorem rewrite_leaf (f : Text → Text) {path : Path} {field : Field F} (at_ : Leaf path items)
    (leaf : Leaf field.1 items) (plain : isDict field.2 = false) : Leaf path (rewrite f items field) := by
  unfold rewrite
  split
  · exact leaf_assign ((isDict_mapTexts f field.2).trans plain) at_ leaf
  · exact at_

theorem interpolateFields_rep (grown : old <+: heap) (own : old.length ≤ result)
    (rep : Rep heap (.dict result) (.obj items)) (changes : List (Field F))
    (leaves : ∀ field ∈ changes, Leaf field.1 items ∧ isDict field.2 = false) :
    ((∃ field ∈ changes, RefusedField allowed scope field) ∧ ∃ error heap',
      interpolateFields allowed scope result changes heap = (.raised error, heap') ∧ old <+: heap') ∨
    ((∀ field ∈ changes, ¬ RefusedField allowed scope field) ∧ ∃ heap',
      interpolateFields allowed scope result changes heap = (.ret (), heap') ∧ old <+: heap' ∧
        Rep heap' (.dict result) (.obj (changes.foldl (rewrite (substituted scope)) items))) := by
  induction changes generalizing heap items with
  | nil => exact Or.inr ⟨fun _ member => absurd member List.not_mem_nil, heap, rfl, grown, rep⟩
  | cons field rest ih =>
      obtain ⟨leaf, plain⟩ := leaves field List.mem_cons_self
      rcases interpolateField_rep allowed scope grown own rep field leaf plain with
        ⟨refused, error, run⟩ | ⟨passes, heap', run, grown', rep'⟩
      · refine Or.inl ⟨⟨field, List.mem_cons_self, refused⟩, error, heap, ?_, grown⟩
        rw [interpolateFields, run_bind, run]
      · have onward := ih grown' rep' fun other member =>
          ⟨rewrite_leaf _ (leaves other (List.mem_cons_of_mem _ member)).1 leaf plain,
            (leaves other (List.mem_cons_of_mem _ member)).2⟩
        have first : interpolateFields allowed scope result (field :: rest) heap =
            interpolateFields allowed scope result rest heap' := run_bind_ret run _
        rw [first]
        rcases onward with ⟨⟨other, member, refused⟩, rest_⟩ | ⟨none_, rest_⟩
        · exact Or.inl ⟨⟨other, List.mem_cons_of_mem _ member, refused⟩, rest_⟩
        · refine Or.inr ⟨fun other member => ?_, rest_⟩
          rcases List.mem_cons.mp member with rfl | later
          · exact passes
          · exact none_ other later

end Loop

mutual

theorem mapTexts_same {f : Text → Text} (value : Json F) (same : ∀ s ∈ texts value, f s = s) :
    mapTexts f value = value := by
  cases value with
  | str text =>
      rw [mapTexts, same text.toList (by simp [texts]), String.ofList_toList]
  | arr items => rw [mapTexts, mapItems_same items same]
  | obj items => rw [mapTexts, mapMembers_same items same]
  | null => rfl
  | bool value => rfl
  | int value => rfl
  | float value => rfl

theorem mapItems_same {f : Text → Text} (items : List (Json F)) (same : ∀ s ∈ itemTexts items, f s = s) :
    mapItems f items = items := by
  cases items with
  | nil => rfl
  | cons item rest =>
      rw [itemTexts] at same
      rw [mapItems, mapTexts_same item fun s member => same s (List.mem_append_left _ member),
        mapItems_same rest fun s member => same s (List.mem_append_right _ member)]

theorem mapMembers_same {f : Text → Text} (items : Dict F) (same : ∀ s ∈ memberTexts items, f s = s) :
    mapMembers f items = items := by
  cases items with
  | nil => rfl
  | cons item rest =>
      rw [memberTexts] at same
      rw [mapMembers, mapTexts_same item.2 fun s member => same s (List.mem_append_left _ member),
        mapMembers_same rest fun s member => same s (List.mem_append_right _ member)]

end

mutual

theorem fieldsIn_plain (value : Json F) : ∀ field ∈ fieldsIn value, isDict field.2 = false := by
  cases value with
  | obj items => exact fields_plain items
  | _ =>
      intro field member
      rw [fieldsIn_leaf rfl, List.mem_singleton] at member
      rw [member]
      rfl

theorem fields_plain (items : Dict F) : ∀ field ∈ fields items, isDict field.2 = false := by
  cases items with
  | nil =>
      intro field member
      cases member
  | cons item rest =>
      intro field member
      rw [fields, List.mem_append] at member
      rcases member with member | member
      · obtain ⟨inner, inside, rfl⟩ := List.mem_map.mp member
        exact fieldsIn_plain item.2 inner inside
      · exact fields_plain rest field member

end

/-! ### What interpolation does -/

section Exact

variable (limit : Nat) (allowlist : List String) (scope : Scope) (heap : Heap F) (config : Nat)
  (items : Dict F)

def Marked (s : Text) : Prop := ∃ before after, s = before ++ '$' :: '{' :: after

/-- A string of a field that the allow-list has. -/
def Permitted (s : Text) : Prop :=
  ∃ field ∈ fields items, field.1 ∈ allowlist.map split ∧ s ∈ texts field.2

/-- Something outside the allow-list opens a reference, or something in it opens one that is not
well-formed or has no value. -/
def Rejects : Prop :=
  (∃ field ∈ fields items, field.1 ∉ allowlist.map split ∧ ∃ s ∈ texts field.2, Marked s) ∨
  ∃ s, Permitted allowlist items s ∧ (Opening s ∨ ∃ r, Names s r ∧ scope.value r = none)

/-- The config is rejected exactly if it is to be, and what results otherwise is the config with
every reference replaced. No dict that was there has changed. -/
def Exact : Prop :=
  match applyInterpolation limit allowlist scope config heap with
  | (.ret result, heap') => ¬ Rejects allowlist scope items ∧ heap <+: heap' ∧
      ∃ f : Text → Text, (∀ s, Permitted allowlist items s → Replaced scope s (f s)) ∧
        Rep heap' (.dict result) (.obj (mapFields (· ∈ allowlist.map split) f items))
  | (.raised _, heap') => Rejects allowlist scope items ∧ heap <+: heap'
  | (.diverged, _) => False

variable {allowlist scope heap config items}

theorem refusedField_iff :
    (∃ field ∈ fields items, RefusedField (allowlist.map split) scope field) ↔
      Rejects allowlist scope items ∨ ∃ s, Permitted allowlist items s ∧ Joined s := by
  constructor
  · rintro ⟨field, member, has, forbidden | ⟨s, inside, refused⟩⟩
    · obtain ⟨s, inside, marked⟩ := (containsReference_texts field.2).mp has
      exact Or.inl (Or.inl ⟨field, member, forbidden, s, inside, (hasReference_iff s).mp marked⟩)
    · by_cases permitted : field.1 ∈ allowlist.map split
      · rcases (substitute_error scope s).mp refused with opening | joined | missing
        · exact Or.inl (Or.inr ⟨s, ⟨field, member, permitted, inside⟩, Or.inl opening⟩)
        · exact Or.inr ⟨s, ⟨field, member, permitted, inside⟩, joined⟩
        · exact Or.inl (Or.inr ⟨s, ⟨field, member, permitted, inside⟩, Or.inr missing⟩)
      · exact Or.inl (Or.inl ⟨field, member, permitted, s, inside,
          (hasReference_iff s).mp (refused_marked refused)⟩)
  · have refuse (s : Text) (permitted : Permitted allowlist items s) (refused : Refused scope s) :
        ∃ field ∈ fields items, RefusedField (allowlist.map split) scope field := by
      obtain ⟨field, member, -, inside⟩ := permitted
      exact ⟨field, member, (containsReference_texts field.2).mpr ⟨s, inside, refused_marked refused⟩,
        Or.inr ⟨s, inside, refused⟩⟩
    rintro ((⟨field, member, forbidden, s, inside, marked⟩ | ⟨s, permitted, either⟩) | ⟨s, permitted, joined⟩)
    · exact ⟨field, member, (containsReference_texts field.2).mpr ⟨s, inside, (hasReference_iff s).mpr marked⟩,
        Or.inl forbidden⟩
    · exact refuse s permitted ((substitute_error scope s).mpr (either.imp_right Or.inr))
    · exact refuse s permitted ((substitute_error scope s).mpr (Or.inr (Or.inl joined)))

/-- What the loop makes of a config none of whose fields is refused. -/
theorem rewritten_fields (keyed : Keyed (.obj items))
    (passes : ∀ field ∈ fields items, ¬ RefusedField (allowlist.map split) scope field) :
    (fields items).foldl (rewrite (substituted scope)) items =
      mapFields (· ∈ allowlist.map split) (substituted scope) items := by
  cases keyed with
  | leaf _ leaf => cases leaf
  | dict _ distinct inside =>
      have tree := rewrite_fields (substituted scope) (· ∈ allowlist.map split) [] items inside distinct ?_ ?_
      · rwa [List.nil_append, List.nil_append] at tree
      · intro field member has
        by_contra forbidden
        exact passes field member ⟨has, Or.inl forbidden⟩
      · intro field _ plain
        refine mapTexts_same field.2 fun s inside => substituted_plain ?_
        by_contra marked
        rw [Bool.not_eq_false] at marked
        rw [(containsReference_texts field.2).mpr ⟨s, inside, marked⟩] at plain
        cases plain

/-- The two ways in which `apply_interpolation` can end. -/
theorem applyInterpolation_cases (rep : Rep heap (.dict config) (.obj items))
    (shallow : depth (.obj items) ≤ limit) :
    ((∃ field ∈ fields items, RefusedField (allowlist.map split) scope field) ∧ ∃ error heap',
      applyInterpolation limit allowlist scope config heap = (.raised error, heap') ∧ heap <+: heap') ∨
    ((∀ field ∈ fields items, ¬ RefusedField (allowlist.map split) scope field) ∧ ∃ result heap',
      applyInterpolation limit allowlist scope config heap = (.ret result, heap') ∧ heap <+: heap' ∧
        Rep heap' (.dict result) (.obj (mapFields (· ∈ allowlist.map split) (substituted scope) items))) := by
  obtain ⟨entries, read, distinct, inside⟩ := rep_read rep
  have keyed := rep_keyed rep
  have grown : heap <+: heap ++ [entries] := List.prefix_append _ _
  have copy : Rep (heap ++ [entries]) (.dict heap.length) (.obj items) :=
    .dict heap.length entries items List.getElem?_concat_length distinct (fields_grow grown inside)
  have walked := walk_fields limit [] config items (rep_grow grown rep) shallow
  have start : applyInterpolation limit allowlist scope config heap =
      (interpolateFields (allowlist.map split) scope heap.length (fields items) >>= fun _ =>
        pure heap.length) (heap ++ [entries]) := by
    unfold applyInterpolation
    rw [run_bind_ret (run_copyDict read), run_get_bind, walked, run_bind_ret (run_lift _)]
    simp
  rw [start]
  rcases interpolateFields_rep (allowlist.map split) scope grown (Nat.le_refl _) copy
    (fields items) (fun field member => ⟨fields_leaf keyed field member, fields_plain items field member⟩)
    with ⟨refused, error, heap', run, grown'⟩ | ⟨passes, heap', run, grown', rep'⟩
  · exact Or.inl ⟨refused, error, heap', by rw [run_bind, run], grown'⟩
  · refine Or.inr ⟨passes, heap.length, heap', by rw [run_bind_ret run]; rfl, grown', ?_⟩
    rw [← rewritten_fields keyed passes]
    exact rep'

/-- Interpolation is exact unless a permitted string has nothing but references between a dollar
and a brace: those two meet in the text that is searched for leftovers, and the string is refused
although each of its references is well-formed and has a value. -/
theorem interpolation_exact_iff (rep : Rep heap (.dict config) (.obj items))
    (shallow : depth (.obj items) ≤ limit) :
    Exact limit allowlist scope heap config items ↔
      Rejects allowlist scope items ∨ ∀ s, Permitted allowlist items s → ¬ Joined s := by
  unfold Exact
  rcases applyInterpolation_cases limit rep shallow with ⟨refused, error, heap', run, grown⟩ |
    ⟨passes, result, heap', run, grown, rep'⟩
  · rw [run]
    rcases refusedField_iff.mp refused with rejects | ⟨s, permitted, joined⟩
    · exact ⟨fun _ => Or.inl rejects, fun _ => ⟨rejects, grown⟩⟩
    · constructor
      · exact fun exact_ => Or.inl exact_.1
      · rintro (rejects | apart)
        · exact ⟨rejects, grown⟩
        · exact absurd joined (apart s permitted)
  · rw [run]
    have neither : ¬ (Rejects allowlist scope items ∨ ∃ s, Permitted allowlist items s ∧ Joined s) := by
      rw [← refusedField_iff]
      rintro ⟨field, member, refused⟩
      exact passes field member refused
    rw [not_or, not_exists] at neither
    refine ⟨fun _ => Or.inr fun s permitted joined => neither.2 s ⟨permitted, joined⟩, fun _ => ?_⟩
    refine ⟨neither.1, grown, substituted scope, fun s permitted => substituted_replaced fun refused => ?_, rep'⟩
    obtain ⟨field, member, -, inside⟩ := permitted
    exact passes field member ⟨(containsReference_texts field.2).mpr ⟨s, inside, refused_marked refused⟩,
      Or.inr ⟨s, inside, refused⟩⟩

end Exact

/-! ### Two configs -/

def oneVariable : Scope where
  vars := [("x", "1")]
  environ := fun _ => none
  source := "row"

/-- A config with one field, `greeting`. -/
def greeting (text : String) : Heap Unit := [[("greeting", .plain (.str text))]]

theorem greeting_rep (text : String) :
    Rep (greeting text) (.dict 0) (.obj [("greeting", .str text)]) :=
  .dict 0 _ _ rfl (List.nodup_singleton _) (.cons _ _ _ _ _ (.plain _ rfl) .nil)

theorem greeting_exact :
    Exact 2 ["greeting"] oneVariable (greeting "$\x7baka:x\x7d") 0 [("greeting", .str "$\x7baka:x\x7d")] ↔
      Rejects ["greeting"] oneVariable [("greeting", (.str "$\x7baka:x\x7d" : Json Unit))] ∨
        ∀ s, Permitted ["greeting"] [("greeting", (.str "$\x7baka:x\x7d" : Json Unit))] s → ¬ Joined s :=
  interpolation_exact_iff 2 (greeting_rep _) (by decide)

/-- A dollar, a reference that has a value, and a brace. -/
def dollarBrace : String := "$$\x7baka:x\x7d\x7b"

theorem dollarBrace_names (r : Reference) (names : Names dollarBrace.toList r) :
    oneVariable.value r = some ['1'] := by
  rw [names_scan] at names
  have scanned : scan dollarBrace.toList =
      [.char '$', .reference ⟨.aka, ['x'], rfl⟩, .char '\x7b'] := rfl
  rw [scanned] at names
  simp only [List.mem_cons, reduceCtorEq, Piece.reference.injEq, List.not_mem_nil, or_false, false_or]
    at names
  rw [names]
  rfl

theorem dollarBrace_accepted :
    ¬ Rejects ["greeting"] oneVariable [("greeting", (.str dollarBrace : Json Unit))] := by
  have only : fields [("greeting", (.str dollarBrace : Json Unit))] = [(["greeting"], .str dollarBrace)] :=
    rfl
  rintro (⟨field, member, forbidden, -⟩ | ⟨s, ⟨field, member, -, inside⟩, either⟩)
  · rw [only, List.mem_singleton] at member
    rw [member] at forbidden
    exact forbidden (by decide)
  · rw [only, List.mem_singleton] at member
    rw [member, texts, List.mem_singleton] at inside
    rw [inside] at either
    rcases either with opening | ⟨r, names, missing⟩
    · exact absurd opening (by decide)
    · rw [dollarBrace_names r names] at missing
      cases missing

/-- A config can be refused that has nothing to be refused for. -/
theorem interpolation_refuses : ¬ ∀ (limit : Nat) (allowlist : List String) (scope : Scope)
    (heap : Heap Unit) (config : Nat) (items : Dict Unit), Rep heap (.dict config) (.obj items) →
      depth (.obj items) ≤ limit → Exact limit allowlist scope heap config items := by
  intro always
  have exact_ := always 2 ["greeting"] oneVariable (greeting dollarBrace) 0 _ (greeting_rep dollarBrace)
    (by decide)
  exact dollarBrace_accepted exact_.1

end AtrexAgent.Interpolation
