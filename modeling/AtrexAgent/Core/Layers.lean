import AtrexAgent.Core.Layering
import AtrexAgent.Library.Traversal

/-! The layers of a composition: what patches ask for, and what is left of it. -/

namespace AtrexAgent.Layering

open AtrexAgent.Boot (Row Composition)
open AtrexAgent.Interpolation (Exc)
open AtrexAgent.Json
open AtrexAgent.Overlay

variable {F : Type} {outside : Outside F}

theorem check_ok {p : Prop} [Decidable p] {source message : String} {α : Type} {rest : Except Exc α} {result : α}
    (ok : (do
      if p then fail source message
      rest) = .ok result) : ¬ p ∧ rest = .ok result := by
  by_cases refused : p
  · rw [if_pos refused] at ok
    cases ok
  · rw [if_neg refused] at ok
    exact ⟨refused, ok⟩

theorem when_ok {p : Prop} [Decidable p] {check : Except Exc Unit} {α : Type} {rest : Except Exc α} {result : α}
    (ok : (do
      if p then check
      rest) = .ok result) : rest = .ok result := by
  by_cases checked : p
  · rw [if_pos checked] at ok
    obtain ⟨_, _, ok⟩ := (bind_ok_iff _ _ _).mp ok
    exact ok
  · rw [if_neg checked] at ok
    exact ok

/-! ### What layers write -/

variable (outside) in
/-- What a patch asks for, of a row. -/
inductive Asks (source : String) (patch : Json F) : String → Write (Row F) (Update F) → Prop
  | insert (items insert : Dict F) (id : String) (row : Row F) (is_patch : patch = .obj items) (named : nameOf (get items "id") = some id)
      (inserts : find? items "insert" = some (.obj insert)) (read : readRow outside source (.obj (("id", .str id) :: insert)) "" [] = .ok row) :
      Asks source patch id (.create row)
  | remove (items : Dict F) (id : String) (is_patch : patch = .obj items) (named : nameOf (get items "id") = some id)
      (removes : get items "remove" = .bool true) : Asks source patch id .remove
  | change (items : Dict F) (id : String) (update : Update F) (is_patch : patch = .obj items) (named : nameOf (get items "id") = some id)
      (only : find? items "insert" = none) (kept : get items "remove" ≠ .bool true) (read : readUpdate outside source id items = .ok update) :
      Asks source patch id (.change update)

/-- The writes to one row. -/
def writesTo (id : String) (writes : List (String × Write (Row F) (Update F))) : List (Write (Row F) (Update F)) :=
  writes.filterMap fun item => if item.1 = id then some item.2 else none

theorem writesTo_append (id : String) (writes more : List (String × Write (Row F) (Update F))) :
    writesTo id (writes ++ more) = writesTo id writes ++ writesTo id more := List.filterMap_append

/-- The rows of a composition in the making. -/
structure Sound (rows : List (Row F)) : Prop where
  distinct : (rows.map Row.id).Nodup
  named : ∀ row ∈ rows, row.id ≠ ""

theorem empty_sound : Sound ([] : List (Row F)) where
  distinct := List.nodup_nil
  named := by simp

/-- The rows after some writes are those that the writes come to. -/
def Written (rows rows' : List (Row F)) (writes : List (String × Write (Row F) (Update F))) : Prop :=
  ∀ id, entry Row.id rows' id = (writesTo id writes).foldl (write Update.apply) (entry Row.id rows id)

theorem Written.trans {rows rows' rows'' : List (Row F)} {writes more : List (String × Write (Row F) (Update F))}
    (first : Written rows rows' writes) (second : Written rows' rows'' more) : Written rows rows'' (writes ++ more) := by
  intro id
  rw [writesTo_append, List.foldl_append, ← first id]
  exact second id

theorem written_one {rows rows' : List (Row F)} {id : String} {w : Write (Row F) (Update F)}
    (here : ∀ j, entry Row.id rows' j = if j = id then write Update.apply (entry Row.id rows id) w else entry Row.id rows j) :
    Written rows rows' [(id, w)] := by
  intro j
  rw [here j]
  by_cases same : j = id
  · subst same
    simp [writesTo]
  · simp [writesTo, same, Ne.symm same]

theorem apply_id (update : Update F) (row : Row F) : (update.apply row).id = row.id := rfl

/-! ### Patches -/

theorem readRow_named {source group : String} {inherited : List String} {items : Dict F} {row : Row F}
    (read : readRow outside source (.obj items) group inherited = .ok row) : nameOf (get items "id") = some row.id := by
  unfold readRow at read
  obtain ⟨_, _, read⟩ := (bind_ok_iff _ _ _).mp read
  split at read
  · cases read
  · rename_i id named
    split at read
    · cases read
    · split at read
      · obtain ⟨_, _, read⟩ := (bind_ok_iff _ _ _).mp read
        obtain ⟨_, _, read⟩ := (bind_ok_iff _ _ _).mp read
        obtain ⟨_, _, read⟩ := (bind_ok_iff _ _ _).mp read
        obtain ⟨_, _, read⟩ := (bind_ok_iff _ _ _).mp read
        cases read
        exact named
      · cases read

theorem nameOf_nonempty {value : Json F} {id : String} (named : nameOf value = some id) : id ≠ "" := by
  cases value with
  | str text =>
      rw [nameOf] at named
      split at named
      · cases named
      · rename_i nonempty
        exact Option.some.inj named ▸ nonempty
  | _ => cases named

theorem flag_ok {source label : String} {value : Json F} {b : Bool} (ok : flag outside source value label = .ok b) :
    value = .bool true ↔ b = true := by
  cases value with
  | null =>
      cases ok
      simp
  | bool c =>
      cases ok
      simp
  | _ => cases ok

/-- What is found in a patch that is accepted. -/
theorem readPatch_ok {source id : String} {items : Dict F} {asked : Option (Dict F) × Bool} (ok : readPatch outside source id items = .ok asked) :
    (asked.1 = none ↔ find? items "insert" = none) ∧ (∀ insert, asked.1 = some insert → find? items "insert" = some (.obj insert)) ∧
      (get items "remove" = .bool true ↔ asked.2 = true) := by
  unfold readPatch at ok
  obtain ⟨insert, inserts, ok⟩ := (bind_ok_iff _ _ _).mp ok
  obtain ⟨remove, removes, ok⟩ := (bind_ok_iff _ _ _).mp ok
  have ok := when_ok ok
  have ok := when_ok ok
  obtain ⟨_, ok⟩ := check_ok ok
  cases ok
  refine ⟨?_, ?_, flag_ok removes⟩
  · unfold insertOf at inserts
    split at inserts
    · rename_i absent
      cases inserts
      simp [absent]
    · rename_i present
      cases inserts
      simp [present]
    · cases inserts
  · rintro found rfl
    unfold insertOf at inserts
    split at inserts
    · cases inserts
    · rename_i present
      cases inserts
      exact present
    · cases inserts

/-- A patch that is accepted changes the row that it names, as it asks, and no other one. -/
theorem applyPatch_writes {source : String} {rows rows' : List (Row F)} {patch : Json F} (sound : Sound rows)
    (ok : applyPatch outside source rows patch = .ok rows') :
    ∃ id w, Asks outside source patch id w ∧ Sound rows' ∧ Written rows rows' [(id, w)] := by
  cases patch with
  | obj items =>
      unfold applyPatch at ok
      obtain ⟨_, _, ok⟩ := (bind_ok_iff _ _ _).mp ok
      split at ok
      · cases ok
      · rename_i id named
        obtain ⟨asked, read, ok⟩ := (bind_ok_iff _ _ _).mp ok
        obtain ⟨inserts, insert, removes⟩ := readPatch_ok read
        split at ok
        · rename_i absent
          have absent_entry : entry Row.id rows id = none := by
            rw [entry_none]
            intro row member
            have each := List.findIdx?_eq_none_iff.mp absent row member
            simpa using each
          obtain ⟨asked, remove⟩ := asked
          cases remove with
          | true =>
              cases ok
              refine ⟨id, .remove, .remove items id rfl named (removes.mpr rfl), sound, written_one fun j => ?_⟩
              split
              · rename_i same
                rw [same, absent_entry]
                rfl
              · rfl
          | false =>
              cases asked with
              | none => cases ok
              | some new =>
                  rw [patchAbsent] at ok
                  cases made : readRow outside source (.obj (("id", .str id) :: new)) "" [] with
                  | error failure =>
                      rw [made] at ok
                      cases ok
                  | ok row =>
                      rw [made] at ok
                      cases ok
                      have is_id : row.id = id := by
                        have read := readRow_named made
                        simp only [get_cons, if_true, nameOf, if_neg (nameOf_nonempty named), Option.some.injEq] at read
                        exact read.symm
                      refine ⟨id, .create row, .insert items new id row rfl named (insert new rfl) made, ⟨?_, ?_⟩, written_one fun j => ?_⟩
                      · rw [List.map_append, List.map_singleton]
                        refine List.Nodup.append sound.distinct (List.nodup_singleton _) ?_
                        rw [List.disjoint_singleton, is_id, List.mem_map]
                        rintro ⟨other, member, same⟩
                        exact (entry_none Row.id).mp absent_entry other member same
                      · intro other member
                        rcases List.mem_append.mp member with old | new
                        · exact sound.named other old
                        · rw [List.mem_singleton.mp new, is_id]
                          exact nameOf_nonempty named
                      · rw [entry_create Row.id rows row j (by rw [is_id]; exact absent_entry), is_id]
                        rfl
        · rename_i index present
          obtain ⟨row, here, found⟩ := entry_found Row.id present
          rw [here] at ok
          dsimp only at ok
          have is_id : row.id = id := by
            obtain ⟨before, row', after, rfl, rfl, named', _⟩ := split_found Row.id present
            simp at here
            rw [← here, named']
          obtain ⟨asked, remove⟩ := asked
          cases remove with
          | true =>
              cases ok
              refine ⟨id, .remove, .remove items id rfl named (removes.mpr rfl), ⟨?_, ?_⟩, written_one fun j => ?_⟩
              · exact sound.distinct.sublist ((List.eraseIdx_sublist rows index).map Row.id)
              · exact fun other member => sound.named other (List.mem_of_mem_eraseIdx member)
              · rw [entry_remove Row.id sound.distinct present j]
                rfl
          | false =>
              rw [patchPresent] at ok
              obtain ⟨update, changes, ok⟩ := (bind_ok_iff _ _ _).mp ok
              obtain ⟨alone, ok⟩ := check_ok ok
              cases ok
              have only : asked = none := by simpa using alone
              refine ⟨id, .change update, .change items id update rfl named (inserts.mp only) ?_ changes, ⟨?_, ?_⟩, written_one fun j => ?_⟩
              · intro removed
                cases removes.mp removed
              · rw [keys_set Row.id present (apply_id update row ▸ is_id)]
                exact sound.distinct
              · intro other member
                rcases List.mem_or_eq_of_mem_set member with old | rfl
                · exact sound.named other old
                · rw [apply_id, is_id]
                  exact nameOf_nonempty named
              · rw [entry_set Row.id present (apply_id update row ▸ is_id) j, found]
                rfl
  | _ => cases ok

/-- Patches write one after another. -/
theorem applyPatches_writes {rows rows' : List (Row F)} {patches : List (String × Json F)} (sound : Sound rows)
    (ok : applyPatches outside rows patches = .ok rows') :
    ∃ writes, List.Forall₂ (fun patch (w : String × Write (Row F) (Update F)) => Asks outside patch.1 patch.2 w.1 w.2) patches writes ∧
      Sound rows' ∧ Written rows rows' writes := by
  induction patches generalizing rows with
  | nil =>
      cases ok
      exact ⟨[], .nil, sound, fun _ => rfl⟩
  | cons patch patches ih =>
      rw [applyPatches, List.foldlM_cons] at ok
      obtain ⟨middle, first, rest⟩ := (bind_ok_iff _ _ _).mp ok
      obtain ⟨id, w, asks, sound', written⟩ := applyPatch_writes sound first
      obtain ⟨writes, each, sound'', written'⟩ := ih sound' rest
      exact ⟨(id, w) :: writes, .cons asks each, sound'', written.trans written'⟩

theorem applyPatches_append (rows : List (Row F)) (patches more : List (String × Json F)) :
    applyPatches outside rows (patches ++ more) = (applyPatches outside rows patches) >>= fun rows => applyPatches outside rows more :=
  List.foldlM_append

/-- The patches of several files are applied one after another. -/
theorem addPatchFiles_ok [FloatText F] {rows rows' : List (Row F)} {files : List String} (ok : files.foldlM (addPatchFile outside) rows = .ok rows') :
    ∃ filed, files.mapM (readPatchFile outside) = .ok filed ∧ applyPatches outside rows filed.flatten = .ok rows' := by
  induction files generalizing rows with
  | nil =>
      cases ok
      exact ⟨[], rfl, rfl⟩
  | cons file files ih =>
      rw [List.foldlM_cons] at ok
      obtain ⟨middle, first, rest⟩ := (bind_ok_iff _ _ _).mp ok
      obtain ⟨patches, read, applied⟩ := (bind_ok_iff _ _ _).mp first
      obtain ⟨filed, reads, later⟩ := ih rest
      refine ⟨patches :: filed, ?_, ?_⟩
      · rw [List.mapM_cons, read, reads]
        rfl
      · rw [List.flatten_cons, applyPatches_append, applied]
        exact later

/-! ### Bundles -/

/-- A group around an entry. -/
structure Group where
  id : String
  isolate : List String
  disabled : Bool

variable (outside) in
/-- An entry that is no group, with the groups around it, the outermost one first. -/
inductive Nested (source : String) : List (Json F) → List Group → Dict F → Prop
  | entry {entries : List (Json F)} {items : Dict F} (member : .obj items ∈ entries) (plain : find? items "entries" = none) :
      Nested source entries [] items
  | group {entries children : List (Json F)} {items leaf : Dict F} {path : List Group} (group : Group) (member : .obj items ∈ entries)
      (inside : find? items "entries" = some (.arr children)) (named : nameOf (get items "id") = some group.id)
      (isolates : names source (get items "isolate") ("group \"" ++ group.id ++ "\" isolate") = .ok group.isolate)
      (disables : flag outside source (get items "disabled") ("group \"" ++ group.id ++ "\" disabled") = .ok group.disabled)
      (inner : Nested source children path leaf) : Nested source entries (group :: path) leaf

/-- A row as the groups around it make it. -/
def within (path : List Group) (row : Row F) : Row F :=
  { row with
    group := if row.group = "" then (path.getLast?.map Group.id).getD "" else row.group
    isolate := (path.flatMap Group.isolate ++ row.isolate).eraseDups
    disabled := row.disabled || path.any Group.disabled }

variable (outside) in
/-- A row is what some entry reads as, in its groups. -/
def FromEntry (source : String) (entries : List (Json F)) (row : Row F) : Prop :=
  ∃ path leaf base, Nested outside source entries path leaf ∧ readRow outside source (.obj leaf) "" [] = .ok base ∧ row = within path base

theorem Nested.named {source : String} {entries : List (Json F)} {path : List Group} {leaf : Dict F}
    (nested : Nested outside source entries path leaf) : ∀ group ∈ path, group.id ≠ "" := by
  induction nested with
  | entry => simp
  | group group _ _ named _ _ _ ih =>
      intro other member
      rcases List.mem_cons.mp member with rfl | inner
      · exact nameOf_nonempty named
      · exact ih other inner

/-- What is taken out of a list once need not be taken out before. -/
theorem eraseDups_filter_eraseDups {α : Type} [BEq α] [LawfulBEq α] (items : List α) (keep : α → Bool) :
    (items.eraseDups.filter keep).eraseDups = (items.filter keep).eraseDups := by
  induction size : items.length using Nat.strong_induction_on generalizing items keep with
  | _ n ih =>
      cases items with
      | nil => rfl
      | cons first rest =>
          have shorter : (rest.filter fun item => !item == first).length < n := by
            have le := List.length_filter_le (fun item => !item == first) rest
            rw [List.length_cons] at size
            omega
          rw [List.eraseDups_cons]
          by_cases kept : keep first
          · rw [List.filter_cons_of_pos kept, List.filter_cons_of_pos kept, List.eraseDups_cons, List.eraseDups_cons, List.filter_filter,
              ih _ shorter _ _ rfl, List.filter_filter, List.filter_filter]
            congr 3
            funext item
            cases keep item <;> cases item == first <;> rfl
          · rw [List.filter_cons_of_neg kept, List.filter_cons_of_neg kept, ih _ shorter _ _ rfl, List.filter_filter]
            congr 1
            refine List.filter_congr fun item _ => ?_
            by_cases same : item = first
            · simp [same, kept]
            · simp [same]

theorem eraseDups_append_eraseDups {α : Type} [BEq α] [LawfulBEq α] (items more : List α) :
    (items ++ more.eraseDups).eraseDups = (items ++ more).eraseDups := by
  rw [List.eraseDups_append, List.eraseDups_append]
  exact congrArg (items.eraseDups ++ ·) (eraseDups_filter_eraseDups more _)

/-- A group around a row that is in groups already. -/
theorem within_cons (group : Group) {path : List Group} (named : ∀ inner ∈ path, inner.id ≠ "") (row : Row F) :
    inGroup group.id group.isolate group.disabled (within path row) = within (group :: path) row := by
  have innermost : (if (within path row).group = "" then group.id else (within path row).group) =
      if row.group = "" then ((group :: path).getLast?.map Group.id).getD "" else row.group := by
    by_cases bare : row.group = ""
    · cases path with
      | nil => simp [within, bare]
      | cons next rest =>
          have last := named _ (List.getLast_mem (List.cons_ne_nil next rest))
          simp [within, bare, List.getLast?_eq_some_getLast, last]
    · simp [within, bare]
  have isolated : (group.isolate ++ (path.flatMap Group.isolate ++ row.isolate).eraseDups).eraseDups =
      ((group :: path).flatMap Group.isolate ++ row.isolate).eraseDups := by
    rw [eraseDups_append_eraseDups, List.flatMap_cons, List.append_assoc]
  have disabled : (row.disabled || path.any Group.disabled || group.disabled) = (row.disabled || (group :: path).any Group.disabled) := by
    rw [List.any_cons, Bool.or_assoc, Bool.or_comm group.disabled]
  unfold inGroup
  rw [innermost]
  simp only [within]
  rw [isolated, disabled]

theorem nested_cons {source : String} {entry : Json F} {rest : List (Json F)} {path : List Group} {leaf : Dict F} :
    Nested outside source (entry :: rest) path leaf ↔ Nested outside source [entry] path leaf ∨ Nested outside source rest path leaf := by
  constructor
  · intro nested
    cases nested with
    | entry member plain =>
        rcases List.mem_cons.mp member with here | later
        · exact .inl (.entry (by simp [here]) plain)
        · exact .inr (.entry later plain)
    | group group member inside named isolates disables inner =>
        rcases List.mem_cons.mp member with here | later
        · exact .inl (.group group (by simp [here]) inside named isolates disables inner)
        · exact .inr (.group group later inside named isolates disables inner)
  · rintro (nested | nested)
    · cases nested with
      | entry member plain => exact .entry (by simpa using .inl (List.mem_singleton.mp member)) plain
      | group group member inside named isolates disables inner =>
          exact .group group (by simpa using .inl (List.mem_singleton.mp member)) inside named isolates disables inner
    · cases nested with
      | entry member plain => exact .entry (List.mem_cons_of_mem _ member) plain
      | group group member inside named isolates disables inner =>
          exact .group group (List.mem_cons_of_mem _ member) inside named isolates disables inner

theorem fromEntry_cons {source : String} {entry : Json F} {rest : List (Json F)} {row : Row F} :
    FromEntry outside source (entry :: rest) row ↔ FromEntry outside source [entry] row ∨ FromEntry outside source rest row := by
  constructor
  · rintro ⟨path, leaf, base, nested, read, rfl⟩
    rcases nested_cons.mp nested with here | later
    · exact .inl ⟨path, leaf, base, here, read, rfl⟩
    · exact .inr ⟨path, leaf, base, later, read, rfl⟩
  · rintro (⟨path, leaf, base, nested, read, rfl⟩ | ⟨path, leaf, base, nested, read, rfl⟩)
    · exact ⟨path, leaf, base, nested_cons.mpr (.inl nested), read, rfl⟩
    · exact ⟨path, leaf, base, nested_cons.mpr (.inr nested), read, rfl⟩

theorem flattenChildren_none {source : String} {items : Dict F} :
    flattenChildren outside source items = none ↔ find? items "entries" = none := by
  induction items with
  | nil => simp [flattenChildren, find?]
  | cons item rest ih =>
      obtain ⟨key, value⟩ := item
      rw [flattenChildren, find?_cons]
      by_cases here : key = "entries" <;> simp [here, ih]

/-- A row that is read stands in no seam twice. -/
theorem readRow_isolate {source group : String} {inherited : List String} {entry : Json F} {row : Row F}
    (read : readRow outside source entry group inherited = .ok row) : row.isolate.eraseDups = row.isolate := by
  cases entry with
  | obj items =>
      unfold readRow at read
      obtain ⟨_, _, read⟩ := (bind_ok_iff _ _ _).mp read
      split at read
      · cases read
      · split at read
        · cases read
        · split at read
          · obtain ⟨_, _, read⟩ := (bind_ok_iff _ _ _).mp read
            obtain ⟨_, _, read⟩ := (bind_ok_iff _ _ _).mp read
            obtain ⟨_, _, read⟩ := (bind_ok_iff _ _ _).mp read
            obtain ⟨isolate, _, read⟩ := (bind_ok_iff _ _ _).mp read
            cases read
            exact eraseDups_append_eraseDups [] (inherited ++ isolate)
          · cases read
  | _ => cases read

/-- An entry that is no group is a row. -/
theorem fromEntry_plain {source : String} {entry : Json F} {made row : Row F} (plain : ∀ items, entry = .obj items → find? items "entries" = none)
    (read : readRow outside source entry "" [] = .ok made) : row ∈ [made] ↔ FromEntry outside source [entry] row := by
  cases entry with
  | obj items =>
      rw [List.mem_singleton]
      have none := plain items rfl
      have alone : within [] made = made := by
        have isolated := readRow_isolate read
        unfold within
        by_cases bare : made.group = "" <;> simp [bare, isolated]
        exact bare ▸ rfl
      constructor
      · rintro rfl
        exact ⟨[], items, row, .entry List.mem_cons_self none, read, alone.symm⟩
      · rintro ⟨path, leaf, base, nested, read', rfl⟩
        cases nested with
        | entry member plain =>
            cases List.mem_singleton.mp member
            cases read.symm.trans read'
            exact alone
        | group group member inside =>
            cases List.mem_singleton.mp member
            rw [none] at inside
            cases inside
  | _ => cases read

/-- The rows of a group are those of its entries, in the group. -/
theorem fromEntry_group {source : String} {items : Dict F} {entries : List (Json F)} {inner : List (Row F)} {row : Row F} (group : Group)
    (inside : find? items "entries" = some (.arr entries)) (named : nameOf (get items "id") = some group.id)
    (isolates : names source (get items "isolate") ("group \"" ++ group.id ++ "\" isolate") = .ok group.isolate)
    (disables : flag outside source (get items "disabled") ("group \"" ++ group.id ++ "\" disabled") = .ok group.disabled)
    (each : ∀ row, row ∈ inner ↔ FromEntry outside source entries row) :
    row ∈ inner.map (inGroup group.id group.isolate group.disabled) ↔ FromEntry outside source [.obj items] row := by
  rw [List.mem_map]
  constructor
  · rintro ⟨child, member, rfl⟩
    obtain ⟨path, leaf, base, nested, read, rfl⟩ := (each child).mp member
    exact ⟨group :: path, leaf, base, .group group List.mem_cons_self inside named isolates disables nested, read,
      within_cons group nested.named base⟩
  · rintro ⟨path, leaf, base, nested, read, rfl⟩
    cases nested with
    | entry member plain =>
        cases List.mem_singleton.mp member
        rw [inside] at plain
        cases plain
    | @group _ children _ _ path other member inside' named' isolates' disables' nested =>
        cases List.mem_singleton.mp member
        have same_id : group.id = other.id := Option.some.inj (named.symm.trans named')
        rw [← same_id] at isolates' disables'
        have same : group = other := by
          cases group
          cases other
          cases same_id
          cases isolates.symm.trans isolates'
          cases disables.symm.trans disables'
          rfl
        subst same
        cases inside.symm.trans inside'
        exact ⟨within path base, (each _).mpr ⟨path, leaf, base, nested, read, rfl⟩, within_cons group nested.named base⟩

mutual

theorem flatten_rows (source : String) : ∀ (value : Json F) (rows : List (Row F)), flatten outside source value = .ok rows →
    ∃ entries, value = .arr entries ∧ ∀ row, row ∈ rows ↔ FromEntry outside source entries row
  | .arr entries, rows, ok => ⟨entries, rfl, flattenEntries_rows source entries rows ok⟩
  | .null, _, ok | .bool _, _, ok | .int _, _, ok | .float _, _, ok | .str _, _, ok | .obj _, _, ok => by cases ok

theorem flattenEntries_rows (source : String) : ∀ (entries : List (Json F)) (rows : List (Row F)),
    flattenEntries outside source entries = .ok rows → ∀ row, row ∈ rows ↔ FromEntry outside source entries row
  | [], rows, ok, row => by
      cases ok
      constructor
      · intro member
        cases member
      · rintro ⟨_, _, _, nested, _⟩
        cases nested with
        | entry member => cases member
        | group _ member => cases member
  | entry :: rest, rows, ok, row => by
      obtain ⟨here, ok_here, ok⟩ := (bind_ok_iff _ _ _).mp ok
      obtain ⟨later, ok_later, ok⟩ := (bind_ok_iff _ _ _).mp ok
      cases ok
      rw [List.mem_append, fromEntry_cons, flattenEntry_rows source entry here ok_here row, flattenEntries_rows source rest later ok_later row]

theorem flattenEntry_rows (source : String) : ∀ (entry : Json F) (rows : List (Row F)),
    flattenEntry outside source entry = .ok rows → ∀ row, row ∈ rows ↔ FromEntry outside source [entry] row
  | .obj items, rows, ok, row => by
      unfold flattenEntry at ok
      cases group_of : flattenChildren outside source items with
      | none =>
          rw [group_of] at ok
          obtain ⟨made, read, ok⟩ := (bind_ok_iff _ _ _).mp ok
          cases ok
          exact fromEntry_plain (fun _ same => Json.obj.inj same ▸ flattenChildren_none.mp group_of) read
      | some children =>
          rw [group_of] at ok
          obtain ⟨_, _, ok⟩ := (bind_ok_iff _ _ _).mp ok
          obtain ⟨value, inside, each⟩ := flattenChildren_rows source items children group_of
          cases named : nameOf (get items "id") with
          | none =>
              rw [named] at ok
              cases ok
          | some groupId =>
              rw [named] at ok
              obtain ⟨isolate, isolates, ok⟩ := (bind_ok_iff _ _ _).mp ok
              obtain ⟨disabled, disables, ok⟩ := (bind_ok_iff _ _ _).mp ok
              obtain ⟨inner, flattened, ok⟩ := (bind_ok_iff _ _ _).mp ok
              cases ok
              obtain ⟨entries, rfl, exactly⟩ := each inner flattened
              exact fromEntry_group ⟨groupId, isolate, disabled⟩ inside named isolates disables exactly
  | .null, _, ok, _ | .bool _, _, ok, _ | .int _, _, ok, _ | .float _, _, ok, _ | .str _, _, ok, _ | .arr _, _, ok, _ => by cases ok

theorem flattenChildren_rows (source : String) : ∀ (items : Dict F) (children : Except Exc (List (Row F))),
    flattenChildren outside source items = some children → ∃ value, find? items "entries" = some value ∧ ∀ rows, children = .ok rows →
      ∃ entries, value = .arr entries ∧ ∀ row, row ∈ rows ↔ FromEntry outside source entries row
  | [], _, is_group => by cases is_group
  | (key, value) :: rest, children, is_group => by
      rw [flattenChildren] at is_group
      by_cases here : key = "entries"
      · rw [if_pos here] at is_group
        cases is_group
        exact ⟨value, by rw [find?_cons, if_pos here], flatten_rows source value⟩
      · rw [if_neg here] at is_group
        rw [find?_cons, if_neg here]
        exact flattenChildren_rows source rest children is_group

end

/-- The writes of rows that are created. -/
def creations (rows : List (Row F)) : List (String × Write (Row F) (Update F)) := rows.map fun row => (row.id, .create row)

theorem FromEntry.named {source : String} {entries : List (Json F)} {row : Row F} (made : FromEntry outside source entries row) :
    row.id ≠ "" := by
  obtain ⟨path, leaf, base, _, read, rfl⟩ := made
  show base.id ≠ ""
  exact nameOf_nonempty (readRow_named read)

/-- Rows are put under those that are there, where they have other ids. -/
theorem addRows_ok {source : String} {rows more rows' : List (Row F)} (sound : Sound rows) (named : ∀ row ∈ more, row.id ≠ "")
    (ok : addRows source rows more = .ok rows') : rows' = rows ++ more ∧ Sound rows' ∧ Written rows rows' (creations more) := by
  induction more generalizing rows with
  | nil =>
      cases ok
      exact ⟨(List.append_nil _).symm, sound, fun _ => rfl⟩
  | cons row more ih =>
      rw [addRows] at ok
      split at ok
      · cases ok
      · rename_i fresh
        have absent : ∀ other ∈ rows, other.id ≠ row.id := by simpa using fresh
        have sound' : Sound (rows ++ [row]) := by
          refine ⟨?_, ?_⟩
          · rw [List.map_append, List.map_singleton]
            refine List.Nodup.append sound.distinct (List.nodup_singleton _) ?_
            rw [List.disjoint_singleton, List.mem_map]
            rintro ⟨other, member, same⟩
            exact absent other member same
          · intro other member
            rcases List.mem_append.mp member with old | new
            · exact sound.named other old
            · rw [List.mem_singleton.mp new]
              exact named row List.mem_cons_self
        obtain ⟨together, sound'', written⟩ := ih sound' (fun other member => named other (List.mem_cons_of_mem _ member)) ok
        refine ⟨by rw [together, List.append_assoc]; rfl, sound'', ?_⟩
        refine Written.trans (written_one fun j => ?_) written
        rw [entry_create Row.id rows row j ((entry_none Row.id).mpr absent)]
        rfl

/-- The config of a row, whole, with its source. -/
def configOf (row : Row F) : Dict F × String := (row.config, row.configSource)

def Update.configOf (update : Update F) : Option (Dict F × String) := update.config.map fun config => (config, update.source)

/-- A row is what its creation and its changes make of it, field by field. -/
structure LastWritten (row created : Row F) (updates : List (Update F)) : Prop where
  name : row.name = created.name
  group : row.group = created.group
  source : row.source = lastOf (fun update => some update.source) created.source updates
  config : configOf row = lastOf Update.configOf (configOf created) updates
  disabled : row.disabled = lastOf Update.disabled created.disabled updates
  required : row.required = lastOf Update.required created.required updates
  inject : row.inject = lastOf Update.inject created.inject updates
  isolate : row.isolate = lastOf Update.isolate created.isolate updates
  doc : row.doc = lastOf Update.doc created.doc updates

/-- What no update sets stays as it was. -/
theorem updated_unset {α : Type} {get : Row F → α} (same : ∀ (update : Update F) row, get (update.apply row) = get row) (updates : List (Update F))
    (row : Row F) : get (updated Update.apply updates row) = get row := by
  induction updates generalizing row with
  | nil => rfl
  | cons update rest ih => exact (ih (update.apply row)).trans (same update row)

theorem config_apply (update : Update F) (row : Row F) : configOf (update.apply row) = update.configOf.getD (configOf row) := by
  cases given : update.config <;> simp [configOf, Update.configOf, Update.apply, given]

theorem lastWritten_updated (created : Row F) (updates : List (Update F)) :
    LastWritten (updated Update.apply updates created) created updates where
  name := updated_unset (fun _ _ => rfl) updates created
  group := updated_unset (fun _ _ => rfl) updates created
  source := get_updated Update.apply (fun _ _ => rfl) updates created
  config := get_updated Update.apply config_apply updates created
  disabled := get_updated Update.apply (fun _ _ => rfl) updates created
  required := get_updated Update.apply (fun _ _ => rfl) updates created
  inject := get_updated Update.apply (fun _ _ => rfl) updates created
  isolate := get_updated Update.apply (fun _ _ => rfl) updates created
  doc := get_updated Update.apply (fun _ _ => rfl) updates created

/-! ### The documents of a composition -/

/-- What the documents of a composition say: the entries of its bundles, and the patches over them in their order. -/
structure Layers (F : Type) where
  bundles : List (String × List (Json F))
  patches : List (String × Json F)

section Documents

variable [FloatText F]

variable (outside) in
def readEntries (profilePath bundle : String) : Except Exc (String × List (Json F)) := do
  let path ← bundlePath outside profilePath bundle
  let document ← readDocument outside path
  checkFields path document BUNDLE_FIELDS
  match (find? document "entries").getD (.arr []) with
  | .arr entries => return ("bundle:" ++ bundle, entries)
  | _ => fail ("bundle:" ++ bundle) "entries must be an array"

variable (outside) in
def readLayers (profile : String) (patchFiles : List String) (patches : List (Json F)) : Except Exc (Layers F) := do
  let path := outside.profile profile
  let document ← readDocument outside path
  checkFields path document PROFILE_FIELDS
  let bundles ← names path (get document "bundles") "bundles"
  let read ← bundles.mapM (readEntries outside path)
  let own ← patchesIn path ("profile:" ++ profile) document
  let filed ← patchFiles.mapM (readPatchFile outside)
  return ⟨read, own ++ filed.flatten ++ patches.map fun patch => ("cli", patch)⟩

/-- The rows of a bundle are the entries of its document. -/
theorem readBundle_entries {profilePath bundle : String} {rows : List (Row F)} (ok : readBundle outside profilePath bundle = .ok rows) :
    ∃ entries, readEntries outside profilePath bundle = .ok ("bundle:" ++ bundle, entries) ∧
      ∀ row, row ∈ rows ↔ FromEntry outside ("bundle:" ++ bundle) entries row := by
  obtain ⟨path, at_path, ok⟩ := (bind_ok_iff _ _ _).mp ok
  obtain ⟨document, read, ok⟩ := (bind_ok_iff _ _ _).mp ok
  obtain ⟨checked, allowed, ok⟩ := (bind_ok_iff _ _ _).mp ok
  obtain ⟨entries, listed, each⟩ := flatten_rows _ _ _ ok
  refine ⟨entries, ?_, each⟩
  refine (bind_ok_iff _ _ _).mpr ⟨path, at_path, (bind_ok_iff _ _ _).mpr ⟨document, read, (bind_ok_iff _ _ _).mpr ⟨checked, allowed, ?_⟩⟩⟩
  rw [listed]
  rfl

/-- The rows of the bundles, put one under the other. -/
theorem addBundles_ok {profilePath : String} {bundles : List String} {rows rows' : List (Row F)} (sound : Sound rows)
    (ok : bundles.foldlM (addBundle outside profilePath) rows = .ok rows') :
    ∃ read found, bundles.mapM (readEntries outside profilePath) = .ok read ∧
      List.Forall₂ (fun (bundle : String × List (Json F)) rows => ∀ row, row ∈ rows ↔ FromEntry outside bundle.1 bundle.2 row) read found ∧
      rows' = rows ++ found.flatten ∧ Sound rows' ∧ Written rows rows' (creations found.flatten) := by
  induction bundles generalizing rows with
  | nil =>
      cases ok
      exact ⟨[], [], rfl, .nil, by simp, sound, fun _ => rfl⟩
  | cons bundle bundles ih =>
      rw [List.foldlM_cons] at ok
      obtain ⟨middle, first, rest⟩ := (bind_ok_iff _ _ _).mp ok
      obtain ⟨here, read, added⟩ := (bind_ok_iff _ _ _).mp first
      obtain ⟨entries, listed, each⟩ := readBundle_entries read
      obtain ⟨rfl, sound', written⟩ := addRows_ok sound (fun row member => ((each row).mp member).named) added
      obtain ⟨reads, found, all, every, rfl, sound'', written'⟩ := ih sound' rest
      refine ⟨("bundle:" ++ bundle, entries) :: reads, here :: found, ?_, .cons each every, by simp, sound'', ?_⟩
      · rw [List.mapM_cons, listed, all]
        rfl
      · rw [List.flatten_cons, creations, List.map_append]
        exact written.trans written'

/-- The rows of a profile are what the writes of its documents come to. -/
theorem resolveRows_writes {profile : String} {patchFiles : List String} {patches : List (Json F)} {rows : List (Row F)} {labels : List String}
    (ok : resolveRows outside profile patchFiles patches = .ok (rows, labels)) :
    ∃ layers found writes, readLayers outside profile patchFiles patches = .ok layers ∧
      List.Forall₂ (fun (bundle : String × List (Json F)) rows => ∀ row, row ∈ rows ↔ FromEntry outside bundle.1 bundle.2 row)
        layers.bundles found ∧
      List.Forall₂ (fun patch (w : String × Write (Row F) (Update F)) => Asks outside patch.1 patch.2 w.1 w.2) layers.patches writes ∧
      Sound rows ∧ Written [] rows (creations found.flatten ++ writes) := by
  obtain ⟨document, read, ok⟩ := (bind_ok_iff _ _ _).mp ok
  obtain ⟨checked, allowed, ok⟩ := (bind_ok_iff _ _ _).mp ok
  obtain ⟨bundles, named, ok⟩ := (bind_ok_iff _ _ _).mp ok
  obtain ⟨bundled, added, ok⟩ := (bind_ok_iff _ _ _).mp ok
  obtain ⟨own, owned, ok⟩ := (bind_ok_iff _ _ _).mp ok
  obtain ⟨patched, own_applied, ok⟩ := (bind_ok_iff _ _ _).mp ok
  obtain ⟨filed, files_applied, ok⟩ := (bind_ok_iff _ _ _).mp ok
  obtain ⟨last, cli_applied, ok⟩ := (bind_ok_iff _ _ _).mp ok
  cases ok
  obtain ⟨entries, found, listed, each, _, sound, bundles_written⟩ := addBundles_ok empty_sound added
  obtain ⟨of_files, files_read, files_applied⟩ := addPatchFiles_ok files_applied
  have applied : applyPatches outside bundled (own ++ of_files.flatten ++ patches.map fun patch => ("cli", patch)) = .ok rows := by
    rw [applyPatches_append, applyPatches_append, own_applied]
    exact (bind_ok_iff _ _ _).mpr ⟨filed, files_applied, cli_applied⟩
  obtain ⟨writes, asks, sound', patches_written⟩ := applyPatches_writes sound applied
  refine ⟨⟨entries, own ++ of_files.flatten ++ patches.map fun patch => ("cli", patch)⟩, found, writes, ?_, each, asks, sound',
    bundles_written.trans patches_written⟩
  refine (bind_ok_iff _ _ _).mpr ⟨document, read, (bind_ok_iff _ _ _).mpr ⟨checked, allowed, (bind_ok_iff _ _ _).mpr ⟨bundles, named, ?_⟩⟩⟩
  exact (bind_ok_iff _ _ _).mpr ⟨entries, listed, (bind_ok_iff _ _ _).mpr ⟨own, owned, (bind_ok_iff _ _ _).mpr ⟨of_files, files_read, rfl⟩⟩⟩

variable (outside) in
/-- `resolve` -/
def resolve (profile : String) (patchFiles : List String) (patches : List (Json F)) (vars : List (String × String)) :
    Except Exc (Composition F) :=
  match resolved : resolveRows outside profile patchFiles patches with
  | .error failure => .error failure
  | .ok (rows, layers) => do
      let vars ← resolveVariables outside vars
      have sound : Sound rows := by
        obtain ⟨_, _, _, _, _, _, sound, _⟩ := resolveRows_writes resolved
        exact sound
      return ⟨profile, rows, layers, vars, false, sound.distinct, sound.named⟩

theorem resolve_ok {profile : String} {patchFiles : List String} {patches : List (Json F)} {vars : List (String × String)}
    {composition : Composition F} (ok : resolve outside profile patchFiles patches vars = .ok composition) :
    ∃ labels, resolveRows outside profile patchFiles patches = .ok (composition.rows, labels) := by
  unfold resolve at ok
  split at ok
  · cases ok
  · rename_i rows labels resolved
    obtain ⟨_, _, ok⟩ := (bind_ok_iff _ _ _).mp ok
    cases ok
    exact ⟨labels, resolved⟩

/-- Each row of a composition was created by an entry of a bundle or by a patch, and has in each of its fields
what the last patch of it that sets the field says. -/
theorem resolve_last_written {profile : String} {patchFiles : List String} {patches : List (Json F)} {vars : List (String × String)}
    {composition : Composition F} (ok : resolve outside profile patchFiles patches vars = .ok composition) :
    ∃ layers found writes, readLayers outside profile patchFiles patches = .ok layers ∧
      List.Forall₂ (fun (bundle : String × List (Json F)) rows => ∀ row, row ∈ rows ↔ FromEntry outside bundle.1 bundle.2 row)
        layers.bundles found ∧
      List.Forall₂ (fun patch (w : String × Write (Row F) (Update F)) => Asks outside patch.1 patch.2 w.1 w.2) layers.patches writes ∧
      (∀ id, entry Row.id composition.rows id = replay Update.apply (writesTo id (creations found.flatten ++ writes))) ∧
      ∀ row ∈ composition.rows, ∃ before created updates,
        writesTo row.id (creations found.flatten ++ writes) = before ++ .create created :: updates.map .change ∧
          LastWritten row created updates := by
  obtain ⟨labels, resolved⟩ := resolve_ok ok
  obtain ⟨layers, found, writes, read, each, asks, sound, written⟩ := resolveRows_writes resolved
  refine ⟨layers, found, writes, read, each, asks, written, fun row member => ?_⟩
  have replayed : replay Update.apply (writesTo row.id (creations found.flatten ++ writes)) = some row :=
    (written row.id).symm.trans (entry_of_mem Row.id sound.distinct member)
  obtain ⟨before, created, updates, history, rfl⟩ := replay_some Update.apply replayed
  exact ⟨before, created, updates, history, lastWritten_updated created updates⟩

end Documents

/-! ### A profile with a group -/

def exampleProfile : Json OnlyNan := .obj [("api_version", .int 1), ("bundles", .arr [.str "base"]),
  ("patches", .arr [.obj [("id", .str "log"), ("config", .obj [("level", .int 2)])]])]

/-- A bundle with a row in a group. -/
def exampleBundle : Json OnlyNan := .obj [("api_version", .int 1),
  ("entries", .arr [.obj [("id", .str "io"), ("isolate", .arr [.str "fs"]), ("entries", .arr [.obj [("id", .str "log"), ("name", .str "aka.log")]])]])]

def exampleFiles : Outside OnlyNan where
  readText
    | "profile" => .ok (String.ofList (dumps exampleProfile))
    | "base" => .ok (String.ofList (dumps exampleBundle))
    | _ => .error (.inl "missing")
  decodeError _ := "malformed"
  profile name := name
  bundle name := name
  resource _ _ := none
  isIdentifier _ := true
  str _ := ""
  repr _ := ""
  floats := ⟨fun _ => false, fun _ _ => false, fun _ _ => false, fun _ _ => false, fun _ _ => false, fun _ _ => false⟩

theorem example_resolved : (resolve exampleFiles "profile" [] [] []).toOption.map (fun composition => composition.rows.map Row.id) = some ["log"] := by
  decide +kernel

/-- The row of the group is there, as the patch of the profile leaves it. -/
theorem resolve_last_written_group : ∃ composition row, resolve exampleFiles "profile" [] [] [] = .ok composition ∧ row ∈ composition.rows ∧
    row.id = "log" ∧ ∃ created updates, LastWritten row created updates := by
  have resolved := example_resolved
  cases made : resolve exampleFiles "profile" [] [] [] with
  | error failure =>
      rw [made] at resolved
      cases resolved
  | ok composition =>
      rw [made] at resolved
      have ids : composition.rows.map Row.id = ["log"] := Option.some.inj resolved
      obtain ⟨row, member, named⟩ := List.mem_map.mp (ids ▸ List.mem_singleton.mpr rfl : "log" ∈ composition.rows.map Row.id)
      obtain ⟨_, _, _, _, _, _, _, each⟩ := resolve_last_written made
      obtain ⟨_, created, updates, _, last⟩ := each row member
      exact ⟨composition, row, rfl, member, named, created, updates, last⟩

end AtrexAgent.Layering
