import Mathlib.Data.Finset.Sort
import Mathlib.Data.String.Basic
import AtrexAgent.Library.PosixPath
import AtrexAgent.Library.Traversal
import AtrexAgent.Workspace.Contract

/-! The files of a workspace: what stands at each path, and what the program does to it. -/

namespace AtrexAgent.Sources

open AtrexAgent.PosixPath (splitOn_plain)

/-! ### Paths -/

def join (path : List Text) : String := String.ofList (['/'].intercalate path)

/-- The directories that a path is in. -/
def above (name : String) : List String :=
  (List.range' 1 ((parts name).length - 1)).map fun n => join ((parts name).take n)

theorem parts_ne_nil (name : String) : parts name ≠ [] := List.splitOn_ne_nil _ _

theorem join_parts (name : String) : join (parts name) = name := by
  rw [join, parts, List.intercalate_splitOn, String.ofList_toList]

theorem parts_inj {name other : String} (same : parts name = parts other) : name = other := by
  rw [← join_parts name, same, join_parts]

theorem parts_join {path : List Text} (some_part : path ≠ []) (plain : ∀ part ∈ path, '/' ∉ part) :
    parts (join path) = path := by
  rw [join, parts, String.toList_ofList, List.splitOn_intercalate '/' plain some_part]

theorem mem_above {name parent : String} : parent ∈ above name ↔ parts parent <+: parts name ∧ parent ≠ name := by
  have read (n : Nat) (start : 1 ≤ n) : parts (join ((parts name).take n)) = (parts name).take n := by
    refine parts_join ?_ fun part member => splitOn_plain _ part (List.mem_of_mem_take member)
    rw [Ne, List.take_eq_nil_iff, not_or]
    exact ⟨by omega, parts_ne_nil name⟩
  simp only [above, List.mem_map, List.mem_range'_1]
  constructor
  · rintro ⟨n, ⟨start, short⟩, here⟩
    have taken := read n start
    rw [here] at taken
    refine ⟨taken ▸ List.take_prefix n (parts name), fun same => ?_⟩
    have length := congrArg List.length taken
    rw [same, List.length_take] at length
    omega
  · rintro ⟨start, other⟩
    have length := start.length_le
    have some_part := List.length_pos_of_ne_nil (parts_ne_nil parent)
    have taken : parts parent = (parts name).take (parts parent).length := List.prefix_iff_eq_take.mp start
    have short : (parts parent).length ≠ (parts name).length := by
      intro same
      exact other (parts_inj (start.eq_of_length same))
    refine ⟨(parts parent).length, ⟨by omega, by omega⟩, ?_⟩
    rw [← taken, join_parts]

theorem not_above_self (name : String) : name ∉ above name := fun member => (mem_above.mp member).2 rfl

theorem above_trans {name parent other : String} (first : other ∈ above parent) (second : parent ∈ above name) :
    other ∈ above name := by
  obtain ⟨start, apart⟩ := mem_above.mp first
  obtain ⟨start', -⟩ := mem_above.mp second
  refine mem_above.mpr ⟨start.trans start', ?_⟩
  rintro rfl
  exact apart (parts_inj (start.eq_of_length (Nat.le_antisymm start.length_le start'.length_le)))

theorem above_asymm {name parent : String} (first : parent ∈ above name) : name ∉ above parent := fun second =>
  not_above_self name (above_trans second first)

/-! ### Trees -/

inductive Node where
  | dir
  | file (data : Bytes)
  | link
  | special
  deriving DecidableEq

/-- What stands below a workspace, by path; the directories of what is there are directories. -/
structure FileTree where
  node : String → Option Node
  names : Finset String
  listed : ∀ name, name ∈ names ↔ node name ≠ none
  closed : ∀ name ∈ names, ∀ parent ∈ above name, node parent = some .dir

namespace FileTree

variable (tree : FileTree) (name : String)

/-- The directories of a path are there, or can be made. -/
def Opens : Prop := ∀ parent ∈ above name, tree.node parent = none ∨ tree.node parent = some .dir

instance : Decidable (tree.Opens name) := inferInstanceAs (Decidable (∀ parent ∈ above name, _))

/-- The tree with a file, or with nothing, at a path that is no directory, and with its directories. -/
def set (content : Option Bytes) (free : tree.node name ≠ some .dir) : FileTree where
  node n := if n = name then content.map .file else if n ∈ above name then some .dir else tree.node n
  names :=
    if content.isSome then insert name (tree.names ∪ (above name).toFinset)
    else (tree.names ∪ (above name).toFinset).erase name
  listed := by
    intro n
    have listed := tree.listed n
    cases content <;> by_cases here : n = name <;> by_cases inside : n ∈ above name <;> simp_all
  closed := by
    intro n member parent lies
    have old (there : n ∈ tree.names) : parent ≠ name ∧ (parent ∉ above name → tree.node parent = some .dir) := by
      have directory := tree.closed n there parent lies
      exact ⟨fun same => free (same ▸ directory), fun _ => directory⟩
    have path (under : n = name ∨ n ∈ above name) : parent ≠ name ∧ parent ∈ above name := by
      have inside : parent ∈ above name := under.elim (fun same => same ▸ lies) (above_trans lies)
      exact ⟨fun same => not_above_self name (same ▸ inside), inside⟩
    have cases : n ∈ tree.names ∨ n = name ∨ n ∈ above name := by
      cases content <;> simp at member <;> tauto
    rcases cases with there | under
    · obtain ⟨apart, directory⟩ := old there
      by_cases inside : parent ∈ above name
      · simp [apart, inside]
      · simp [apart, inside, directory inside]
    · obtain ⟨apart, inside⟩ := path under
      simp [apart, inside]

variable {tree name}

@[simp] theorem set_node (content : Option Bytes) (free : tree.node name ≠ some .dir)
    (n : String) : (tree.set name content free).node n =
      if n = name then content.map .file else if n ∈ above name then some .dir else tree.node n := rfl

/-- The operating system can put a file at a path: its directories are there or can be made, and it is none. -/
def Takes (tree : FileTree) (name : String) : Prop := tree.Opens name ∧ tree.node name ≠ some .dir

instance (tree : FileTree) (name : String) : Decidable (tree.Takes name) := inferInstanceAs (Decidable (_ ∧ _))

/-- `publish`: the file is written beside its path and moved there. An error is the operating system's. -/
def publish (tree : FileTree) (name : String) (data : Bytes) : Option FileTree :=
  if takes : tree.Takes name then some (tree.set name (some data) takes.2) else none

/-- What `remove_files` does with one name. -/
def remove (tree : FileTree) (name : String) : Option FileTree :=
  if takes : tree.Takes name then some (tree.set name none takes.2) else none

def publishAll (tree : FileTree) (files : Files) : Option FileTree :=
  files.foldlM (fun tree file => tree.publish file.1 file.2) tree

def removeAll (tree : FileTree) (names : List String) : Option FileTree := names.foldlM remove tree

/-- A file is taken away; what it is below stays. -/
theorem removeAll_files {tree : FileTree} {names : List String} (nodup : names.Nodup)
    (files : ∀ name ∈ names, ∃ data, tree.node name = some (.file data)) :
    ∃ after, tree.removeAll names = some after ∧
      ∀ n, after.node n = if n ∈ names then none else tree.node n := by
  induction names generalizing tree with
  | nil => exact ⟨tree, rfl, by simp⟩
  | cons name rest ih =>
      obtain ⟨fresh, nodup⟩ := List.nodup_cons.mp nodup
      obtain ⟨data, file⟩ := files name List.mem_cons_self
      have there : name ∈ tree.names := (tree.listed name).mpr (by simp [file])
      have takes : tree.Takes name := ⟨fun parent lies => .inr (tree.closed name there parent lies), by simp [file]⟩
      have same (n : String) : (tree.set name none takes.2).node n = if n = name then none else tree.node n := by
        rw [set_node]
        split
        · rfl
        · split
          · rename_i inside
            exact (tree.closed name there n inside).symm
          · rfl
      have others : ∀ other ∈ rest, ∃ data, (tree.set name none takes.2).node other = some (.file data) := by
        intro other member
        obtain ⟨data, file⟩ := files other (List.mem_cons_of_mem _ member)
        have apart : other ≠ name := fun same => fresh (same ▸ member)
        exact ⟨data, by rw [same, if_neg apart, file]⟩
      obtain ⟨after, done, nodes⟩ := ih nodup others
      refine ⟨after, ?_, fun n => ?_⟩
      · rw [removeAll, List.foldlM_cons, remove, dif_pos takes]
        exact done
      · rw [nodes, same]
        by_cases here : n = name <;> simp [here]

/-- The names of some files can all be put into a tree. -/
def TakesAll (tree : FileTree) (names : List String) : Prop :=
  ∀ name ∈ names, tree.Takes name ∧ ∀ parent ∈ above name, parent ∉ names

section Publishing

variable {tree : FileTree} {name : String} {data : Bytes} (takes : tree.Takes name)

theorem set_opens {other : String} : (tree.set name (some data) takes.2).Opens other ↔
    tree.Opens other ∧ name ∉ above other := by
  constructor
  · intro opens
    refine ⟨fun parent lies => ?_, fun inside => ?_⟩
    · have there := opens parent lies
      by_cases inside : parent ∈ above name
      · exact takes.1 parent inside
      · by_cases here : parent = name
        · simp [here] at there
        · simpa [here, inside] using there
    · simpa using opens name inside
  · rintro ⟨opens, outside⟩ parent lies
    have apart : parent ≠ name := fun same => outside (same ▸ lies)
    rw [set_node, if_neg apart]
    split
    · exact .inr rfl
    · exact opens parent lies

/-- What else a tree takes when it has taken a file. -/
theorem set_takes {other : String} (apart : other ≠ name) : (tree.set name (some data) takes.2).Takes other ↔
    tree.Takes other ∧ name ∉ above other ∧ other ∉ above name := by
  rw [Takes, set_opens takes, set_node, if_neg apart, Takes]
  by_cases inside : other ∈ above name
  · simp [inside]
  · simp [inside]
    tauto

theorem takesAll_cons {rest : List String} (fresh : name ∉ rest) :
    (tree.set name (some data) takes.2).TakesAll rest ↔ tree.TakesAll (name :: rest) := by
  have apart {other : String} (member : other ∈ rest) : other ≠ name := fun same => fresh (same ▸ member)
  constructor
  · intro all other member
    rcases List.mem_cons.mp member with rfl | member
    · refine ⟨takes, fun parent lies inside => ?_⟩
      rcases List.mem_cons.mp inside with rfl | inside
      · exact not_above_self _ lies
      · exact ((set_takes takes (apart inside)).mp (all parent inside).1).2.2 lies
    · obtain ⟨other_takes, outside⟩ := all other member
      obtain ⟨other_takes, below, -⟩ := (set_takes takes (apart member)).mp other_takes
      refine ⟨other_takes, fun parent lies inside => ?_⟩
      rcases List.mem_cons.mp inside with rfl | inside
      · exact below lies
      · exact outside parent lies inside
  · intro all other member
    obtain ⟨other_takes, outside⟩ := all other (List.mem_cons_of_mem _ member)
    refine ⟨(set_takes takes (apart member)).mpr ⟨other_takes, ?_, ?_⟩, fun parent lies inside => ?_⟩
    · exact fun lies => outside name lies List.mem_cons_self
    · exact fun lies => (all name List.mem_cons_self).2 other lies (List.mem_cons_of_mem _ member)
    · exact outside parent lies (List.mem_cons_of_mem _ inside)

end Publishing

theorem publishAll_iff {tree : FileTree} {files : Files} (nodup : (files.map Prod.fst).Nodup) :
    (∃ after, tree.publishAll files = some after) ↔ tree.TakesAll (files.map Prod.fst) := by
  induction files generalizing tree with
  | nil => exact ⟨fun _ name member => absurd member List.not_mem_nil, fun _ => ⟨tree, rfl⟩⟩
  | cons file rest ih =>
      obtain ⟨fresh, nodup⟩ := List.nodup_cons.mp nodup
      rw [publishAll, List.foldlM_cons, publish]
      by_cases takes : tree.Takes file.1
      · rw [dif_pos takes, List.map_cons, ← takesAll_cons takes fresh]
        exact ih nodup
      · rw [dif_neg takes]
        constructor
        · rintro ⟨after, published⟩
          cases published
        · exact fun all => absurd (all file.1 List.mem_cons_self).1 takes

/-- Where the files can be put, they are put, and nothing else is changed but the directories they are in. -/
theorem publishAll_node {tree after : FileTree} {files : Files} (nodup : (files.map Prod.fst).Nodup)
    (published : tree.publishAll files = some after) (n : String) :
    (∀ data, (n, data) ∈ files → after.node n = some (.file data)) ∧
    (n ∉ files.map Prod.fst → after.node n =
      if ∃ name ∈ files.map Prod.fst, n ∈ above name then some .dir else tree.node n) := by
  induction files generalizing tree with
  | nil =>
      cases published
      simp
  | cons file rest ih =>
      obtain ⟨name, data⟩ := file
      obtain ⟨fresh, nodup⟩ := List.nodup_cons.mp nodup
      rw [publishAll, List.foldlM_cons, publish] at published
      by_cases takes : tree.Takes name
      · rw [dif_pos takes] at published
        have all := (publishAll_iff nodup).mp ⟨after, published⟩
        obtain ⟨ih_file, ih_other⟩ := ih nodup published
        refine ⟨fun content member => ?_, fun outside => ?_⟩
        · rcases List.mem_cons.mp member with same | member
          · cases same
            have not_over : ¬ ∃ other ∈ rest.map Prod.fst, n ∈ above other := by
              rintro ⟨other, member, lies⟩
              exact ((set_opens takes).mp (all other member).1.1).2 lies
            rw [ih_other fresh, if_neg not_over, set_node, if_pos rfl]
            rfl
          · exact ih_file content member
        · rw [List.map_cons, List.mem_cons, not_or] at outside
          rw [ih_other outside.2, set_node, if_neg outside.1]
          have split : (∃ other ∈ ((name, data) :: rest).map Prod.fst, n ∈ above other) ↔
              n ∈ above name ∨ ∃ other ∈ rest.map Prod.fst, n ∈ above other := by simp
          by_cases deep : ∃ other ∈ rest.map Prod.fst, n ∈ above other
          · rw [if_pos deep, if_pos (split.mpr (.inr deep))]
          · rw [if_neg deep]
            by_cases lies : n ∈ above name
            · rw [if_pos lies, if_pos (split.mpr (.inl lies))]
            · rw [if_neg lies, if_neg (fun some => (split.mp some).elim lies deep)]
      · rw [dif_neg takes] at published
        cases published

end FileTree

end AtrexAgent.Sources
