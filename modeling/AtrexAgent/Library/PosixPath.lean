import Mathlib.Data.List.Basic

/-! POSIX paths as text: the root, the components, and the text that a path is rendered to. -/

namespace AtrexAgent.PosixPath

/-- Exactly two leading slashes are a root of their own. -/
inductive Root where
  | relative | single | double
  deriving DecidableEq

structure PurePath where
  root : Root
  parts : List (List Char)
  deriving DecidableEq

def rootOf : List Char → Root
  | '/' :: '/' :: '/' :: _ => .single
  | '/' :: '/' :: _ => .double
  | '/' :: _ => .single
  | _ => .relative

/-- The components of a text: what stands between slashes, but for empty ones and dots. -/
def components (text : List Char) : List (List Char) := (text.splitOn '/').filter fun part => part ≠ [] ∧ part ≠ ['.']

def parse (text : List Char) : PurePath := ⟨rootOf text, components text⟩

def Root.text : Root → List Char
  | .relative => []
  | .single => ['/']
  | .double => ['/', '/']

def PurePath.asPosix (path : PurePath) : List Char :=
  if path.root = .relative ∧ path.parts = [] then ['.'] else path.root.text ++ ['/'].intercalate path.parts

/-- A component that can be written. -/
def Component (part : List Char) : Prop := part ≠ [] ∧ part ≠ ['.'] ∧ '/' ∉ part

theorem splitOn_plain (text : List Char) : ∀ part ∈ text.splitOn '/', '/' ∉ part := by
  induction text with
  | nil => simp
  | cons c rest ih =>
      rw [List.splitOn_cons_eq_if_modifyHead]
      split
      · intro part member
        rcases List.mem_cons.mp member with rfl | member
        · simp
        · exact ih part member
      · rename_i other
        obtain ⟨first, more, split⟩ := List.exists_cons_of_ne_nil (List.splitOn_ne_nil '/' rest)
        rw [split] at ih ⊢
        intro part member
        rcases List.mem_cons.mp member with rfl | member
        · have apart : c ≠ '/' := by simpa using other
          simp [ih first List.mem_cons_self, apart.symm]
        · exact ih part (List.mem_cons_of_mem _ member)

theorem components_component (text : List Char) : ∀ part ∈ components text, Component part := by
  intro part member
  simp only [components, List.mem_filter, decide_eq_true_eq] at member
  exact ⟨member.2.1, member.2.2, splitOn_plain text part member.1⟩

/-- Components join at a slash. -/
theorem components_append (front back : List Char) : components (front ++ '/' :: back) = components front ++ components back := by
  rw [components, List.splitOn_append_cons_self, List.filter_append, components, components]

theorem components_one {part : List Char} (component : Component part) : components part = [part] := by
  rw [components, List.splitOn_eq_singleton component.2.2, List.filter_singleton]
  simp [component.1, component.2.1]

@[simp] theorem components_nil : components [] = [] := by simp [components]

theorem components_intercalate {parts : List (List Char)} (written : ∀ part ∈ parts, Component part) :
    components (['/'].intercalate parts) = parts := by
  induction parts with
  | nil => simp
  | cons part parts ih =>
      have here := written part List.mem_cons_self
      cases parts with
      | nil => simpa using components_one here
      | cons next parts =>
          have rest := ih fun other member => written other (List.mem_cons_of_mem part member)
          rw [List.intercalate_cons_cons, List.append_assoc, List.singleton_append, components_append, components_one here, rest]
          rfl

/-- A path as `parse` makes it. -/
def PurePath.Written (path : PurePath) : Prop := ∀ part ∈ path.parts, Component part

theorem components_asPosix {path : PurePath} (written : path.Written) (absolute : path.root ≠ .relative) :
    components path.asPosix = path.parts := by
  rw [PurePath.asPosix, if_neg fun both => absolute both.1]
  have rest := components_intercalate written
  cases root : path.root with
  | relative => exact absurd root absolute
  | single =>
      rw [Root.text, List.singleton_append, ← List.nil_append ('/' :: _), components_append, rest]
      rfl
  | double =>
      rw [Root.text, List.cons_append, List.singleton_append, ← List.nil_append ('/' :: '/' :: _), components_append,
        ← List.nil_append ('/' :: ['/'].intercalate _), components_append, rest]
      rfl

theorem intercalate_head {parts : List (List Char)} (written : ∀ part ∈ parts, Component part) :
    ['/'].intercalate parts = [] ∧ parts = [] ∨ ∃ c rest, ['/'].intercalate parts = c :: rest ∧ c ≠ '/' := by
  cases parts with
  | nil => exact .inl ⟨rfl, rfl⟩
  | cons part parts =>
      right
      obtain ⟨some_, -, plain⟩ := written part List.mem_cons_self
      obtain ⟨c, rest, rfl⟩ := List.exists_cons_of_ne_nil some_
      have other : c ≠ '/' := fun same => plain (same ▸ List.mem_cons_self)
      cases parts with
      | nil => exact ⟨c, rest, by simp, other⟩
      | cons next parts => exact ⟨c, _, by rw [List.intercalate_cons_cons]; rfl, other⟩

theorem rootOf_asPosix {path : PurePath} (written : path.Written) (absolute : path.root ≠ .relative) : rootOf path.asPosix = path.root := by
  rw [PurePath.asPosix, if_neg fun both => absolute both.1]
  cases root : path.root with
  | relative => exact absurd root absolute
  | single =>
      rcases intercalate_head written with ⟨empty, -⟩ | ⟨c, rest, here, other⟩
      · rw [empty]
        rfl
      · rw [here]
        simp [Root.text, rootOf, other]
  | double =>
      rcases intercalate_head written with ⟨empty, -⟩ | ⟨c, rest, here, other⟩
      · rw [empty]
        rfl
      · rw [here]
        simp [Root.text, rootOf, other]

theorem parse_written (text : List Char) : (parse text).Written := components_component text

/-- What is rendered is read back. -/
theorem parse_asPosix {path : PurePath} (written : path.Written) (absolute : path.root ≠ .relative) : parse path.asPosix = path := by
  rw [parse, rootOf_asPosix written absolute, components_asPosix written absolute]

theorem asPosix_inj {path other : PurePath} (written : path.Written) (written' : other.Written) (absolute : path.root ≠ .relative)
    (absolute' : other.root ≠ .relative) : path.asPosix = other.asPosix ↔ path = other := by
  constructor
  · intro same
    rw [← parse_asPosix written absolute, same, parse_asPosix written' absolute']
  · intro same
    rw [same]

theorem intercalate_append {front : List (List Char)} (some_ : front ≠ []) (next : List Char) (rest : List (List Char)) :
    ['/'].intercalate (front ++ next :: rest) = ['/'].intercalate front ++ '/' :: ['/'].intercalate (next :: rest) := by
  induction front with
  | nil => exact absurd rfl some_
  | cons part front ih =>
      cases front with
      | nil => simp [List.intercalate_cons_cons]
      | cons other front =>
          rw [List.cons_append, List.cons_append, List.intercalate_cons_cons, List.intercalate_cons_cons, ← List.cons_append,
            ih (List.cons_ne_nil _ _)]
          simp

/-- Below a directory, by the text and by the components. -/
theorem below_iff {path tree : PurePath} (written : path.Written) (written' : tree.Written) (absolute : path.root ≠ .relative)
    (single : tree.root = .single) (some_ : tree.parts ≠ []) :
    (path.asPosix = tree.asPosix ∨ tree.asPosix ++ ['/'] <+: path.asPosix) ↔ path.root = .single ∧ tree.parts <+: path.parts := by
  have absolute' : tree.root ≠ .relative := by simp [single]
  constructor
  · intro here
    rcases here with same | ⟨rest, more⟩
    · rw [(asPosix_inj written written' absolute absolute').mp same]
      exact ⟨single, List.prefix_rfl⟩
    · rw [List.append_assoc, List.singleton_append] at more
      have parts := components_asPosix written absolute
      rw [← more, components_append, components_asPosix written' absolute'] at parts
      refine ⟨?_, ⟨_, parts⟩⟩
      rw [← rootOf_asPosix written absolute, ← more, PurePath.asPosix, if_neg fun both => absolute' both.1, single]
      rcases intercalate_head written' with ⟨-, empty⟩ | ⟨c, rest, here, other⟩
      · exact absurd empty some_
      · rw [here]
        simp [Root.text, rootOf, other]
  · intro ⟨root, rest, parts⟩
    cases rest with
    | nil =>
        left
        rw [List.append_nil] at parts
        rw [asPosix_inj written written' absolute absolute']
        cases path
        cases tree
        simp_all
    | cons next rest =>
        right
        rw [PurePath.asPosix, PurePath.asPosix, if_neg fun both => absolute' both.1, if_neg fun both => absolute both.1, root, single, ← parts]
        refine ⟨['/'].intercalate (next :: rest), ?_⟩
        rw [intercalate_append some_]
        simp

/-! ### Characters -/

theorem mem_intercalate {c : Char} (other : c ≠ '/') (parts : List (List Char)) : c ∈ ['/'].intercalate parts ↔ ∃ part ∈ parts, c ∈ part := by
  induction parts with
  | nil => simp
  | cons part parts ih =>
      cases parts with
      | nil => simp
      | cons next parts =>
          rw [List.intercalate_cons_cons, List.mem_append, List.mem_append, ih]
          simp [other]

/-- A character that neither parts components nor drops them is in a component. -/
theorem mem_components {c : Char} (other : c ≠ '/') (solid : c ≠ '.') (text : List Char) :
    (∃ part ∈ components text, c ∈ part) ↔ c ∈ text := by
  have whole : ['/'].intercalate (text.splitOn '/') = text := List.intercalate_splitOn '/'
  rw [← whole, mem_intercalate other, whole]
  constructor
  · intro ⟨part, member, inside⟩
    exact ⟨part, List.mem_of_mem_filter member, inside⟩
  · intro ⟨part, member, inside⟩
    refine ⟨part, List.mem_filter.mpr ⟨member, decide_eq_true ⟨fun empty => ?_, fun dot => ?_⟩⟩, inside⟩
    · rw [empty] at inside
      cases inside
    · rw [dot, List.mem_singleton] at inside
      exact solid inside

theorem mem_asPosix {c : Char} (other : c ≠ '/') (solid : c ≠ '.') {text : List Char} (absolute : rootOf text ≠ .relative) :
    c ∈ (parse text).asPosix ↔ c ∈ text := by
  rw [← mem_components other solid, components_asPosix (parse_written text) absolute, parse, mem_components other solid]

end AtrexAgent.PosixPath
