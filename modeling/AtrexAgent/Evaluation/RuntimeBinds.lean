import AtrexAgent.Library.PosixPath
import AtrexAgent.Library.Traversal
import Mathlib.Data.List.TakeWhile

/-! Runtime binds of the SSH sandbox: what a bind may name, how the remote sources are resolved, and what is mounted. -/

namespace AtrexAgent.RuntimeBinds

open AtrexAgent.PosixPath

abbrev Text := List Char

local instance : LawfulBEq Text := inferInstance

/-! ### One bind -/

inductive BindError where
  | notAbsolute (label : String) (raw : Text)
  | tooBroad (source : Text)
  | sensitive (source : Text)
  | outsideVenv (source : Text)
  | reserved (destination : Text)

/-- The text of an error, with `repr` of the language. -/
def BindError.message (repr : Text → String) : BindError → String
  | .notAbsolute label raw => s!"SSH runtime bind {label} must be an absolute path without '..': {repr raw}"
  | .tooBroad source => s!"SSH runtime bind source is sensitive or too broad: {repr source}"
  | .sensitive source => s!"SSH runtime bind source contains a sensitive directory: {repr source}"
  | .outsideVenv source => s!"SSH runtime bind source below /home must be a .venv/venv or a direct Conda envs child: {repr source}"
  | .reserved destination => s!"SSH runtime bind destination is reserved: {repr destination}"

def FORBIDDEN : List Text :=
  ["/", "/atrex", "/bin", "/dev", "/etc", "/lib", "/lib64", "/proc", "/sbin", "/sys", "/tmp", "/usr", "/home", "/root"].map String.toList

def RESERVED_TREES : List Text :=
  ["atrex", "bin", "dev", "etc", "lib", "lib64", "proc", "sbin", "sys", "tmp", "usr"].map String.toList

def SOURCE_FORBIDDEN_TREES : List Text :=
  ["/dev", "/etc", "/proc", "/root", "/sys", "/var/lib", "/var/log", "/var/run"].map String.toList

def BROAD_SOURCE_ROOTS : List Text :=
  ["/", "/atrex", "/bin", "/home", "/lib", "/lib64", "/opt", "/sbin", "/srv", "/tmp", "/usr", "/var"].map String.toList

def SENSITIVE_COMPONENTS : List Text := [".aws", ".config", ".docker", ".gnupg", ".kube", ".ssh"].map String.toList

/-- `value.partition("=")`, where a value without a separator names both sides. -/
def sides (value : Text) : Text × Text :=
  let source := value.takeWhile (· ≠ '=')
  match value.dropWhile (· ≠ '=') with
  | [] => (source, source)
  | _ :: destination => (source, destination)

/-- The path of a side, as it is written. -/
def pathOf (label : String) (raw : Text) : Except BindError Text :=
  if raw = [] ∨ rootOf raw = .relative ∨ ['.', '.'] ∈ components raw then .error (.notAbsolute label raw)
  else .ok (parse raw).asPosix

def checkSource (source : Text) : Except BindError Unit :=
  let parts := components source
  if source ∈ BROAD_SOURCE_ROOTS ∨ ∃ tree ∈ SOURCE_FORBIDDEN_TREES, source = tree ∨ tree ++ ['/'] <+: source then .error (.tooBroad source)
  else if ∃ part ∈ parts, part ∈ SENSITIVE_COMPONENTS then .error (.sensitive source)
  else if parts.head? = some "home".toList ∧ parts.getLast? ≠ some ".venv".toList ∧ parts.getLast? ≠ some "venv".toList ∧
      parts.dropLast.getLast? ≠ some "envs".toList then .error (.outsideVenv source)
  else .ok ()

def checkDestination (destination : Text) : Except BindError Unit :=
  if destination ∈ FORBIDDEN ∨ ∃ first ∈ (components destination).head?, first ∈ RESERVED_TREES then .error (.reserved destination)
  else .ok ()

def sshRuntimeBind (value : Text) : Except BindError (Text × Text) := do
  let source ← pathOf "source" (sides value).1
  let destination ← pathOf "destination" (sides value).2
  checkSource source
  checkDestination destination
  return (source, destination)

/-! ### Resolving -/

inductive ResolveError where
  | declared (error : BindError)
  | invalidList
  | refused (source : Text) (error : BindError)

def ResolveError.message (repr : Text → String) : ResolveError → String
  | .declared error => error.message repr
  | .invalidList => "SSH runtime bind resolver returned an invalid path list"
  | .refused source error => s!"resolved SSH runtime bind is unsafe: {repr source}: {error.message repr}"

def parseBinds (runtimeBinds : List Text) : Except ResolveError (List (Text × Text)) :=
  runtimeBinds.mapM fun value => (sshRuntimeBind value).mapError .declared

/-- A declared bind with the real path of its source. -/
def revalidate (source : Text) (declared : Text × Text) : Except ResolveError Text :=
  ((sshRuntimeBind (source ++ '=' :: declared.2)).mapError (.refused source)).map fun validated => validated.1 ++ '=' :: validated.2

/-- The binds with the real paths that the remote resolver returns. -/
def resolveSshRuntimeBinds (runtimeBinds resolved : List Text) : Except ResolveError (List Text) := do
  let parsed ← parseBinds runtimeBinds
  if parsed = [] then return []
  if resolved.length ≠ parsed.length then .error .invalidList
  else (resolved.zip parsed).mapM fun (source, declared) => revalidate source declared

/-! ### Mounting -/

def directoriesOf (destination : Text) : List Text :=
  let path := parse destination
  let depth := path.parts.length - 1
  (List.range (depth + 1)).map fun n => (⟨path.root, path.parts.take n⟩ : PurePath).asPosix

/-- The arguments that make the parents of the destinations and mount the sources there. -/
def mountArgs : List (Text × Text) → List Text → List Text
  | [], _ => []
  | (source, destination) :: binds, created =>
      let missing := (directoriesOf destination).filter fun directory => directory ≠ ['/'] ∧ directory ∉ created
      missing.flatMap (fun directory => ["--dir".toList, directory]) ++ ["--ro-bind".toList, source, destination] ++
        mountArgs binds (created ++ missing)

/-- The binds that `_ssh_bwrap_command` mounts. -/
def sshBwrapBinds (runtimeBinds : List Text) : Except BindError (List (Text × Text)) := runtimeBinds.mapM sshRuntimeBind

/-! ### What is meant -/

/-- The normalised path is a forbidden directory or lies in a reserved tree. -/
def Shadows (parts : List Text) : Prop :=
  (∃ directory ∈ FORBIDDEN, parts = components directory) ∨ ∃ first ∈ parts.head?, first ∈ RESERVED_TREES

/-- The normalised path is a broad root, lies in a denied tree or has a sensitive directory in it. -/
def Denied (parts : List Text) : Prop :=
  (∃ root ∈ BROAD_SOURCE_ROOTS, parts = components root) ∨ (∃ tree ∈ SOURCE_FORBIDDEN_TREES, components tree <+: parts) ∨
    ∃ part ∈ parts, part ∈ SENSITIVE_COMPONENTS

instance (parts : List Text) : Decidable (Shadows parts) := inferInstanceAs (Decidable (_ ∨ _))

instance (parts : List Text) : Decidable (Denied parts) := inferInstanceAs (Decidable (_ ∨ _))

/-- A mount is of the real directory of its request at the requested place, and both are allowed. -/
def Safe (request mount : Text × Text) : Prop :=
  components mount.1 = components request.2 ∧ components mount.2 = components (sides request.1).2 ∧
    ¬ Shadows (components mount.2) ∧ ¬ Denied (components mount.1)

/-- The forbidden directories that are not in a reserved tree: `/`, `/home` and `/root`. -/
def UNRESERVED : List (List Text) := [[], ["home".toList], ["root".toList]]

/-- No separator in the real path, and no double slash before a path that is refused with one. -/
def Clear (request : Text × Text) : Prop :=
  '=' ∉ request.2 ∧ ¬ (rootOf request.2 = .double ∧ Denied (components request.2)) ∧
    ¬ (rootOf (sides request.1).2 = .double ∧ components (sides request.1).2 ∈ UNRESERVED)

instance (request : Text × Text) : Decidable (Clear request) := inferInstanceAs (Decidable (_ ∧ _))

/-! ### One bind -/

variable {value source destination : Text} {bind_ : Text × Text}

theorem pathOf_ok {label : String} {raw path : Text} : pathOf label raw = .ok path ↔
    raw ≠ [] ∧ rootOf raw ≠ .relative ∧ ['.', '.'] ∉ components raw ∧ path = (parse raw).asPosix := by
  unfold pathOf
  split
  · rename_i refused
    constructor
    · intro done
      cases done
    · intro ⟨some_, absolute, plain, _⟩
      rcases refused with empty | relative | dots
      · exact absurd empty some_
      · exact absurd relative absolute
      · exact absurd dots plain
  · rename_i taken
    simp only [not_or] at taken
    rw [Except.ok.injEq]
    exact ⟨fun same => ⟨taken.1, taken.2.1, taken.2.2, same.symm⟩, fun all => all.2.2.2.symm⟩

theorem sshRuntimeBind_ok : sshRuntimeBind value = .ok bind_ ↔
    pathOf "source" (sides value).1 = .ok bind_.1 ∧ pathOf "destination" (sides value).2 = .ok bind_.2 ∧
      checkSource bind_.1 = .ok () ∧ checkDestination bind_.2 = .ok () := by
  unfold sshRuntimeBind
  constructor
  · intro done
    obtain ⟨source, first, done⟩ := (bind_ok_iff _ _ _).mp done
    obtain ⟨destination, second, done⟩ := (bind_ok_iff _ _ _).mp done
    obtain ⟨_, third, done⟩ := (bind_ok_iff _ _ _).mp done
    obtain ⟨_, fourth, done⟩ := (bind_ok_iff _ _ _).mp done
    cases done
    exact ⟨first, second, third, fourth⟩
  · intro ⟨first, second, third, fourth⟩
    rw [first, second]
    simp only [bind, Except.bind, third, fourth]
    rfl

/-- A written path is taken as it is. -/
theorem pathOf_again {label : String} {raw path : Text} (taken : pathOf label raw = .ok path) (other : String) :
    pathOf other path = .ok path := by
  obtain ⟨some_, absolute, plain, rfl⟩ := pathOf_ok.mp taken
  have written := parse_written raw
  have again := parse_asPosix written absolute
  have root : rootOf (parse raw).asPosix = rootOf raw := rootOf_asPosix written absolute
  refine pathOf_ok.mpr ⟨fun empty => ?_, root ▸ absolute, ?_, by rw [again]⟩
  · rw [empty] at root
    exact absolute root.symm
  · rw [components_asPosix written absolute]
    exact plain

theorem sides_join (plain : '=' ∉ source) (destination : Text) : sides (source ++ '=' :: destination) = (source, destination) := by
  have kept : ∀ c ∈ source, decide (c ≠ '=') = true := fun c member => decide_eq_true fun same => plain (same ▸ member)
  rw [sides, List.takeWhile_append_of_pos kept, List.dropWhile_append_of_pos kept]
  simp

theorem source_plain (value : Text) : '=' ∉ (sides value).1 := by
  have first : (sides value).1 = value.takeWhile (· ≠ '=') := by
    unfold sides
    dsimp only
    split <;> rfl
  rw [first]
  intro member
  have kept := List.mem_takeWhile_imp member
  simp at kept

/-- An accepted bind, written with its separator, is accepted as the same bind. -/
theorem sshRuntimeBind_again (taken : sshRuntimeBind value = .ok bind_) :
    '=' ∉ bind_.1 ∧ sshRuntimeBind (bind_.1 ++ '=' :: bind_.2) = .ok bind_ := by
  obtain ⟨first, second, third, fourth⟩ := sshRuntimeBind_ok.mp taken
  obtain ⟨-, absolute, -, written⟩ := pathOf_ok.mp first
  have plain : '=' ∉ bind_.1 := by
    rw [written, mem_asPosix (by decide) (by decide) absolute]
    exact source_plain value
  refine ⟨plain, sshRuntimeBind_ok.mpr ?_⟩
  rw [sides_join plain]
  exact ⟨pathOf_again first _, pathOf_again second _, third, fourth⟩

/-! ### Paths and components -/

theorem mem_texts {texts : List Text} (listed : ∀ text ∈ texts, rootOf text = .single ∧ (parse text).asPosix = text) {path : PurePath}
    (written : path.Written) (single : path.root = .single) : path.asPosix ∈ texts ↔ ∃ text ∈ texts, path.parts = components text := by
  have absolute : path.root ≠ .relative := by simp [single]
  constructor
  · intro member
    refine ⟨_, member, ?_⟩
    rw [components_asPosix written absolute]
  · intro ⟨text, member, parts⟩
    obtain ⟨root, same⟩ := listed text member
    have equal : path = parse text := by
      cases path
      simp_all [parse]
    rw [equal, same]
    exact member

theorem below_tree {tree : Text} (listed : rootOf tree = .single ∧ (parse tree).asPosix = tree ∧ components tree ≠ []) {path : PurePath}
    (written : path.Written) (single : path.root = .single) :
    path.asPosix = tree ∨ tree ++ ['/'] <+: path.asPosix ↔ components tree <+: path.parts := by
  have absolute : path.root ≠ .relative := by simp [single]
  have below := below_iff written (parse_written tree) absolute listed.1 listed.2.2
  rw [listed.2.1] at below
  rw [below]
  simp [single, parse]

/-- Of a source with one leading slash, the check refuses exactly what is denied. -/
theorem checkSource_denied {path : PurePath} (written : path.Written) (single : path.root = .single)
    (checked : checkSource path.asPosix = .ok ()) : ¬ Denied path.parts := by
  have absolute : path.root ≠ .relative := by simp [single]
  unfold checkSource at checked
  rw [components_asPosix written absolute] at checked
  dsimp only at checked
  split at checked
  · cases checked
  · rename_i narrow
    split at checked
    · cases checked
    · rename_i insensitive
      simp only [not_or, not_exists, not_and] at narrow
      intro denied
      rcases denied with broad | inside | sensitive
      · exact narrow.1 ((mem_texts (by decide) written single).mpr broad)
      · obtain ⟨tree, member, below⟩ := inside
        have listed : ∀ tree ∈ SOURCE_FORBIDDEN_TREES, rootOf tree = .single ∧ (parse tree).asPosix = tree ∧ components tree ≠ [] := by
          decide
        have both := (below_tree (listed tree member) written single).mpr below
        rcases both with same | under
        · exact (narrow.2 tree member).1 same
        · exact (narrow.2 tree member).2 under
      · exact insensitive sensitive

/-- Of a destination, the check leaves three forbidden directories, and these only behind a double slash. -/
theorem checkDestination_shadows {path : PurePath} (written : path.Written) (absolute : path.root ≠ .relative)
    (checked : checkDestination path.asPosix = .ok ()) : Shadows path.parts ↔ path.root = .double ∧ path.parts ∈ UNRESERVED := by
  unfold checkDestination at checked
  rw [components_asPosix written absolute] at checked
  split at checked
  · cases checked
  · rename_i allowed
    rw [not_or] at allowed
    constructor
    · intro shadows
      rcases shadows with ⟨directory, member, parts⟩ | reserved
      · have listed : ∀ directory ∈ FORBIDDEN, (∃ first ∈ (components directory).head?, first ∈ RESERVED_TREES) ∨
            components directory ∈ UNRESERVED := by
          decide
        rcases listed directory member with reserved | unreserved
        · exact absurd (parts ▸ reserved) allowed.2
        · refine ⟨?_, parts ▸ unreserved⟩
          cases root : path.root with
          | relative => exact absurd root absolute
          | double => rfl
          | single => exact absurd ((mem_texts (by decide) written root).mpr ⟨directory, member, parts⟩) allowed.1
      · exact absurd reserved allowed.2
    · intro ⟨_, unreserved⟩
      have listed : ∀ parts ∈ UNRESERVED, ∃ directory ∈ FORBIDDEN, parts = components directory := by decide
      exact .inl (listed path.parts unreserved)

/-! ### One request -/

/-- A request that is accepted with the real path of its source. -/
structure Accepted (request mount : Text × Text) : Prop where
  declared : ∃ declared, sshRuntimeBind request.1 = .ok declared ∧ sshRuntimeBind (request.2 ++ '=' :: declared.2) = .ok mount

theorem safe_iff {request mount : Text × Text} (accepted : Accepted request mount) : Safe request mount ↔ Clear request := by
  obtain ⟨declared, first, second⟩ := accepted.declared
  obtain ⟨-, place, -, -⟩ := sshRuntimeBind_ok.mp first
  obtain ⟨-, absolute_place, -, placed⟩ := pathOf_ok.mp place
  obtain ⟨source, destination, source_checked, destination_checked⟩ := sshRuntimeBind_ok.mp second
  by_cases plain : '=' ∈ request.2
  · -- The first separator of the real path ends the source.
    obtain ⟨-, absolute, -, taken⟩ := pathOf_ok.mp source
    have cut : '=' ∉ mount.1 := (sshRuntimeBind_again second).1
    constructor
    · intro safe
      have inside := (mem_components (by decide) (by decide) request.2).mpr plain
      rw [← safe.1, mem_components (by decide) (by decide)] at inside
      exact absurd inside cut
    · intro clear
      exact absurd plain clear.1
  · rw [sides_join plain] at source destination
    obtain ⟨-, absolute, -, taken⟩ := pathOf_ok.mp source
    have again := pathOf_again place "destination"
    rw [again, Except.ok.injEq] at destination
    have real := components_asPosix (parse_written request.2) absolute
    have requested := components_asPosix (parse_written (sides request.1).2) absolute_place
    rw [taken] at source_checked
    rw [← destination, placed] at destination_checked
    have shadows := checkDestination_shadows (parse_written (sides request.1).2) absolute_place destination_checked
    unfold Safe Clear
    rw [taken, ← destination, placed, real, requested, shadows]
    have denied : rootOf request.2 = .single → ¬ Denied (components request.2) := fun single =>
      checkSource_denied (parse_written request.2) single source_checked
    constructor
    · intro ⟨_, _, not_shadows, not_denied⟩
      exact ⟨plain, fun both => not_denied both.2, not_shadows⟩
    · intro ⟨_, single_or, not_shadows⟩
      refine ⟨rfl, rfl, not_shadows, fun is_denied => ?_⟩
      cases root : rootOf request.2 with
      | relative => exact absolute root
      | single => exact denied root is_denied
      | double => exact single_or ⟨root, is_denied⟩

/-! ### All requests -/

theorem mapError_ok {ε ε' α : Type} {f : ε → ε'} {x : Except ε α} {a : α} : x.mapError f = .ok a ↔ x = .ok a := by
  cases x <;> simp [Except.mapError]

/-- A revalidated bind is mounted as it was validated. -/
theorem revalidate_ok {source text : Text} {declared : Text × Text} (done : revalidate source declared = .ok text) :
    ∃ mount, sshRuntimeBind (source ++ '=' :: declared.2) = .ok mount ∧ sshRuntimeBind text = .ok mount := by
  unfold revalidate at done
  cases here : sshRuntimeBind (source ++ '=' :: declared.2) with
  | error error =>
      rw [here] at done
      cases done
  | ok mount =>
      rw [here] at done
      cases done
      exact ⟨mount, rfl, (sshRuntimeBind_again here).2⟩

theorem requests_mounted {runtimeBinds resolved validated : List Text} {parsed : List (Text × Text)}
    (declared : List.Forall₂ (fun value bind_ => sshRuntimeBind value = .ok bind_) runtimeBinds parsed)
    (length : resolved.length = parsed.length)
    (done : List.Forall₂ (fun pair text => revalidate pair.1 pair.2 = .ok text) (resolved.zip parsed) validated) :
    ∃ mounts, sshBwrapBinds validated = .ok mounts ∧ List.Forall₂ Accepted (runtimeBinds.zip resolved) mounts := by
  induction declared generalizing resolved validated with
  | nil =>
      rw [List.zip_nil_right] at done
      cases done
      exact ⟨[], rfl, .nil⟩
  | @cons value bind_ runtimeBinds parsed first rest ih =>
      obtain ⟨source, resolved, rfl⟩ := List.exists_cons_of_length_eq_add_one length
      rw [List.zip_cons_cons] at done
      obtain ⟨text, texts, here, later, rfl⟩ := List.forall₂_cons_left_iff.mp done
      obtain ⟨mount, accepted, again⟩ := revalidate_ok here
      obtain ⟨mounts, mounted, all⟩ := ih (Nat.succ.inj length) later
      refine ⟨mount :: mounts, ?_, .cons ⟨bind_, first, accepted⟩ all⟩
      unfold sshBwrapBinds at mounted ⊢
      rw [List.mapM_cons, again, mounted]
      rfl

theorem accepted_mounted {runtimeBinds resolved validated : List Text}
    (accepted : resolveSshRuntimeBinds runtimeBinds resolved = .ok validated) :
    ∃ mounts, sshBwrapBinds validated = .ok mounts ∧ List.Forall₂ Accepted (runtimeBinds.zip resolved) mounts := by
  unfold resolveSshRuntimeBinds at accepted
  obtain ⟨parsed, declared, accepted⟩ := (bind_ok_iff _ _ _).mp accepted
  have declared := (mapM_ok_iff _ _ _).mp declared
  have declared : List.Forall₂ (fun value bind_ => sshRuntimeBind value = .ok bind_) runtimeBinds parsed :=
    declared.imp fun _ _ here => mapError_ok.mp here
  split at accepted
  · rename_i empty
    rw [empty] at declared
    cases declared
    cases accepted
    exact ⟨[], rfl, .nil⟩
  · split at accepted
    · cases accepted
    · rename_i length
      exact requests_mounted declared (not_not.mp length) ((mapM_ok_iff _ _ _).mp accepted)

/-- Every mount is among the arguments. -/
theorem mem_mountArgs {mounts : List (Text × Text)} {mount : Text × Text} (member : mount ∈ mounts) (created : List Text) :
    ["--ro-bind".toList, mount.1, mount.2] <:+: mountArgs mounts created := by
  induction mounts generalizing created with
  | nil => cases member
  | cons first mounts ih =>
      obtain ⟨source, destination⟩ := first
      rw [mountArgs]
      rcases List.mem_cons.mp member with rfl | later
      · exact ⟨_, _, rfl⟩
      · exact (ih later _).trans (List.suffix_append _ _).isInfix

/-- Of accepted binds, each mounts its own source at its own place and nothing reserved is shadowed, exactly where no real path
has a separator in it and no double slash hides a path that is refused with a single one. -/
theorem binds_safe_iff (runtimeBinds resolved validated : List Text)
    (accepted : resolveSshRuntimeBinds runtimeBinds resolved = .ok validated) :
    (∃ mounts, sshBwrapBinds validated = .ok mounts ∧ List.Forall₂ Safe (runtimeBinds.zip resolved) mounts ∧
      ∀ mount ∈ mounts, ["--ro-bind".toList, mount.1, mount.2] <:+: mountArgs mounts []) ↔
      ∀ request ∈ runtimeBinds.zip resolved, Clear request := by
  obtain ⟨mounts, mounted, all⟩ := accepted_mounted accepted
  constructor
  · intro ⟨others, mounted', safe, _⟩ request member
    rw [mounted, Except.ok.injEq] at mounted'
    rw [← mounted'] at safe
    obtain ⟨mount, -, here, safe_here⟩ := forall₂_mem_left (forall₂_and all safe) request member
    exact (safe_iff here).mp safe_here
  · intro clear
    refine ⟨mounts, mounted, forall₂_imp_mem all fun request member mount here => (safe_iff here).mpr (clear request member),
      fun mount member => mem_mountArgs member []⟩

/-- A bind of a virtual environment. -/
def venv : Text := "/opt/venv".toList

theorem binds_safe_iff_venv : ∃ validated, resolveSshRuntimeBinds [venv] [venv] = .ok validated ∧
    ∃ mounts, sshBwrapBinds validated = .ok mounts ∧ List.Forall₂ Safe [(venv, venv)] mounts := by
  have accepted : resolveSshRuntimeBinds [venv] [venv] = .ok ["/opt/venv=/opt/venv".toList] := by rfl
  obtain ⟨mounts, mounted, safe, -⟩ := (binds_safe_iff [venv] [venv] _ accepted).mpr (by decide)
  exact ⟨_, accepted, mounts, mounted, safe⟩

/-- A double slash hides `/home`, and a separator in a real path moves the bind elsewhere. -/
theorem bind_shadows_home : ¬ ∀ (runtimeBinds resolved validated : List Text),
    resolveSshRuntimeBinds runtimeBinds resolved = .ok validated →
      ∃ mounts, sshBwrapBinds validated = .ok mounts ∧ List.Forall₂ Safe (runtimeBinds.zip resolved) mounts := by
  intro always
  have accepted : resolveSshRuntimeBinds ["/opt/venv=//home".toList] [venv] = .ok ["/opt/venv=//home".toList] := by rfl
  obtain ⟨mounts, mounted, safe⟩ := always _ _ _ accepted
  have same : sshBwrapBinds ["/opt/venv=//home".toList] = .ok [(venv, "//home".toList)] := by rfl
  rw [same, Except.ok.injEq] at mounted
  rw [← mounted] at safe
  obtain ⟨-, -, here, -⟩ := (List.forall₂_cons.mp safe).1
  exact here (by decide)

end AtrexAgent.RuntimeBinds
