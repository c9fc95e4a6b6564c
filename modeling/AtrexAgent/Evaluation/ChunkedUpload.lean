import AtrexAgent.Library.Numerals

/-! The bundles of a sandbox job: how they are cut into files, and how the remote runner puts them together again. -/

namespace AtrexAgent.ChunkedUpload

open AtrexAgent.Numerals

def RUNTIME_CHUNK_BYTES : Nat := 20 * 1024

def WORKSPACE_CHUNK_BYTES : Nat := 20 * 1024

def OSS_WORKSPACE_THRESHOLD_BYTES : Nat := 120 * 1024

/-- The limit of a direct gateway request. -/
def DIRECT_LIMIT_BYTES : Nat := 20 * 1024 * 1024

/-- How a job is sent: over ssh, by the gateway's own HTTP interface, or by the agate executable, to a standard profile or
another gateway. -/
inductive Target where
  | ssh | direct | agate (standard : Bool)
  deriving DecidableEq, Repr

structure File where
  name : String
  content : List Char
  deriving DecidableEq, Repr

/-- The files of a job beside its bundles. -/
structure Job where
  command : List Char
  collector : List Char
  outputs : List Char
  runner : List Char

def jobFiles (job : Job) : List File :=
  [⟨"__atrex_command.sh", job.command⟩, ⟨"__atrex_collect.py", job.collector⟩, ⟨"__atrex_outputs.json", job.outputs⟩,
    ⟨"__atrex_runner.sh", job.runner⟩]

/-- The name of a bundle, with the number of a part in at least three digits. -/
def partName (bundle : String) (index : Nat) : String := bundle ++ ".part" ++ String.ofList (padded 3 index)

/-- `bundle[offset : offset + size]` for the offset of an index -/
def slice (size : Nat) (bundle : List Char) (index : Nat) : List Char := (bundle.drop (index * size)).take size

/-- How many offsets `range(0, len(bundle), size)` has. -/
def count (size : Nat) (bundle : List Char) : Nat := (bundle.length + (size - 1)) / size

def part (name : String) (size : Nat) (bundle : List Char) (index : Nat) : File := ⟨partName name index, slice size bundle index⟩

def partFiles (name : String) (size : Nat) (bundle : List Char) : List File :=
  (List.range (count size bundle)).map (part name size bundle)

def WORKSPACE : String := "__atrex_workspace.tar.gz.b64"

def RUNTIME : String := "__atrex_bench_runtime.tar.gz.b64"

def ossWorkspace (target : Target) (bundle : List Char) : Prop :=
  target = .agate true ∧ OSS_WORKSPACE_THRESHOLD_BYTES < bundle.length

instance (target : Target) (bundle : List Char) : Decidable (ossWorkspace target bundle) :=
  inferInstanceAs (Decidable (_ ∧ _))

/-- The workspace is cut into parts. -/
def Cut (target : Target) (bundle : List Char) : Prop :=
  target ≠ .ssh ∧ ¬ ossWorkspace target bundle ∧ WORKSPACE_CHUNK_BYTES < bundle.length

instance (target : Target) (bundle : List Char) : Decidable (Cut target bundle) := inferInstanceAs (Decidable (_ ∧ _))

def workspaceFiles (target : Target) (bundle : List Char) : List File :=
  if Cut target bundle then
    partFiles WORKSPACE WORKSPACE_CHUNK_BYTES bundle
  else [⟨WORKSPACE, bundle⟩]

def runtimeFiles (target : Target) (bundle : List Char) : List File :=
  if bundle = [] then []
  else partFiles RUNTIME (if target = .ssh then bundle.length else RUNTIME_CHUNK_BYTES) bundle

/-- The files that are sent, or nothing where the workspace exceeds the limit; no runtime is an empty one. -/
def uploads (target : Target) (workspace runtime : List Char) (job : Job) : Option (List File) :=
  if target = .direct ∧ DIRECT_LIMIT_BYTES < workspace.length then none
  else some (jobFiles job ++ (runtimeFiles target runtime ++ workspaceFiles target workspace))

/-! ### The remote runner -/

/-- The files that a glob `beginning*` expands to, in the order of their names. -/
def glob (beginning : String) (files : List File) : List File :=
  (files.filter fun file => beginning.toList.isPrefixOf file.name.toList).mergeSort fun file file' => file.name ≤ file'.name

def cat (files : List File) : List Char := files.flatMap fun file => file.content

/-- What the runner decodes as the workspace. -/
def workspaceText (files : List File) : Option (List Char) :=
  if glob (WORKSPACE ++ ".part") files ≠ [] then some (cat (glob (WORKSPACE ++ ".part") files))
  else (files.find? fun file => file.name = WORKSPACE).map fun file => file.content

/-- What the runner decodes as the runtime; nothing where there are no parts. -/
def runtimeText (files : List File) : Option (List Char) :=
  if glob (RUNTIME ++ ".part") files ≠ [] then some (cat (glob (RUNTIME ++ ".part") files)) else none

/-! ### The parts in their order -/

variable {size : Nat} {bundle : List Char} {name : String}

theorem slices (size : Nat) (bundle : List Char) (k : Nat) :
    (List.range k).flatMap (slice size bundle) = bundle.take (k * size) := by
  induction k with
  | zero => simp
  | succ k ih =>
      rw [List.range_succ, List.flatMap_append, ih, List.flatMap_singleton, slice, Nat.succ_mul, List.take_add]

theorem length_le_count (positive : 0 < size) (bundle : List Char) : bundle.length ≤ count size bundle * size := by
  have quotient := Nat.div_add_mod (bundle.length + (size - 1)) size
  have remainder := Nat.mod_lt (bundle.length + (size - 1)) positive
  rw [count, mul_comm]
  omega

theorem count_le_iff (positive : 0 < size) (bundle : List Char) (k : Nat) :
    count size bundle ≤ k ↔ bundle.length ≤ k * size := by
  rw [count, ← Nat.lt_succ_iff, Nat.div_lt_iff_lt_mul positive, Nat.succ_mul]
  omega

theorem cat_parts (positive : 0 < size) (name : String) (bundle : List Char) :
    cat (partFiles name size bundle) = bundle := by
  rw [cat, partFiles, List.flatMap_map]
  exact (slices size bundle _).trans (List.take_of_length_le (length_le_count positive bundle))

theorem partName_toList (name : String) (index : Nat) :
    (partName name index).toList = (name ++ ".part").toList ++ padded 3 index := by
  rw [partName, String.toList_append, String.toList_ofList]

theorem partName_le_iff (name : String) (i j : Nat) : partName name i ≤ partName name j ↔ padded 3 i ≤ padded 3 j := by
  rw [String.le_iff_toList_le, partName_toList, partName_toList, append_le_append_iff]

theorem partName_injective (name : String) : Function.Injective (partName name) := by
  intro i j same
  apply padded_injective 3
  apply le_antisymm
  · rw [← partName_le_iff name, same]
  · rw [← partName_le_iff name, same]

theorem part_before {i j : Nat} (less : i ≤ j) (bound : j < 1000) : partName name i ≤ partName name j := by
  rw [partName_le_iff]
  exact padded_le less bound

/-- The parts that are beyond the width come after the first hundred and one. -/
theorem part_before_wide {i j : Nat} (early : i ≤ 100) (wide : 1000 ≤ j) : partName name i ≤ partName name j := by
  rw [partName_le_iff]
  calc padded 3 i
      ≤ padded 3 100 := padded_le early (by decide)
    _ ≤ decimal 1000 := le_append ['1', '0', '0'] ['0']
    _ ≤ padded 3 j := by
        rw [padded_wide wide]
        exact decimal_power_le 3 (by decide) wide

theorem part_thousand_before {j : Nat} (late : 100 < j) : partName name 1000 ≤ partName name j := by
  rw [partName_le_iff]
  rcases Nat.lt_or_ge j 1000 with bound | wide
  · exact (decimal_power_lt 2 (by decide) late bound).le
  · have thousand : padded 3 1000 = decimal 1000 := rfl
    rw [thousand, padded_wide wide]
    exact decimal_power_le 3 (by decide) wide

/-! ### What the runner finds -/

/-- The indices of parts, in the order of their names. -/
def inOrder (name : String) (indices : List Nat) : List Nat := indices.mergeSort fun i j => partName name i ≤ partName name j

theorem inOrder_narrow {k : Nat} (narrow : k ≤ 1000) : inOrder name (List.range k) = List.range k := by
  apply List.mergeSort_of_pairwise
  apply List.pairwise_lt_range.imp_of_mem
  intro i j _ inside less
  rw [List.mem_range] at inside
  exact decide_eq_true (part_before less.le (by omega))

/-- The indices after the hundredth, without the thousandth. -/
def others (k : Nat) : List Nat := List.range' 101 899 ++ List.range' 1001 (k - 1001)

theorem range_pieces {a b k : Nat} (first : a ≤ b) (next : b < k) :
    List.range k = List.range a ++ (List.range' a (b - a) ++ b :: List.range' (b + 1) (k - (b + 1))) := by
  obtain ⟨middle, rfl⟩ := Nat.exists_eq_add_of_le first
  obtain ⟨more, rfl⟩ := Nat.exists_eq_add_of_lt next
  have rest : a + middle + more + 1 - (a + middle + 1) = more := by omega
  rw [rest, Nat.add_sub_cancel_left, ← List.range'_succ, List.range_eq_range', List.range_eq_range', List.range'_append_1]
  simpa [Nat.add_assoc] using (List.range'_append_1 (s := 0) (m := a) (n := middle + (more + 1))).symm

theorem range_split {k : Nat} (wide : 1000 < k) : (List.range k).Perm (List.range 101 ++ 1000 :: others k) := by
  rw [range_pieces (a := 101) (b := 1000) (by decide) wide]
  exact List.Perm.append_left _ List.perm_middle

theorem mem_others {k j : Nat} (member : j ∈ others k) : 100 < j ∧ j ≠ 1000 := by
  simp only [others, List.mem_append, List.mem_range'_1] at member
  omega

theorem inOrder_pairwise (name : String) (indices : List Nat) :
    (inOrder name indices).Pairwise fun i j => partName name i ≤ partName name j := by
  have sorted : (inOrder name indices).Pairwise fun i j => decide (partName name i ≤ partName name j) = true :=
    List.pairwise_mergeSort (fun i j k first second => by simpa using le_trans (of_decide_eq_true first) (of_decide_eq_true second))
      (fun i j => by simpa using le_total (partName name i) (partName name j)) indices
  exact sorted.imp fun before => of_decide_eq_true before

/-- With more than a thousand parts, the thousandth comes right after the hundredth. -/
theorem inOrder_wide {k : Nat} (wide : 1000 < k) :
    inOrder name (List.range k) = List.range 101 ++ 1000 :: inOrder name (others k) := by
  have perm : (inOrder name (List.range k)).Perm (List.range 101 ++ 1000 :: inOrder name (others k)) :=
    calc inOrder name (List.range k)
        |>.Perm (List.range k) := List.mergeSort_perm _ _
      _ |>.Perm (List.range 101 ++ 1000 :: others k) := range_split wide
      _ |>.Perm (List.range 101 ++ 1000 :: inOrder name (others k)) :=
        (((List.mergeSort_perm _ _).symm.cons 1000).append_left _)
  refine List.Perm.eq_of_pairwise ?_ (inOrder_pairwise name _) ?_ perm
  · exact fun i j _ _ first second => partName_injective name (le_antisymm first second)
  · have late {j : Nat} (member : j ∈ inOrder name (others k)) : 100 < j := by
      rw [inOrder, List.mem_mergeSort] at member
      exact (mem_others member).1
    rw [List.pairwise_append, List.pairwise_cons]
    refine ⟨?_, ⟨fun j member => part_thousand_before (late member), inOrder_pairwise name _⟩, ?_⟩
    · apply List.pairwise_lt_range.imp_of_mem
      intro i j _ inside less
      rw [List.mem_range] at inside
      exact part_before less.le (by omega)
    · intro i early j member
      rw [List.mem_range] at early
      rcases List.mem_cons.mp member with rfl | member
      · exact part_before_wide (by omega) le_rfl
      · have after := late member
        rcases Nat.lt_or_ge j 1000 with bound | beyond
        · exact part_before (by omega) bound
        · exact part_before_wide (by omega) beyond

theorem prefix_part (name : String) (index : Nat) :
    ((name ++ ".part").toList.isPrefixOf (partName name index).toList) = true := by
  rw [partName_toList, List.isPrefixOf_iff_prefix]
  exact List.prefix_append _ _

/-- The parts of a bundle, in the order of their names. -/
def received (name : String) (size : Nat) (bundle : List Char) : List File :=
  (inOrder name (List.range (count size bundle))).map (part name size bundle)

theorem glob_parts (name : String) (size : Nat) (bundle : List Char) (before after : List File)
    (apart : ∀ file ∈ before ++ after, (name ++ ".part").toList.isPrefixOf file.name.toList = false) :
    glob (name ++ ".part") (before ++ (partFiles name size bundle ++ after)) = received name size bundle := by
  have none_of {files : List File} (inside : ∀ file ∈ files, file ∈ before ++ after) :
      (files.filter fun file => (name ++ ".part").toList.isPrefixOf file.name.toList) = [] := by
    rw [List.filter_eq_nil_iff]
    intro file member
    rw [apart file (inside file member)]
    exact Bool.false_ne_true
  have all : ((partFiles name size bundle).filter fun file => (name ++ ".part").toList.isPrefixOf file.name.toList) =
      partFiles name size bundle := by
    rw [List.filter_eq_self]
    intro file member
    obtain ⟨index, -, rfl⟩ := List.mem_map.mp member
    exact prefix_part name index
  rw [glob, List.filter_append, List.filter_append, all, none_of fun file => List.mem_append_left _,
    none_of fun file => List.mem_append_right _, List.nil_append, List.append_nil, received, inOrder, partFiles]
  exact (List.map_mergeSort (f := part name size bundle) fun i _ j _ => rfl).symm

theorem glob_none (beginning : String) {files : List File}
    (apart : ∀ file ∈ files, beginning.toList.isPrefixOf file.name.toList = false) : glob beginning files = [] := by
  have none_left : (files.filter fun file => beginning.toList.isPrefixOf file.name.toList) = [] := by
    rw [List.filter_eq_nil_iff]
    intro file member
    rw [apart file member]
    exact Bool.false_ne_true
  rw [glob, none_left, List.mergeSort_nil]

theorem cat_received (name : String) (size : Nat) (bundle : List Char) :
    cat (received name size bundle) = (inOrder name (List.range (count size bundle))).flatMap (slice size bundle) := by
  rw [cat, received, List.flatMap_map]
  rfl

/-- Up to a thousand parts are put together in their order. -/
theorem cat_narrow (positive : 0 < size) (narrow : bundle.length ≤ 1000 * size) : cat (received name size bundle) = bundle := by
  rw [cat_received, inOrder_narrow ((count_le_iff positive bundle 1000).mpr narrow), slices]
  exact List.take_of_length_le (length_le_count positive bundle)

/-- Of more parts, the thousandth takes the place of the hundred and first. -/
theorem cat_wide (name : String) (positive : 0 < size) (wide : 1000 * size < bundle.length) : ∃ more,
    cat (received name size bundle) = bundle.take (101 * size) ++ (slice size bundle 1000 ++ more) := by
  have beyond : 1000 < count size bundle := by
    rw [← not_le, count_le_iff positive]
    exact not_le.mpr wide
  refine ⟨(inOrder name (others (count size bundle))).flatMap (slice size bundle), ?_⟩
  rw [cat_received, inOrder_wide beyond, List.flatMap_append, slices, List.flatMap_cons]

/-- A bundle of more parts is garbled unless the text of the thousandth is also that after the hundredth. -/
theorem garbled (positive : 0 < size) (wide : 1000 * size < bundle.length)
    (differs : ¬ (bundle.drop (1000 * size)).take size <+: bundle.drop (101 * size)) :
    cat (received name size bundle) ≠ bundle := by
  obtain ⟨more, text⟩ := cat_wide name positive wide
  intro same
  rw [text] at same
  apply differs
  refine ⟨more, ?_⟩
  have split_text := List.take_append_drop (101 * size) bundle
  exact List.append_cancel_left (same.trans split_text.symm)

/-! ### The files of a job -/

/-- A text with another letter at some place. -/
theorem not_prefix_at {beginning text : List Char} {place : Nat} (inside : place < beginning.length)
    (differs : beginning[place]? ≠ text[place]?) : beginning.isPrefixOf text = false := by
  rw [← Bool.not_eq_true, List.isPrefixOf_iff_prefix]
  rintro ⟨rest, rfl⟩
  exact differs (List.getElem?_append_left inside).symm

theorem jobFiles_apart {job : Job} {file : File} (member : file ∈ jobFiles job) :
    (WORKSPACE ++ ".part").toList.isPrefixOf file.name.toList = false ∧
      (RUNTIME ++ ".part").toList.isPrefixOf file.name.toList = false := by
  simp only [jobFiles, List.mem_cons, List.not_mem_nil, or_false] at member
  rcases member with rfl | rfl | rfl | rfl <;> dsimp only <;> decide

theorem parts_apart {name other : String} (inside : 8 < (name ++ ".part").toList.length)
    (inside' : 8 < (other ++ ".part").toList.length)
    (differs : (name ++ ".part").toList[8]? ≠ (other ++ ".part").toList[8]?) {size : Nat} {bundle : List Char} {file : File}
    (member : file ∈ partFiles other size bundle) : (name ++ ".part").toList.isPrefixOf file.name.toList = false := by
  obtain ⟨index, -, rfl⟩ := List.mem_map.mp member
  apply not_prefix_at inside
  rw [part, partName_toList, List.getElem?_append_left inside']
  exact differs

theorem runtimeFiles_apart {target : Target} {bundle : List Char} {file : File} (member : file ∈ runtimeFiles target bundle) :
    (WORKSPACE ++ ".part").toList.isPrefixOf file.name.toList = false := by
  unfold runtimeFiles at member
  split at member
  · cases member
  · exact parts_apart (by decide) (by decide) (by decide) member

theorem workspaceFiles_apart {target : Target} {bundle : List Char} {file : File}
    (member : file ∈ workspaceFiles target bundle) : (RUNTIME ++ ".part").toList.isPrefixOf file.name.toList = false := by
  unfold workspaceFiles at member
  split at member
  · exact parts_apart (by decide) (by decide) (by decide) member
  · rw [List.mem_singleton] at member
    subst member
    dsimp only
    decide

theorem not_workspace {target : Target} {runtime : List Char} {job : Job} {file : File}
    (member : file ∈ jobFiles job ++ runtimeFiles target runtime) : file.name ≠ WORKSPACE := by
  rcases List.mem_append.mp member with of_job | of_runtime
  · simp only [jobFiles, List.mem_cons, List.not_mem_nil, or_false] at of_job
    rcases of_job with rfl | rfl | rfl | rfl <;> dsimp only <;> decide
  · unfold runtimeFiles at of_runtime
    split at of_runtime
    · cases of_runtime
    · obtain ⟨index, -, rfl⟩ := List.mem_map.mp of_runtime
      intro same
      have letter : (partName RUNTIME index).toList[8]? = WORKSPACE.toList[8]? := by rw [← same, part]
      rw [partName_toList, List.getElem?_append_left (by decide)] at letter
      exact absurd letter (by decide)

theorem count_pos (positive : 0 < size) (some_text : bundle ≠ []) : 0 < count size bundle := by
  rw [← not_le, count_le_iff positive, Nat.zero_mul, Nat.le_zero]
  exact fun empty => some_text (List.length_eq_zero_iff.mp empty)

theorem received_ne_nil (positive : 0 < size) (some_text : bundle ≠ []) : received name size bundle ≠ [] := by
  have parts := count_pos positive some_text
  rw [received, inOrder, ne_eq, List.map_eq_nil_iff, ← List.length_eq_zero_iff, List.length_mergeSort, List.length_range]
  omega

variable {target : Target} {workspace runtime : List Char} {job : Job} {files : List File}

theorem uploads_files (sent : uploads target workspace runtime job = some files) :
    files = jobFiles job ++ (runtimeFiles target runtime ++ workspaceFiles target workspace) := by
  unfold uploads at sent
  split at sent
  · cases sent
  · exact (Option.some.inj sent).symm

theorem workspaceText_cut (sent : uploads target workspace runtime job = some files) (cut : Cut target workspace) :
    workspaceText files = some (cat (received WORKSPACE WORKSPACE_CHUNK_BYTES workspace)) := by
  have apart : ∀ file ∈ (jobFiles job ++ runtimeFiles target runtime) ++ [],
      (WORKSPACE ++ ".part").toList.isPrefixOf file.name.toList = false := by
    intro file member
    rw [List.append_nil] at member
    rcases List.mem_append.mp member with of_job | of_runtime
    · exact (jobFiles_apart of_job).1
    · exact runtimeFiles_apart of_runtime
  have found := glob_parts WORKSPACE WORKSPACE_CHUNK_BYTES workspace _ [] apart
  rw [List.append_nil, List.append_assoc] at found
  have some_text : workspace ≠ [] := by
    intro empty
    have long := cut.2.2
    rw [empty] at long
    exact Nat.not_lt_zero _ long
  rw [uploads_files sent, workspaceFiles, if_pos cut, workspaceText, found, if_pos]
  exact received_ne_nil (by decide) some_text

theorem workspaceText_whole (sent : uploads target workspace runtime job = some files) (whole : ¬ Cut target workspace) :
    workspaceText files = some workspace := by
  have apart : ∀ file ∈ jobFiles job ++ (runtimeFiles target runtime ++ [⟨WORKSPACE, workspace⟩]),
      (WORKSPACE ++ ".part").toList.isPrefixOf file.name.toList = false := by
    intro file member
    rw [← List.append_assoc, List.mem_append, List.mem_append, List.mem_singleton] at member
    rcases member with (of_job | of_runtime) | rfl
    · exact (jobFiles_apart of_job).1
    · exact runtimeFiles_apart of_runtime
    · dsimp only
      decide
  have single : (jobFiles job ++ runtimeFiles target runtime).find? (fun file => file.name = WORKSPACE) = none := by
    rw [List.find?_eq_none]
    intro file member
    simpa using not_workspace member
  rw [uploads_files sent, workspaceFiles, if_neg whole, workspaceText, glob_none _ apart, if_neg (by simp),
    ← List.append_assoc, List.find?_append, single]
  simp

theorem runtimeText_parts (sent : uploads target workspace runtime job = some files) (some_text : runtime ≠ []) :
    runtimeText files =
      some (cat (received RUNTIME (if target = .ssh then runtime.length else RUNTIME_CHUNK_BYTES) runtime)) := by
  have apart : ∀ file ∈ jobFiles job ++ workspaceFiles target workspace,
      (RUNTIME ++ ".part").toList.isPrefixOf file.name.toList = false := by
    intro file member
    rcases List.mem_append.mp member with of_job | of_workspace
    · exact (jobFiles_apart of_job).2
    · exact workspaceFiles_apart of_workspace
  have positive : 0 < if target = .ssh then runtime.length else RUNTIME_CHUNK_BYTES := by
    split
    · exact List.length_pos_iff.mpr some_text
    · decide
  rw [uploads_files sent, runtimeFiles, if_neg some_text, runtimeText, glob_parts RUNTIME _ runtime _ _ apart, if_pos]
  exact received_ne_nil positive some_text

/-! ### Which bundles arrive -/

/-- The letters of base64. -/
def LETTERS : List Char := "ABCDEFGHIJKLMNOPQRSTUVWXYZabcdefghijklmnopqrstuvwxyz0123456789+/".toList

structure IsBase64 (text : List Char) : Prop where
  quads : 4 ∣ text.length
  letters : ∃ body fill, fill ≤ 2 ∧ text = body ++ List.replicate fill '=' ∧ ∀ letter ∈ body, letter ∈ LETTERS

/-- The lengths of a workspace that arrives as it is, or is refused. -/
def WorkspaceKept (target : Target) (length : Nat) : Prop :=
  target = .ssh ∨ target = .agate true ∨ length ≤ 1000 * WORKSPACE_CHUNK_BYTES ∨
    (target = .direct ∧ DIRECT_LIMIT_BYTES < length)

def RuntimeKept (target : Target) (length : Nat) : Prop := target = .ssh ∨ length ≤ 1000 * RUNTIME_CHUNK_BYTES

/-- The part after the thousandth is not what follows the hundred and first. -/
def Garbled (size : Nat) (bundle : List Char) : Prop :=
  ¬ (bundle.drop (1000 * size)).take size <+: bundle.drop (101 * size)

theorem cut_narrow (kept : WorkspaceKept target workspace.length) (sent : uploads target workspace runtime job = some files)
    (cut : Cut target workspace) : workspace.length ≤ 1000 * WORKSPACE_CHUNK_BYTES := by
  obtain ⟨remote, inline, -⟩ := cut
  rcases kept with ssh | standard | narrow | ⟨direct, refused⟩
  · exact absurd ssh remote
  · have small : workspace.length ≤ OSS_WORKSPACE_THRESHOLD_BYTES := by
      by_contra large
      exact inline ⟨standard, not_le.mp large⟩
    exact small.trans (by decide)
  · exact narrow
  · rw [uploads, if_pos ⟨direct, refused⟩] at sent
    cases sent

theorem workspace_arrives (kept : WorkspaceKept target workspace.length)
    (sent : uploads target workspace runtime job = some files) : workspaceText files = some workspace := by
  by_cases cut : Cut target workspace
  · rw [workspaceText_cut sent cut, cat_narrow (by decide) (cut_narrow kept sent cut)]
  · exact workspaceText_whole sent cut

theorem not_kept_cut (long : ¬ WorkspaceKept target workspace.length) : Cut target workspace := by
  simp only [WorkspaceKept, not_or, not_le] at long
  obtain ⟨remote, custom, wide, -⟩ := long
  exact ⟨remote, fun oss => custom oss.1, lt_trans (by decide) wide⟩

theorem workspace_garbled (long : ¬ WorkspaceKept target workspace.length) (garble : Garbled WORKSPACE_CHUNK_BYTES workspace)
    (sent : uploads target workspace runtime job = some files) : workspaceText files ≠ some workspace := by
  have wide : 1000 * WORKSPACE_CHUNK_BYTES < workspace.length := by
    simp only [WorkspaceKept, not_or, not_le] at long
    exact long.2.2.1
  rw [workspaceText_cut sent (not_kept_cut long)]
  intro same
  exact garbled (by decide) wide garble (Option.some.inj same)

theorem runtime_arrives (kept : RuntimeKept target runtime.length) (sent : uploads target workspace runtime job = some files) :
    (runtimeText files).getD [] = runtime := by
  by_cases some_text : runtime = []
  · have apart : ∀ file ∈ jobFiles job ++ workspaceFiles target workspace,
        (RUNTIME ++ ".part").toList.isPrefixOf file.name.toList = false := by
      intro file member
      rcases List.mem_append.mp member with of_job | of_workspace
      · exact (jobFiles_apart of_job).2
      · exact workspaceFiles_apart of_workspace
    rw [uploads_files sent, runtimeFiles, if_pos some_text, List.nil_append, runtimeText, glob_none _ apart, some_text]
    rfl
  · rw [runtimeText_parts sent some_text, Option.getD_some]
    have long := List.length_pos_iff.mpr some_text
    rcases kept with ssh | narrow
    · rw [if_pos ssh]
      exact cat_narrow long (Nat.le_mul_of_pos_left _ (by decide))
    · split
      · exact cat_narrow long (Nat.le_mul_of_pos_left _ (by decide))
      · exact cat_narrow (by decide) narrow

theorem runtime_garbled (long : ¬ RuntimeKept target runtime.length) (garble : Garbled RUNTIME_CHUNK_BYTES runtime)
    (sent : uploads target workspace runtime job = some files) : (runtimeText files).getD [] ≠ runtime := by
  simp only [RuntimeKept, not_or, not_le] at long
  obtain ⟨remote, wide⟩ := long
  have some_text : runtime ≠ [] := by
    intro empty
    rw [empty] at wide
    exact Nat.not_lt_zero _ wide
  rw [runtimeText_parts sent some_text, if_neg remote, Option.getD_some]
  exact garbled (by decide) wide garble

/-- A text of one letter, with another one at a place. -/
def oddText (place length : Nat) : List Char := List.replicate place 'A' ++ 'B' :: List.replicate (length - (place + 1)) 'A'

theorem oddText_length {place length : Nat} (inside : place < length) : (oddText place length).length = length := by
  rw [oddText, List.length_append, List.length_cons, List.length_replicate, List.length_replicate]
  omega

theorem oddText_base64 {place quads : Nat} (inside : place < 4 * quads) : IsBase64 (oddText place (4 * quads)) := by
  refine ⟨⟨quads, oddText_length inside⟩, oddText place (4 * quads), 0, by decide, (List.append_nil _).symm, ?_⟩
  intro letter member
  rw [oddText, List.mem_append, List.mem_cons, List.mem_replicate, List.mem_replicate] at member
  rcases member with ⟨-, rfl⟩ | rfl | ⟨-, rfl⟩ <;> decide

theorem oddText_differs {place late size length : Nat} (positive : 0 < size) (after : place < late) (inside : late < length) :
    ¬ ((oddText place length).drop late).take size <+: (oddText place length).drop place := by
  have found : (oddText place length).drop place = 'B' :: List.replicate (length - (place + 1)) 'A' :=
    List.drop_left' List.length_replicate
  have sent : (((oddText place length).drop late).take size)[0]? = some 'A' := by
    rw [List.getElem?_take_of_lt positive, List.getElem?_drop, oddText,
      List.getElem?_append_right (by rw [List.length_replicate]; omega), List.length_replicate]
    obtain ⟨more, rfl⟩ := Nat.exists_eq_add_of_lt after
    rw [show place + more + 1 + 0 - place = more + 1 by omega, List.getElem?_cons_succ, List.getElem?_replicate]
    exact if_pos (by omega)
  rintro ⟨rest, same⟩
  have first : (((oddText place length).drop late).take size ++ rest)[0]? = some 'A' := by
    rw [List.getElem?_append_left ((List.getElem?_eq_some_iff.mp sent).1), sent]
  rw [same, found, List.getElem?_cons_zero] at first
  exact absurd (Option.some.inj first) (by decide)

theorem oddText_garbled {size length : Nat} (positive : 0 < size) (wide : 1000 * size < length) :
    Garbled size (oddText (101 * size) length) :=
  oddText_differs positive (Nat.mul_lt_mul_of_pos_right (by decide) positive) wide

theorem uploads_some (kept : ¬ (target = .direct ∧ DIRECT_LIMIT_BYTES < workspace.length)) (runtime : List Char) (job : Job) :
    ∃ files, uploads target workspace runtime job = some files := by
  rw [uploads, if_neg kept]
  exact ⟨_, rfl⟩

def emptyJob : Job := ⟨[], [], [], []⟩

/-- Bundles of a length all arrive as they are exactly where they are sent in one piece or in a thousand parts at most; a
longer one is garbled as soon as its text differs between the places that the order of names confuses. -/
theorem bundle_arrives_iff (target : Target) (quads : ℕ) :
    ((∀ workspace runtime job files, IsBase64 workspace → workspace.length = 4 * quads →
      uploads target workspace runtime job = some files → workspaceText files = some workspace) ↔
        WorkspaceKept target (4 * quads)) ∧
    ((∀ workspace runtime job files, IsBase64 runtime → runtime.length = 4 * quads →
      uploads target workspace runtime job = some files → (runtimeText files).getD [] = runtime) ↔
        RuntimeKept target (4 * quads)) ∧
    ∀ workspace runtime job files, uploads target workspace runtime job = some files →
      (¬ WorkspaceKept target workspace.length → Garbled WORKSPACE_CHUNK_BYTES workspace →
        workspaceText files ≠ some workspace) ∧
      (¬ RuntimeKept target runtime.length → Garbled RUNTIME_CHUNK_BYTES runtime → (runtimeText files).getD [] ≠ runtime) := by
  refine ⟨⟨fun arrives => ?_, fun kept => ?_⟩, ⟨fun arrives => ?_, fun kept => ?_⟩, ?_⟩
  · by_contra long
    have wide : 1000 * WORKSPACE_CHUNK_BYTES < 4 * quads := by
      simp only [WorkspaceKept, not_or, not_le] at long
      exact long.2.2.1
    have inside : 101 * WORKSPACE_CHUNK_BYTES < 4 * quads := lt_trans (by decide) wide
    have length := oddText_length inside
    rw [← length] at long
    obtain ⟨files, sent⟩ := uploads_some (fun refused => long (.inr (.inr (.inr refused)))) [] emptyJob
    exact workspace_garbled long (oddText_garbled (by decide) wide) sent
      (arrives _ [] emptyJob files (oddText_base64 inside) length sent)
  · intro workspace runtime job files _ length sent
    rw [← length] at kept
    exact workspace_arrives kept sent
  · by_contra long
    have wide : 1000 * RUNTIME_CHUNK_BYTES < 4 * quads := by
      simp only [RuntimeKept, not_or, not_le] at long
      exact long.2
    have inside : 101 * RUNTIME_CHUNK_BYTES < 4 * quads := lt_trans (by decide) wide
    have length := oddText_length inside
    rw [← length] at long
    have empty : ¬ (target = .direct ∧ DIRECT_LIMIT_BYTES < ([] : List Char).length) := fun refused =>
      Nat.not_lt_zero _ refused.2
    obtain ⟨files, sent⟩ := uploads_some empty (oddText (101 * RUNTIME_CHUNK_BYTES) (4 * quads)) emptyJob
    exact runtime_garbled long (oddText_garbled (by decide) wide) sent
      (arrives [] _ emptyJob files (oddText_base64 inside) length sent)
  · intro workspace runtime job files _ length sent
    rw [← length] at kept
    exact runtime_arrives kept sent
  · intro workspace runtime job files sent
    exact ⟨fun long garble => workspace_garbled long garble sent, fun long garble => runtime_garbled long garble sent⟩

/-- A workspace of 1001 parts, of which the hundred and second begins with another letter. -/
def oddWorkspace : List Char := oddText (101 * WORKSPACE_CHUNK_BYTES) (4 * 5125120)

theorem oddWorkspace_base64 : IsBase64 oddWorkspace := oddText_base64 (by decide)

theorem oddWorkspace_long : ¬ WorkspaceKept .direct oddWorkspace.length := by
  rw [oddWorkspace, oddText_length (by decide)]
  simp [WorkspaceKept, WORKSPACE_CHUNK_BYTES, DIRECT_LIMIT_BYTES]

theorem oddWorkspace_sent : ∃ files, uploads .direct oddWorkspace [] emptyJob = some files :=
  uploads_some (fun refused => oddWorkspace_long (.inr (.inr (.inr refused)))) [] emptyJob

theorem bundle_arrives_iff_odd :
    ∃ files, uploads .direct oddWorkspace [] emptyJob = some files ∧ workspaceText files ≠ some oddWorkspace := by
  obtain ⟨files, sent⟩ := oddWorkspace_sent
  exact ⟨files, sent, ((bundle_arrives_iff .direct 0).2.2 oddWorkspace [] emptyJob files sent).1 oddWorkspace_long
    (oddText_garbled (by decide) (by decide))⟩

theorem direct_bundle_garbled : ¬ ∀ target workspace runtime job files, IsBase64 workspace →
    uploads target workspace runtime job = some files → workspaceText files = some workspace := by
  intro arrives
  obtain ⟨files, sent⟩ := oddWorkspace_sent
  exact workspace_garbled oddWorkspace_long (oddText_garbled (by decide) (by decide)) sent
    (arrives .direct oddWorkspace [] emptyJob files oddWorkspace_base64 sent)

end AtrexAgent.ChunkedUpload
