import AtrexAgent.Workspace.Install

/-! The snapshot of a workspace in which a snapshot has been installed. -/

namespace AtrexAgent.Sources

open AtrexAgent.Json

variable {F : Type} [FloatText F] {platform : Platform F} {tree after : FileTree} {chosen : FileSystem}
  {policy : Json F} {earlier files : Files} {source : Bytes}

/-- What is where after an installation. -/
structure Installed (tree after : FileTree) (chosen : FileSystem) (policy : Json F) (earlier files : Files) :
    Prop where
  stored : ∀ file ∈ files, after.node file.1 = some (.file file.2)
  contract : chosen = .sourceTree → after.node POLICY = some (.file (jsonLine policy))
  selection : after.node SELECTION = some (.file (jsonLine (chosen.selection : Json F))) ∨
    after.node SELECTION = none ∧ tree.node SELECTION = none
  others : ∀ n, n ∉ files.map Prod.fst → n ≠ SELECTION → (n = POLICY → chosen ≠ .sourceTree) → after.node n =
    if ∃ name ∈ files.map Prod.fst, n ∈ above name then some .dir
    else if (chosen = .cudaManifest ∧ n = "kernel.py") ∨ n ∈ earlier.map Prod.fst then none else tree.node n

theorem Holds.named (holds : Holds platform tree chosen policy earlier) :
    ∀ name ∈ earlier.map Prod.fst, Named name := by
  obtain ⟨before, packed⟩ := holds.packs
  obtain ⟨⟨⟩, valid, -⟩ := (bind_ok_iff _ _ _).mp packed
  exact validateFiles_named valid

theorem readRegular_none {name : String} : readRegular tree name = .ok none ↔ tree.node name = none ∧ tree.Opens name := by
  unfold readRegular
  split <;> simp_all

/-- The name of a format is in a file, or nothing is there. -/
theorem Found.selection (found : Found platform tree chosen policy) :
    (∃ data, tree.node SELECTION = some (.file data)) ∨ tree.node SELECTION = none := by
  cases found with
  | selected here =>
      obtain ⟨data, file, -⟩ := readRegular_file.mp here
      exact .inl ⟨data, file⟩
  | tree absent => exact .inr (readRegular_none.mp absent).1
  | cuda absent => exact .inr (readRegular_none.mp absent).1
  | single absent => exact .inr (readRegular_none.mp absent).1

theorem inspectTree_iff {claimed : Option (Json F)} :
    FileSystem.sourceTree.inspectPolicy platform tree = .ok claimed ↔
      readRegular tree POLICY = .ok none ∧ claimed = none ∨
      ∃ raw value, readRegular tree POLICY = .ok (some raw) ∧ parseJson platform raw = .ok value ∧ claimed = some value := by
  simp only [FileSystem.inspectPolicy]
  cases here : readRegular tree POLICY with
  | error => simp [bind, Except.bind]
  | ok raw =>
      cases raw with
      | none => simp [bind, Except.bind, pure, Except.pure, eq_comm]
      | some raw =>
          cases parsed : parseJson platform raw with
          | error => simp [bind, Except.bind, parsed]
          | ok value => simp [bind, Except.bind, parsed, eq_comm]

theorem inspectCuda_iff {claimed : Option (Json F)} :
    FileSystem.cudaManifest.inspectPolicy platform tree = .ok claimed ↔
      readRegular tree "solution.json" = .ok none ∧ claimed = none ∨
      ∃ raw names, readRegular tree "solution.json" = .ok (some raw) ∧ manifest platform raw = .ok names ∧
        claimed = names.map fun _ => cudaPolicy := by
  simp only [FileSystem.inspectPolicy]
  cases here : readRegular tree "solution.json" with
  | error => simp [bind, Except.bind]
  | ok raw =>
      cases raw with
      | none => simp [bind, Except.bind, pure, Except.pure, eq_comm]
      | some raw =>
          cases named : manifest platform raw with
          | error => simp [bind, Except.bind, lift, named]
          | ok names => simp [bind, Except.bind, pure, Except.pure, lift, named, eq_comm]

/-- The contract of a tree is in a file. -/
theorem Found.contract (found : Found platform tree .sourceTree policy) : tree.node POLICY ≠ some .dir := by
  have read {raw : Bytes} (here : readRegular tree POLICY = .ok (some raw)) : tree.node POLICY ≠ some .dir := by
    obtain ⟨data, file, -⟩ := readRegular_file.mp here
    simp [file]
  cases found with
  | selected _ _ inspected valid =>
      rcases inspectTree_iff.mp inspected with ⟨-, rfl⟩ | ⟨raw, value, here, -, rfl⟩
      · cases valid
      · exact read here
  | tree _ inspected =>
      rcases inspectTree_iff.mp inspected with ⟨-, none⟩ | ⟨raw, value, here, -⟩
      · cases none
      · exact read here

/-- The selection is not touched before it is written. -/
theorem selection_kept {cleared middle : FileTree} (holds : Holds platform tree chosen policy earlier)
    (accepted : unpack platform source = .ok (policy, files))
    (nodes : ∀ n, cleared.node n = if n ∈ earlier.map Prod.fst ∧ n ∉ files.map Prod.fst then none else tree.node n)
    (installed : chosen.install cleared files policy = some middle) : middle.node SELECTION = tree.node SELECTION := by
  obtain ⟨valid, -, sorted, -⟩ := unpack_ok platform accepted
  have chooses := valid_forPolicy ((resolve_iff platform).mp holds.resolved).valid
  have named := fun name member => named_apart (validateFiles_named valid name member) (.inr rfl)
  have outside : SELECTION ∉ files.map Prod.fst := fun member => (named _ member).1 rfl
  have earlier_outside : SELECTION ∉ earlier.map Prod.fst := fun member =>
    (named_apart (holds.named _ member) (.inr rfl)).1 rfl
  rw [(install_node valid sorted chooses installed).2.2 SELECTION outside (fun same => absurd same (by decide)),
    if_neg (fun lies => (named _ lies.choose_spec.1).2 lies.choose_spec.2), if_neg (fun kernel => absurd kernel.2 (by decide)),
    nodes, if_neg (fun both => earlier_outside both.1)]

theorem recordSelection_some {line : Bytes} (free : tree.node SELECTION ≠ some .dir) (bind : Bool) :
    ∃ after, recordSelection tree line bind = some after ∧
      (after.node SELECTION = some (.file line) ∨ after.node SELECTION = tree.node SELECTION ∧
        ∀ data, tree.node SELECTION ≠ some (.file data)) ∧
      ∀ n, n ≠ SELECTION → after.node n = tree.node n := by
  have takes : tree.Takes SELECTION := ⟨by simp [FileTree.Opens, above_selection], free⟩
  by_cases written : bind = true ∨ ∃ data, tree.node SELECTION = some (.file data)
  · refine ⟨tree.set SELECTION (some line) takes.2, ?_, .inl (by simp), fun n other => ?_⟩
    · rcases written with rfl | ⟨data, here⟩
      · simp [recordSelection, FileTree.publish, takes]
      · simp [recordSelection, here, FileTree.publish, takes]
    · rw [FileTree.set_node, if_neg other, above_selection, if_neg List.not_mem_nil]
  · obtain ⟨unbound, no_file⟩ := not_or.mp written
    refine ⟨tree, ?_, .inr ⟨rfl, fun data here => no_file ⟨data, here⟩⟩, fun _ _ => rfl⟩
    unfold recordSelection
    split <;> simp_all

/-- The installation is done where every file has a place. -/
theorem install_done_iff [DecidableEq F] (holds : Holds platform tree chosen policy earlier)
    (accepted : unpack platform source = .ok (policy, files)) (bind : Bool) :
    (∃ after, install platform tree source true bind = .ok after) ↔ Placed tree chosen earlier files := by
  obtain ⟨cleared, nodes, runs⟩ := install_cleared holds accepted
  obtain ⟨valid, -, sorted, -⟩ := unpack_ok platform accepted
  have found := (resolve_iff platform).mp holds.resolved
  have held : ∀ name ∈ earlier.map Prod.fst, tree.node name ≠ some .dir := by
    intro name member
    obtain ⟨file, inside, rfl⟩ := List.mem_map.mp member
    obtain ⟨data, here, -⟩ := collect_files holds.collected file inside
    simp [here]
  rw [← install_iff valid sorted (valid_forPolicy found.valid) (fun same => (same ▸ found).contract) held nodes, runs]
  constructor
  · rintro ⟨after, done⟩
    obtain ⟨middle, installed, -⟩ := Option.bind_eq_some_iff.mp (fromOs_ok.mp done)
    exact ⟨middle, installed⟩
  · rintro ⟨middle, installed⟩
    have free : middle.node SELECTION ≠ some .dir := by
      rw [selection_kept holds accepted nodes installed]
      rcases found.selection with ⟨data, file⟩ | absent
      · simp [file]
      · simp [absent]
    obtain ⟨after, recorded, -⟩ := recordSelection_some free bind
    exact ⟨after, fromOs_ok.mpr (Option.bind_eq_some_iff.mpr ⟨middle, installed, recorded⟩)⟩

theorem install_installed [DecidableEq F] (holds : Holds platform tree chosen policy earlier)
    (accepted : unpack platform source = .ok (policy, files)) {bind : Bool}
    (done : install platform tree source true bind = .ok after) : Installed tree after chosen policy earlier files := by
  obtain ⟨cleared, nodes, runs⟩ := install_cleared holds accepted
  obtain ⟨valid, -, sorted, -⟩ := unpack_ok platform accepted
  have found := (resolve_iff platform).mp holds.resolved
  rw [runs] at done
  obtain ⟨middle, installed, recorded⟩ := Option.bind_eq_some_iff.mp (fromOs_ok.mp done)
  have kept := selection_kept holds accepted nodes installed
  have free : middle.node SELECTION ≠ some .dir := by
    rw [kept]
    rcases found.selection with ⟨data, file⟩ | absent
    · simp [file]
    · simp [absent]
  obtain ⟨_, recorded', selected, same⟩ := recordSelection_some free bind
  cases Option.some.inj (recorded'.symm.trans recorded)
  obtain ⟨stored, contract, others⟩ := install_node valid sorted (valid_forPolicy found.valid) installed
  have named := fun name member => named_apart (validateFiles_named valid name member) (.inr rfl)
  refine ⟨fun file member => ?_, fun tree => ?_, ?_, fun n outside other no_tree => ?_⟩
  · rw [same _ (named _ (List.mem_map_of_mem member)).1, stored file member]
  · rw [same _ (by decide), contract tree]
  · refine selected.imp id fun ⟨before, no_file⟩ => ?_
    rw [kept] at before no_file
    rcases found.selection with ⟨data, file⟩ | absent
    · exact absurd file (no_file data)
    · exact ⟨before.trans absent, absent⟩
  · rw [same n other, others n outside no_tree, nodes]
    by_cases kernel : chosen = .cudaManifest ∧ n = "kernel.py"
    · simp [kernel]
    · simp only [kernel, outside, not_false_eq_true, and_true, false_or, if_false]

/-! ### The format of the workspace afterwards -/

theorem parseJson_line {first : String × Json F} {items : Dict F} (canonical : Canonical (.obj (first :: items)))
    {n : Nat} (whole : (jsonLine (.obj (first :: items))).length ≤ n) :
    parseJson platform ((jsonLine (.obj (first :: items))).take n) = .ok (.obj (first :: items)) := by
  unfold parseJson
  rw [loadBytes_line platform.otherEncoding canonical whole]

theorem selected_line (chosen : FileSystem) :
    selected platform ((jsonLine (chosen.selection : Json F)).take (MAX_FILE + 1)) = .ok chosen := by
  have canonical : Canonical (chosen.selection : Json F) := by
    simp [FileSystem.selection, Canonical, CanonicalMembers]
  have fits : (jsonLine (chosen.selection : Json F)).length ≤ MAX_FILE + 1 := by
    rw [jsonLine_text, sortKeys_canonical _ canonical, length_narrow (line_narrow _)]
    cases chosen <;> exact Nat.le_of_ble_eq_true rfl
  unfold selected
  simp only [FileSystem.selection] at canonical fits ⊢
  rw [parseJson_line canonical fits]
  cases chosen <;> rfl

theorem readRegular_same {name : String} (same : after.node name = tree.node name) (top : above name = []) :
    readRegular after name = readRegular tree name := by
  simp [readRegular, same, FileTree.Opens, top]

theorem readRegular_data {name : String} {data : Bytes} (here : tree.node name = some (.file data)) :
    readRegular tree name = .ok (some (data.take (MAX_FILE + 1))) := readRegular_file.mpr ⟨data, here, rfl⟩

theorem Found.cuda_policy (found : Found platform tree .cudaManifest policy) : policy = cudaPolicy := by
  cases found with
  | selected _ _ inspected =>
      rcases inspectCuda_iff.mp inspected with ⟨-, rfl⟩ | ⟨_, names, -, -, rfl⟩
      · rfl
      · cases names <;> rfl
  | cuda _ _ inspected =>
      rcases inspectCuda_iff.mp inspected with ⟨-, none⟩ | ⟨_, names, -, -, same⟩
      · cases none
      · cases names with
        | none => cases same
        | some => exact Option.some.inj same

theorem resolve_after_tree (installed : Installed tree after .sourceTree policy earlier files) {system : FileSystem}
    {read : Json F} : resolve platform after = .ok (system, read) ↔
      system = .sourceTree ∧ parseJson platform ((jsonLine policy).take (MAX_FILE + 1)) = .ok read ∧
        FileSystem.sourceTree.validatePolicy platform read = .ok () := by
  have contract := readRegular_data (installed.contract rfl)
  rw [resolve_iff]
  constructor
  · intro found
    have claims {claimed : Option (Json F)} (inspected : FileSystem.sourceTree.inspectPolicy platform after = .ok claimed) :
        ∃ value, claimed = some value ∧ parseJson platform ((jsonLine policy).take (MAX_FILE + 1)) = .ok value := by
      rcases inspectTree_iff.mp inspected with ⟨absent, -⟩ | ⟨raw, value, here, parsed, same⟩
      · rw [contract] at absent
        cases absent
      · rw [contract] at here
        cases here
        exact ⟨value, same, parsed⟩
    cases found with
    | selected here named inspected valid =>
        rcases installed.selection with line | ⟨absent, -⟩
        · rw [readRegular_data line] at here
          cases here
          rw [selected_line] at named
          cases named
          obtain ⟨value, rfl, parsed⟩ := claims inspected
          exact ⟨rfl, parsed, valid⟩
        · obtain ⟨_, file, -⟩ := readRegular_file.mp here
          rw [absent] at file
          cases file
    | tree _ inspected valid =>
        obtain ⟨value, same, parsed⟩ := claims inspected
        cases same
        exact ⟨rfl, parsed, valid⟩
    | cuda _ no_tree _ _ =>
        obtain ⟨_, none, -⟩ := claims no_tree
        cases none
    | single _ no_tree _ =>
        obtain ⟨_, none, -⟩ := claims no_tree
        cases none
  · rintro ⟨rfl, parsed, valid⟩
    have inspected : FileSystem.sourceTree.inspectPolicy platform after = .ok (some read) :=
      inspectTree_iff.mpr (.inr ⟨_, _, contract, parsed, rfl⟩)
    rcases installed.selection with line | ⟨absent, -⟩
    · exact .selected (readRegular_data line) (selected_line _) inspected valid
    · exact .tree (readRegular_none.mpr ⟨absent, by simp [FileTree.Opens, above_selection]⟩) inspected valid

/-- What the other formats do not write is as it was. -/
theorem kept_apart (holds : Holds platform tree chosen policy earlier)
    (accepted : unpack platform source = .ok (policy, files)) (installed : Installed tree after chosen policy earlier files)
    (other : chosen ≠ .sourceTree) : after.node POLICY = tree.node POLICY := by
  obtain ⟨valid, -⟩ := unpack_ok platform accepted
  have named := fun name member => named_apart (validateFiles_named valid name member) (.inl rfl)
  have unnamed : ¬((chosen = .cudaManifest ∧ POLICY = "kernel.py") ∨ POLICY ∈ earlier.map Prod.fst) := by
    rintro (⟨-, kernel⟩ | member)
    · exact absurd kernel (by decide)
    · exact (named_apart (holds.named _ member) (.inl rfl)).1 rfl
  rw [installed.others POLICY (fun member => (named _ member).1 rfl) (by decide) (fun _ => other),
    if_neg (fun lies => (named _ lies.choose_spec.1).2 lies.choose_spec.2), if_neg unnamed]

theorem resolve_after_single (holds : Holds platform tree .singleFile policy earlier)
    (accepted : unpack platform source = .ok (policy, files))
    (installed : Installed tree after .singleFile policy earlier files) :
    resolve platform after = .ok (.singleFile, .null) := by
  have found := (resolve_iff platform).mp holds.resolved
  obtain ⟨valid, -⟩ := unpack_ok platform accepted
  obtain ⟨data, rfl⟩ := single_files (valid_forPolicy found.valid) valid
  obtain ⟨file, read, same⟩ := (bind_ok_iff _ _ _).mp holds.collected
  cases same
  have solution : after.node "solution.json" = tree.node "solution.json" := by
    rw [installed.others _ (by simp) (by decide) (by simp)]
    simp [above_kernel, (readFile_ok.mp read).1]
  have contract := readRegular_same (kept_apart holds accepted installed (by simp)) above_policy
  rw [resolve_iff]
  rcases installed.selection with line | ⟨absent, earlier_absent⟩
  · have inspected : FileSystem.singleFile.inspectPolicy platform after = .ok (some (Json.null : Json F)) := rfl
    have found := Found.selected (readRegular_data line) (selected_line _) inspected rfl
    exact found
  · have unselected : readRegular tree SELECTION = .ok none :=
      readRegular_none.mpr ⟨earlier_absent, by simp [FileTree.Opens, above_selection]⟩
    cases found with
    | selected here =>
        rw [unselected] at here
        cases here
    | single _ no_tree no_cuda =>
        refine .single (readRegular_none.mpr ⟨absent, by simp [FileTree.Opens, above_selection]⟩) ?_ ?_
        · rw [← no_tree]
          simp only [FileSystem.inspectPolicy, contract]
        · rw [← no_cuda]
          simp only [FileSystem.inspectPolicy, readRegular_same solution above_solution]

theorem resolve_after_cuda (holds : Holds platform tree .cudaManifest policy earlier)
    (accepted : unpack platform source = .ok (policy, files))
    (installed : Installed tree after .cudaManifest policy earlier files) :
    resolve platform after = .ok (.cudaManifest, policy) := by
  have found := (resolve_iff platform).mp holds.resolved
  obtain ⟨valid, -⟩ := unpack_ok platform accepted
  obtain ⟨raw, names, solution, read, -, small⟩ := validateCuda_ok (cuda_valid (valid_forPolicy found.valid) valid)
  have whole : readRegular after "solution.json" = .ok (some raw) := by
    rw [readRegular_data (installed.stored _ solution), List.take_of_length_le (Nat.le_succ_of_le (small _ solution))]
  have inspected : FileSystem.cudaManifest.inspectPolicy platform after = .ok (some policy) :=
    inspectCuda_iff.mpr (.inr ⟨_, _, whole, read, by rw [found.cuda_policy]; rfl⟩)
  have contract := readRegular_same (kept_apart holds accepted installed (by simp)) above_policy
  rw [resolve_iff]
  rcases installed.selection with line | ⟨absent, earlier_absent⟩
  · have found := Found.selected (readRegular_data line) (selected_line _) inspected found.valid
    exact found
  · have unselected : readRegular tree SELECTION = .ok none :=
      readRegular_none.mpr ⟨earlier_absent, by simp [FileTree.Opens, above_selection]⟩
    cases found with
    | selected here =>
        rw [unselected] at here
        cases here
    | cuda _ no_tree _ valid =>
        refine .cuda (readRegular_none.mpr ⟨absent, by simp [FileTree.Opens, above_selection]⟩) ?_ inspected valid
        rw [← no_tree]
        simp only [FileSystem.inspectPolicy, contract]

/-! ### What is collected afterwards -/

omit [FloatText F] in
theorem sorted_names {names : List String} (sorted : names.Pairwise (· < ·)) {found : Finset String}
    (same : ∀ name, name ∈ found ↔ name ∈ names) : names = found.sort := by
  have equal : found = names.toFinset := by
    ext name
    rw [same, List.mem_toFinset]
  rw [equal, (List.toFinset_sort (· ≤ ·) (keys_nodup sorted)).mpr (sorted.imp le_of_lt)]

/-- The walk comes by the files that are in directories it enters, and by no other. -/
theorem found_after (holds : Holds platform tree .sourceTree policy earlier)
    (accepted : unpack platform source = .ok (policy, files))
    (installed : Installed tree after .sourceTree policy earlier files) (name : String) :
    name ∈ after.found ↔ name ∈ files.map Prod.fst ∧ Walked name := by
  have found := (resolve_iff platform).mp holds.resolved
  obtain ⟨valid, -⟩ := unpack_ok platform accepted
  obtain ⟨items, -, valid⟩ := tree_valid (valid_forPolicy found.valid) valid
  obtain ⟨collected, read, checked⟩ := (bind_ok_iff _ _ _).mp holds.collected
  obtain ⟨_, -, same⟩ := (bind_ok_iff _ _ _).mp checked
  cases same
  obtain ⟨-, names, from_tree, -⟩ := collectTree_iff.mp read
  rw [FileTree.found, Finset.mem_filter, after.listed]
  constructor
  · rintro ⟨there, walked, source_name, no_dir⟩
    refine ⟨by_contra fun outside => ?_, walked⟩
    have apart {reserved : String} (own : reserved = POLICY ∨ reserved = SELECTION) : name ≠ reserved :=
      (named_apart (.inl source_name) own).1
    rw [installed.others name outside (apart (.inr rfl)) (fun same => absurd same (apart (.inl rfl)))] at there no_dir
    by_cases lies : ∃ file ∈ files.map Prod.fst, name ∈ above file
    · exact no_dir (if_pos lies)
    · rw [if_neg lies] at there no_dir
      by_cases gone : (FileSystem.sourceTree = .cudaManifest ∧ name = "kernel.py") ∨ name ∈ earlier.map Prod.fst
      · exact there (if_pos gone)
      · rw [if_neg gone] at there no_dir
        refine gone (.inr ?_)
        rw [names, Finset.mem_sort, FileTree.found, Finset.mem_filter, tree.listed]
        exact ⟨there, walked, source_name, no_dir⟩
  · rintro ⟨member, walked⟩
    obtain ⟨file, inside, rfl⟩ := List.mem_map.mp member
    have here := installed.stored file inside
    exact ⟨by simp [here], walked, ((validateTree_ok valid).2.2 file inside).1, by simp [here]⟩

/-- No link has come into the tree. -/
theorem unlinked_after (holds : Holds platform tree .sourceTree policy earlier)
    (installed : Installed tree after .sourceTree policy earlier files) : ∀ name ∈ after.names, ¬ after.Linked name := by
  obtain ⟨collected, read, checked⟩ := (bind_ok_iff _ _ _).mp holds.collected
  obtain ⟨unlinked, -⟩ := collectTree_iff.mp read
  rintro name - ⟨walked, link, outside⟩
  have no_file : name ∉ files.map Prod.fst := by
    intro member
    obtain ⟨file, inside, rfl⟩ := List.mem_map.mp member
    rw [installed.stored file inside] at link
    cases link
  have no_selection : name ≠ SELECTION := by
    rintro rfl
    rcases installed.selection with line | ⟨absent, -⟩
    · rw [line] at link
      cases link
    · rw [absent] at link
      cases link
  have no_contract : name ≠ POLICY := by
    rintro rfl
    rw [installed.contract rfl] at link
    cases link
  rw [installed.others name no_file no_selection (fun same => absurd same no_contract)] at link
  split at link
  · cases link
  · split at link
    · cases link
    · exact unlinked name ((tree.listed name).mpr (by simp [link])) ⟨walked, link, outside⟩

/-! ### The snapshot afterwards -/

theorem snapshot_single_iff (holds : Holds platform tree .singleFile policy earlier)
    (accepted : unpack platform source = .ok (policy, files))
    (installed : Installed tree after .singleFile policy earlier files) :
    snapshot platform after = .ok source ↔ ∀ file ∈ files, file.2.length ≤ MAX_FILE + 1 := by
  have found := (resolve_iff platform).mp holds.resolved
  have resolved := resolve_after_single holds accepted installed
  have null : policy = .null := by
    have valid := found.valid
    cases policy with
    | null => rfl
    | _ => cases valid
  subst null
  have only := pack_null.mp (pack_unpack accepted)
  have here := installed.stored ("kernel.py", source) (by simp [only])
  have taken : snapshot platform after = .ok (source.take (MAX_FILE + 1)) := by
    have read : readFile after "kernel.py" = .ok ("kernel.py", source.take (MAX_FILE + 1)) :=
      readFile_ok.mpr ⟨rfl, source, here, rfl⟩
    have packed : pack platform [("kernel.py", source.take (MAX_FILE + 1))] (.null : Json F) =
        .ok (source.take (MAX_FILE + 1)) := pack_null.mpr rfl
    unfold snapshot
    simp only [resolved, FileSystem.collect, read, bind, Except.bind, pure, Except.pure, packed, lift]
  rw [taken, only]
  simp [List.take_eq_self_iff]

theorem collect_after_cuda (holds : Holds platform tree .cudaManifest policy earlier)
    (accepted : unpack platform source = .ok (policy, files))
    (installed : Installed tree after .cudaManifest policy earlier files) : collectCuda platform after = .ok files := by
  have found := (resolve_iff platform).mp holds.resolved
  obtain ⟨valid, -, sorted, -⟩ := unpack_ok platform accepted
  obtain ⟨raw, names, solution, read, same, small⟩ := validateCuda_ok (cuda_valid (valid_forPolicy found.valid) valid)
  have whole : ∀ file ∈ files, ReadFrom after file := fun file member =>
    ⟨file.2, installed.stored file member, (List.take_of_length_le (Nat.le_succ_of_le (small file member))).symm⟩
  exact collectCuda_iff.mpr ⟨raw, names, whole _ solution, read, sorted_names sorted fun name => by simp [same], whole⟩

theorem snapshot_cuda (holds : Holds platform tree .cudaManifest policy earlier)
    (accepted : unpack platform source = .ok (policy, files))
    (installed : Installed tree after .cudaManifest policy earlier files) : snapshot platform after = .ok source := by
  have found := (resolve_iff platform).mp holds.resolved
  obtain ⟨valid, -⟩ := unpack_ok platform accepted
  unfold snapshot
  simp only [resolve_after_cuda holds accepted installed, FileSystem.collect, collect_after_cuda holds accepted installed,
    cuda_valid (valid_forPolicy found.valid) valid, pack_unpack accepted, bind, Except.bind, pure, Except.pure, lift]

theorem collect_after_tree (holds : Holds platform tree .sourceTree policy earlier)
    (accepted : unpack platform source = .ok (policy, files))
    (installed : Installed tree after .sourceTree policy earlier files)
    (walked : ∀ name ∈ files.map Prod.fst, Walked name) : collectTree after = .ok files := by
  have found := (resolve_iff platform).mp holds.resolved
  obtain ⟨valid, -, sorted, -⟩ := unpack_ok platform accepted
  obtain ⟨items, -, valid⟩ := tree_valid (valid_forPolicy found.valid) valid
  obtain ⟨count, size, small⟩ := validateTree_ok valid
  refine collectTree_iff.mpr ⟨unlinked_after holds installed, sorted_names sorted fun name => ?_, fun file member => ?_,
    count, size⟩
  · rw [found_after holds accepted installed]
    exact ⟨And.left, fun member => ⟨member, walked name member⟩⟩
  · exact ⟨file.2, installed.stored file member,
      (List.take_of_length_le (Nat.le_succ_of_le (small file member).2)).symm⟩

/-- The contract that is read of its line, or of the beginning of it, is in the order of its keys. -/
theorem parse_canonical {items : Dict F} {read : Json F} (valid : validateTreePolicy platform items = .ok ())
    (canonical : Canonical (.obj items)) (parsed : parseJson platform ((jsonLine (.obj items)).take (MAX_FILE + 1)) = .ok read) :
    Canonical read := by
  cases items with
  | nil => cases valid
  | cons first rest =>
      unfold parseJson at parsed
      rw [loadBytes_part platform.otherEncoding canonical (by decide)] at parsed
      split at parsed
      · rename_i value loaded
        cases parsed
        obtain ⟨plain, here, rfl⟩ := Option.map_eq_some_iff.mp loaded
        exact canonical_sortKeys plain (loads_distinct _ plain here)
      · cases parsed

theorem snapshot_tree_iff (holds : Holds platform tree .sourceTree policy earlier)
    (accepted : unpack platform source = .ok (policy, files))
    (installed : Installed tree after .sourceTree policy earlier files) :
    snapshot platform after = .ok source ↔ (∀ name ∈ files.map Prod.fst, Walked name) ∧
      parseJson platform ((jsonLine policy).take (MAX_FILE + 1)) = .ok policy := by
  have found := (resolve_iff platform).mp holds.resolved
  obtain ⟨valid, canonical, sorted, fits⟩ := unpack_ok platform accepted
  have is_tree := tree_valid (valid_forPolicy found.valid) valid
  have not_null : policy ≠ .null := by
    obtain ⟨items, rfl, -⟩ := is_tree
    simp
  constructor
  · intro same
    obtain ⟨⟨system, read⟩, resolved, same⟩ := (bind_ok_iff _ _ _).mp same
    obtain ⟨rfl, parsed, read_valid⟩ := (resolve_after_tree installed).mp resolved
    obtain ⟨content, collected, packed⟩ := (bind_ok_iff _ _ _).mp same
    obtain ⟨content', walk, checked⟩ := (bind_ok_iff _ _ _).mp collected
    obtain ⟨_, -, here⟩ := (bind_ok_iff _ _ _).mp checked
    cases here
    have names := (collectTree_iff.mp walk).2.1
    have read_canonical : Canonical read := by
      obtain ⟨items, rfl, tree_ok⟩ := is_tree
      exact parse_canonical (by obtain ⟨⟨⟩, valid, -⟩ := (bind_ok_iff _ _ _).mp tree_ok; exact valid) canonical parsed
    have read_tree : read ≠ .null := by
      rintro rfl
      cases read_valid
    have again := unpack_packed platform read_tree read_canonical
      (by rw [names]; exact (Finset.sortedLT_sort _).pairwise) (lift_ok.mp packed) (fits not_null)
    rw [accepted] at again
    cases again
    refine ⟨fun name member => ?_, parsed⟩
    rw [names, Finset.mem_sort] at member
    exact ((found_after holds accepted installed name).mp member).2
  · rintro ⟨walked, parsed⟩
    have resolved := (resolve_after_tree installed).mpr ⟨rfl, parsed, found.valid⟩
    unfold snapshot
    simp only [resolved, FileSystem.collect, collect_after_tree holds accepted installed walked, valid,
      pack_unpack accepted, bind, Except.bind, pure, Except.pure, lift]

theorem snapshot_after_iff (holds : Holds platform tree chosen policy earlier)
    (accepted : unpack platform source = .ok (policy, files))
    (installed : Installed tree after chosen policy earlier files) : snapshot platform after = .ok source ↔
      (chosen = .sourceTree → ∀ name ∈ files.map Prod.fst, Walked name) ∧
      (chosen = .sourceTree → parseJson platform ((jsonLine policy).take (MAX_FILE + 1)) = .ok policy) ∧
      (chosen = .singleFile → ∀ file ∈ files, file.2.length ≤ MAX_FILE + 1) := by
  cases chosen with
  | singleFile => simpa using snapshot_single_iff holds accepted installed
  | sourceTree => simpa using snapshot_tree_iff holds accepted installed
  | cudaManifest => simpa using snapshot_cuda holds accepted installed

/-- No file of the earlier content is left that the snapshot does not have. -/
theorem earlier_removed (holds : Holds platform tree chosen policy earlier)
    (installed : Installed tree after chosen policy earlier files) {name : String} (member : name ∈ earlier.map Prod.fst)
    (outside : name ∉ files.map Prod.fst) (data : Bytes) : after.node name ≠ some (.file data) := by
  have named := holds.named name member
  rw [installed.others name outside (named_apart named (.inr rfl)).1
    (fun same => absurd same (named_apart named (.inl rfl)).1)]
  split
  · simp
  · rw [if_pos (.inr member)]
    simp

theorem reproduces_iff [DecidableEq F] (holds : Holds platform tree chosen policy earlier)
    (accepted : unpack platform source = .ok (policy, files)) (bind : Bool) :
    Reproduces platform tree source bind earlier files ↔ Installable platform tree chosen policy earlier files := by
  constructor
  · rintro ⟨after, done, same, -⟩
    have placed := (install_done_iff holds accepted bind).mp ⟨after, done⟩
    obtain ⟨walked, metadata, short⟩ :=
      (snapshot_after_iff holds accepted (install_installed holds accepted done)).mp same
    exact ⟨placed, walked, metadata, short⟩
  · rintro ⟨placed, walked, metadata, short⟩
    obtain ⟨after, done⟩ := (install_done_iff holds accepted bind).mpr placed
    have installed := install_installed holds accepted done
    exact ⟨after, done, (snapshot_after_iff holds accepted installed).mpr ⟨walked, metadata, short⟩,
      fun _ member outside data => earlier_removed holds installed member outside data⟩

/-- A snapshot for the contract of the content before is installed, and is what the workspace then is, just where
every file has a place, the walk comes by it, and what is read is whole. -/
theorem install_reproduces [DecidableEq F] (platform : Platform F) {tree : FileTree} {chosen : FileSystem} {policy : Json F}
    {earlier files : Files} {source : Bytes} (holds : Holds platform tree chosen policy earlier)
    (accepted : unpack platform source = .ok (policy, files)) (bind : Bool) :
    Reproduces platform tree source bind earlier files ↔ Installable platform tree chosen policy earlier files :=
  reproduces_iff holds accepted bind

instance : DecidableEq Imprecise := fun .nan .nan => isTrue rfl

/-- A workspace with an empty kernel. -/
def blank : FileTree where
  node name := if name = "kernel.py" then some (.file []) else none
  names := {"kernel.py"}
  listed := by simp
  closed := by simp [above_kernel]

theorem blank_holds : Holds bare blank .singleFile .null [("kernel.py", [])] :=
  ⟨rfl, rfl, [], rfl⟩

theorem install_reproduces_blank :
    Reproduces bare blank [] false [("kernel.py", [])] [("kernel.py", [])] ↔
      Installable bare blank .singleFile .null [("kernel.py", [])] [("kernel.py", [])] :=
  install_reproduces bare blank_holds rfl false

/-- A contract with two editable roots. -/
def contract : Json Imprecise := .obj [("editable_roots", .arr [.str "impl", .str "kernel.py"]), ("immutable_files", .obj []),
  ("package_root", .str "."), ("runtime_requirements", .arr []), ("schema_version", .int 1),
  ("seed_digest", .str "sha256:0000000000000000000000000000000000000000000000000000000000000000"),
  ("source_revision", .null)]

theorem above_nested : above "impl/a/b.py" = ["impl", "impl/a"] := by decide

theorem above_module : above "impl/a" = ["impl"] := by decide

theorem above_root : above "impl" = [] := by decide

/-- A workspace for the contract, with a file in a directory. -/
def nested : FileTree where
  node name :=
    if name = "impl" ∨ name = "impl/a" then some .dir
    else if name = "impl/a/b.py" ∨ name = "kernel.py" then some (.file [])
    else if name = POLICY then some (.file (jsonLine contract))
    else none
  names := {"impl", "impl/a", "impl/a/b.py", "kernel.py", POLICY}
  listed := by
    intro name
    simp only [Finset.mem_insert, Finset.mem_singleton]
    split
    · simp; tauto
    · split
      · simp; tauto
      · split <;> simp <;> tauto
  closed := by
    simp only [Finset.mem_insert, Finset.mem_singleton, forall_eq_or_imp, forall_eq, above_nested, above_module,
      above_root, above_kernel, above_policy]
    simp

def nestedFiles : Files := [("impl/a/b.py", []), ("kernel.py", [])]

def moduleFiles : Files := [("impl/a", []), ("kernel.py", [])]

theorem contract_canonical : Canonical contract := by
  simp only [contract, Canonical, CanonicalMembers, CanonicalItems, List.map_cons, List.map_nil, and_self, and_true,
    List.pairwise_cons, List.mem_cons, List.not_mem_nil, or_false, forall_eq_or_imp, forall_eq, String.lt_iff_toList_lt,
    List.Pairwise.nil, false_imp_iff, implies_true]
  decide +kernel

theorem contract_valid : FileSystem.sourceTree.validatePolicy bare contract = .ok () := by
  decide +kernel

theorem nested_node (name : String) : nested.node name =
    if name = "impl" ∨ name = "impl/a" then some .dir
    else if name = "impl/a/b.py" ∨ name = "kernel.py" then some (.file [])
    else if name = POLICY then some (.file (jsonLine contract))
    else none := rfl

theorem nested_policy : nested.node POLICY = some (.file (jsonLine contract)) := by
  rw [nested_node, if_neg (by decide), if_neg (by decide), if_pos rfl]

theorem nested_selection : nested.node SELECTION = none := by
  rw [nested_node, if_neg (by decide), if_neg (by decide), if_neg (by decide)]

theorem contract_fits : (jsonLine contract).length ≤ MAX_FILE + 1 := by
  rw [jsonLine_text, sortKeys_canonical _ contract_canonical, length_narrow (line_narrow _)]
  decide +kernel

theorem contract_read : parseJson bare ((jsonLine contract).take (MAX_FILE + 1)) = .ok contract :=
  parseJson_line contract_canonical contract_fits

theorem nested_resolved : resolve bare nested = .ok (.sourceTree, contract) := by
  have unselected : readRegular nested SELECTION = .ok none :=
    readRegular_none.mpr ⟨nested_selection, by simp [FileTree.Opens, above_selection]⟩
  exact (resolve_iff bare).mpr
    (.tree unselected (inspectTree_iff.mpr (.inr ⟨_, _, readRegular_data nested_policy, contract_read, rfl⟩)) contract_valid)

theorem nested_collected : collectTree nested = .ok nestedFiles := by
  have sorted : (nestedFiles.map Prod.fst).Pairwise (· < ·) := by decide +kernel
  refine collectTree_iff.mpr ⟨?_, sorted_names sorted fun name => ?_, ?_, by decide, by decide⟩
  · rintro name - ⟨-, link, -⟩
    simp only [nested] at link
    split at link
    · cases link
    · split at link
      · cases link
      · split at link <;> cases link
  · rw [FileTree.found, Finset.mem_filter]
    constructor
    · rintro ⟨member, -, source, no_dir⟩
      simp only [nested, Finset.mem_insert, Finset.mem_singleton] at member
      rcases member with rfl | rfl | rfl | rfl | rfl
      · exact absurd rfl no_dir
      · exact absurd rfl no_dir
      · decide
      · decide
      · exact absurd source (by decide)
    · intro member
      rcases List.mem_cons.mp member with rfl | member
      · exact ⟨by decide, by decide, by decide, by decide⟩
      · rw [List.mem_singleton.mp member]
        exact ⟨by decide, by decide, by decide, by decide⟩
  · intro file member
    rcases List.mem_cons.mp member with rfl | member
    · exact ⟨[], rfl, rfl⟩
    · rw [List.mem_singleton.mp member]
      exact ⟨[], rfl, rfl⟩

theorem nested_holds : Holds bare nested .sourceTree contract nestedFiles where
  resolved := nested_resolved
  collected := by
    have valid : validateFiles bare nestedFiles contract = .ok () := by decide +kernel
    simp only [FileSystem.collect, nested_collected, valid, bind, Except.bind, pure, Except.pure, lift]
  packs := ⟨_, (pack_tree (by simp [contract])).mpr ⟨by decide +kernel, _, rfl, rfl⟩⟩

theorem module_accepted : ∃ source, unpack bare source = .ok (contract, moduleFiles) := by
  refine ⟨treeBytes contract [("impl/a", .str ""), ("kernel.py", .str "")],
    unpack_packed bare (by simp [contract]) contract_canonical (by decide +kernel) ?_ (by decide +kernel)⟩
  exact (pack_tree (by simp [contract])).mpr ⟨by decide +kernel, _, rfl, rfl⟩

/-- The directory of a file that is removed stays, and a file of its name is not put. -/
theorem install_meets_directory : ¬ ∀ (platform : Platform Imprecise) (tree : FileTree) (chosen : FileSystem)
    (policy : Json Imprecise) (earlier files : Files) (source : Bytes) (bind : Bool),
    Holds platform tree chosen policy earlier → unpack platform source = .ok (policy, files) →
      Reproduces platform tree source bind earlier files := by
  intro always
  obtain ⟨source, accepted⟩ := module_accepted
  have installable := (reproduces_iff nested_holds accepted false).mp
    (always bare nested .sourceTree contract nestedFiles moduleFiles source false nested_holds accepted)
  exact (installable.placed.1 "impl/a" (by simp [moduleFiles])).1 rfl

end AtrexAgent.Sources
