import AtrexAgent.Library.Transition
import AtrexAgent.Workflow.Publication

/-! What a publication leaves behind, wherever it is cut off and however often it is replayed. -/

namespace AtrexAgent.Publication

open AtrexAgent.Interaction
open AtrexAgent.Interaction.Program
open AtrexAgent.Transition

section Lookup

variable {β : Type} {items : List (String × β)} {name key : String} {value : β}

theorem lookup_cons_if :
    ((key, value) :: items).lookup name = if name = key then some value else items.lookup name := by
  rw [List.lookup_cons]
  by_cases same : name = key
  · simp [same]
  · rw [beq_false_of_ne same, if_neg same]

theorem lookup_none (absent : name ∉ items.map Prod.fst) : items.lookup name = none := by
  rw [List.lookup_eq_none_iff]
  intro entry member
  rw [bne_iff_ne]
  rintro rfl
  exact absent (List.mem_map_of_mem member)

theorem lookup_of_mem (distinct : (items.map Prod.fst).Nodup) (member : (name, value) ∈ items) :
    items.lookup name = some value := by
  induction items with
  | nil => cases member
  | cons entry rest ih =>
      obtain ⟨key, held⟩ := entry
      rw [List.map_cons, List.nodup_cons] at distinct
      rw [lookup_cons_if]
      rcases List.mem_cons.mp member with same | later
      · cases same
        exact if_pos rfl
      · have differs : name ≠ key := by
          rintro rfl
          exact distinct.1 (List.mem_map.mpr ⟨_, later, rfl⟩)
        rw [if_neg differs]
        exact ih distinct.2 later

end Lookup

theorem Tree.lookup_remove (tree : Tree) (name other : String) :
    (tree.remove name).lookup other = if other = name then none else tree.lookup other := by
  induction tree with
  | nil => simp [remove]
  | cons entry rest ih =>
      obtain ⟨key, blob⟩ := entry
      unfold remove at ih ⊢
      rw [lookup_cons_if]
      by_cases removed : key = name
      · subst removed
        rw [List.filter_cons_of_neg (by simp), ih]
        by_cases same : other = key
        · simp [same]
        · simp [same]
      · rw [List.filter_cons_of_pos (by simpa using removed), lookup_cons_if, ih]
        by_cases same : other = key
        · subst same
          simp [removed]
        · simp [same]

theorem Tree.lookup_update (tree : Tree) (name other : String) (data : Option Bytes) :
    (tree.update (name, data)).lookup other = if other = name then data else tree.lookup other := by
  cases data with
  | none => exact tree.lookup_remove name other
  | some data =>
      unfold update add
      rw [lookup_cons_if]
      by_cases same : other = name
      · rw [if_pos same, if_pos same]
      · rw [if_neg same, if_neg same, lookup_remove, if_neg same]

/-- The tree of the new commit holds the requested files, and what the old one held elsewhere. -/
theorem lookup_foldl_update (items : List (String × Option Bytes))
    (distinct : (items.map Prod.fst).Nodup) (tree : Tree) (name : String) :
    (items.foldl Tree.update tree).lookup name =
      (items.lookup name).getD (tree.lookup name) := by
  induction items generalizing tree with
  | nil => rfl
  | cons entry rest ih =>
      obtain ⟨key, data⟩ := entry
      rw [List.map_cons, List.nodup_cons] at distinct
      rw [List.foldl_cons, ih distinct.2, Tree.lookup_update, lookup_cons_if]
      by_cases same : name = key
      · subst same
        rw [lookup_none distinct.1, if_pos rfl, if_pos rfl]
        rfl
      · rw [if_neg same, if_neg same]

variable (sha256 : Bytes → String)

@[simp] theorem receiptOf_base (base : Commit) (files : Files) (message : String) :
    (receiptOf sha256 base files message).base = base := rfl

@[simp] theorem receiptOf_message (base : Commit) (files : Files) (message : String) :
    (receiptOf sha256 base files message).message = message := rfl

@[simp] theorem receiptOf_files (base : Commit) (files : Files) (message : String) :
    (receiptOf sha256 base files message).files = checksums sha256 files := rfl

theorem receiptOf_target_show (base : Commit) (files : Files) (message name : String) :
    (receiptOf sha256 base files message).target.show name =
      (files.items.lookup name).getD (base.show name) :=
  lookup_foldl_update files.items files.distinct base.tree name

theorem map_fst_checksums (files : Files) : (checksums sha256 files).map Prod.fst = files.keys := by
  unfold checksums Files.keys
  rw [List.map_map]
  rfl

/-! ### What is claimed of a call -/

/-- The receipt a call works from. -/
def Repo.pending (repo : Repo) (files : Files) (message : String) : Receipt :=
  repo.receipt.getD (receiptOf sha256 repo.head files message)

/-- A path holds the recorded old version or the requested one. -/
def Versioned {α : Type} (held old new : α) : Prop := held = old ∨ held = new

/-- The tests that `commit_files` makes before it changes anything but its receipt. -/
structure Passes (repo : Repo) (files : Files) (message : String) : Prop where
  clean : repo.receipt = none → repo.dirtyPaths = []
  sealed : (repo.pending sha256 files message).files.Perm (checksums sha256 files) ∧
    (repo.pending sha256 files message).message = message
  head : Versioned repo.head (repo.pending sha256 files message).base
    (repo.pending sha256 files message).target
  related : repo.dirtyPaths ⊆ files.keys
  integrity : ∀ entry ∈ files.items, (repo.pending sha256 files message).target.show entry.1 = entry.2
  expected : ∀ entry ∈ files.items, Versioned ((repo.work entry.1).read LIMIT)
    (Node.of ((repo.pending sha256 files message).base.show entry.1)) (Node.of entry.2)

/-- Where the tests pass, the whole content of the requested files, and what is staged for them, is
the recorded old version or the requested one. -/
def Recognised (repo : Repo) (files : Files) (message : String) : Prop :=
  Passes sha256 repo files message → ∀ entry ∈ files.items,
    Versioned (repo.work entry.1) (Node.of ((repo.pending sha256 files message).base.show entry.1))
      (Node.of entry.2) ∧
    Versioned (repo.index.lookup entry.1) ((repo.pending sha256 files message).base.show entry.1)
      entry.2

/-- What a call may have done to a repository, whether it ended or was cut off. -/
structure CallSafe (repo repo' : Repo) (files : Files) (message : String)
    (outcome : Option (Except Error Commit)) : Prop where
  completes : ∀ target, outcome = some (.ok target) →
    (∃ receipt, repo'.receipt = some receipt ∧ receipt.target = target) ∧
      repo'.head = target ∧ repo'.index = target.tree ∧
      ∀ entry ∈ files.items, repo'.work entry.1 = Node.of entry.2
  head : repo'.head = repo.head ∧ repo'.advances = repo.advances ∨
    ∃ receipt, repo'.receipt = some receipt ∧ repo.head = receipt.base ∧
      repo'.head = receipt.target ∧ repo'.advances = repo.advances + 1
  work : ∀ name, repo'.work name ≠ repo.work name → ∃ data, (name, data) ∈ files.items ∧
    Versioned (repo.work name) (Node.of ((repo.pending sha256 files message).base.show name))
      (Node.of data)
  index : ∀ name, repo'.index.lookup name ≠ repo.index.lookup name →
    ∃ data, (name, data) ∈ files.items ∧
      Versioned (repo.index.lookup name) ((repo.pending sha256 files message).base.show name) data
  receipt : repo'.receipt = repo.receipt ∨
    repo.receipt = none ∧ repo'.receipt = some (receiptOf sha256 repo.head files message)
  rejects : ∀ base files₀ message₀, repo.receipt = some (receiptOf sha256 base files₀ message₀) →
    ¬ (files₀.items.Perm files.items ∧ message₀ = message) →
      repo' = repo ∧ ∀ target, outcome ≠ some (.ok target)

/-- The receipt names one commit on top of the old one, with the requested changes and no others,
and HEAD was moved at most once. -/
structure Safe (repo : Repo) : Prop where
  change : ∀ receipt, repo.receipt = some receipt → ∃ files message,
    receipt = receiptOf sha256 receipt.base files message ∧
      (∃ tree, receipt.target = .child tree receipt.base message) ∧
      ∀ name, receipt.target.show name = (files.items.lookup name).getD (receipt.base.show name)
  once : repo.advances ≤ 1

/-- A transaction that nobody has begun. -/
def Fresh (repo : Repo) : Prop := repo.receipt = none ∧ repo.advances = 0

/-- A call, cut off or not, or what anyone else does to HEAD, the index and the working files
between two calls. -/
inductive Turn (allowed : Repo → Files → String → Prop) : Repo → Repo → Prop
  | call {repo repo' : Repo} {files : Files} {message : String}
      {outcome : Option (Except Error Commit)} : allowed repo files message →
      Ran effect (commitFiles sha256 files message) repo outcome repo' → Turn allowed repo repo'
  | edit {repo repo' : Repo} : repo'.receipt = repo.receipt →
      repo'.advances = (if repo'.head = repo.head then repo.advances else 0) →
      Turn allowed repo repo'

def CrashSafe (allowed : Repo → Files → String → Prop) : Prop :=
  ∀ repo, Reachable Fresh (Turn sha256 allowed) repo →
    Safe sha256 repo ∧ ∀ files message outcome repo', allowed repo files message →
      Ran effect (commitFiles sha256 files message) repo outcome repo' →
      CallSafe sha256 repo repo' files message outcome

/-! ### A call that passes its tests -/

theorem child_ne (tree : Tree) (parent : Commit) (message : String) :
    Commit.child tree parent message ≠ parent := by
  intro same
  have size := congrArg sizeOf same
  simp only [Commit.child.sizeOf_spec] at size
  omega

structure Sound (repo : Repo) : Prop where
  change : ∀ receipt, repo.receipt = some receipt →
    ∃ files message, receipt = receiptOf sha256 receipt.base files message
  fresh : repo.receipt = none → repo.advances = 0
  counted : ∀ receipt, repo.receipt = some receipt → repo.head = receipt.base → repo.advances = 0
  once : repo.advances ≤ 1

section Tests

variable {sha256} {repo : Repo} {files : Files} {message : String}

theorem pending_sealed {receipt : Receipt} (sealed : repo.receipt = some receipt) :
    repo.pending sha256 files message = receipt := by
  unfold Repo.pending
  rw [sealed]
  rfl

theorem Sound.pending (sound : Sound sha256 repo) : ∃ base files₀ message₀,
    repo.pending sha256 files message = receiptOf sha256 base files₀ message₀ := by
  cases sealed : repo.receipt with
  | none =>
      refine ⟨repo.head, files, message, ?_⟩
      unfold Repo.pending
      rw [sealed]
      rfl
  | some receipt =>
      obtain ⟨files₀, message₀, made⟩ := sound.change receipt sealed
      rw [pending_sealed sealed]
      exact ⟨_, files₀, message₀, made⟩

/-- The digests name the files, and the commit has their content: no other request passes. -/
theorem Passes.same (passes : Passes sha256 repo files message) {base : Commit} {files₀ : Files}
    {message₀ : String}
    (pending : repo.pending sha256 files message = receiptOf sha256 base files₀ message₀) :
    files₀.items.Perm files.items ∧ message₀ = message := by
  have matched := passes.sealed
  have integrity := passes.integrity
  rw [pending] at matched integrity
  rw [receiptOf_files, receiptOf_message] at matched
  refine ⟨?_, matched.2⟩
  have included : files.items ⊆ files₀.items := by
    rintro ⟨name, data⟩ member
    have listed : name ∈ files₀.keys := by
      rw [← map_fst_checksums sha256, (matched.1.map Prod.fst).mem_iff]
      change name ∈ (checksums sha256 files).map Prod.fst
      rw [map_fst_checksums]
      exact List.mem_map_of_mem member
    obtain ⟨⟨_, data₀⟩, member₀, rfl⟩ := List.mem_map.mp listed
    have shown := integrity _ member
    rw [receiptOf_target_show, lookup_of_mem files₀.distinct member₀] at shown
    cases shown
    exact member₀
  have length : files₀.items.length = files.items.length := by
    have equal := matched.1.length_eq
    unfold checksums at equal
    simpa using equal
  exact ((files.distinct.of_map _).subperm included).perm_of_length_le (Nat.le_of_eq length) |>.symm

/-- Outside the requested files the index holds what the new commit does. -/
theorem Passes.index_elsewhere (passes : Passes sha256 repo files message)
    (sound : Sound sha256 repo) {name : String} (absent : name ∉ files.keys) :
    (repo.pending sha256 files message).target.show name = repo.index.lookup name := by
  have clean : name ∉ repo.dirtyPaths := fun dirty => absent (passes.related dirty)
  have staged : repo.index.lookup name = repo.head.show name := by
    by_contra differs
    apply clean
    refine List.mem_append_right _ (List.mem_filter.mpr ⟨?_, by simpa using differs⟩)
    by_contra unlisted
    rw [List.mem_append, not_or] at unlisted
    apply differs
    unfold Commit.show
    rw [lookup_none unlisted.1, lookup_none unlisted.2]
  obtain ⟨base, files₀, message₀, pending⟩ := @Sound.pending sha256 repo files message sound
  have unchanged : (repo.pending sha256 files message).target.show name =
      (repo.pending sha256 files message).base.show name := by
    have absent₀ : name ∉ files₀.items.map Prod.fst := fun member =>
      absent (((passes.same pending).1.map Prod.fst).mem_iff.mp member)
    rw [pending, receiptOf_target_show, lookup_none absent₀]
    rfl
  rw [staged, unchanged]
  rcases passes.head with old | new
  · rw [old]
  · rw [new, unchanged]

end Tests

/-- What a call has done by the time it has published some of the files. -/
structure Under (repo s : Repo) (files : Files) (message : String) : Prop where
  receipt : s.receipt = some (repo.pending sha256 files message)
  work : ∀ name, s.work name = repo.work name ∨ ∃ data, (name, data) ∈ files.items
  index : ∀ name, name ∉ files.keys → s.index.lookup name = repo.index.lookup name
  head : s.head = repo.head ∧ s.advances = repo.advances ∨
    repo.head = (repo.pending sha256 files message).base ∧
      s.head = (repo.pending sha256 files message).target ∧ s.advances = repo.advances + 1

section Call

variable {sha256} {repo s : Repo} {files : Files} {message : String}
  {outcome : Option (Except Error Commit)}

theorem CallSafe.unchanged (failed : ∀ target, outcome ≠ some (.ok target)) :
    CallSafe sha256 repo repo files message outcome where
  completes target ended := absurd ended (failed target)
  head := Or.inl ⟨rfl, rfl⟩
  work name changed := absurd rfl changed
  index name changed := absurd rfl changed
  receipt := Or.inl rfl
  rejects _ _ _ _ _ := ⟨rfl, failed⟩

/-- The commit was prepared and its receipt written. -/
theorem CallSafe.prepared (fresh : repo.receipt = none)
    (failed : ∀ target, outcome ≠ some (.ok target)) :
    CallSafe sha256 repo { repo with receipt := some (receiptOf sha256 repo.head files message) }
      files message outcome where
  completes target ended := absurd ended (failed target)
  head := Or.inl ⟨rfl, rfl⟩
  work name changed := absurd rfl changed
  index name changed := absurd rfl changed
  receipt := Or.inr ⟨fresh, rfl⟩
  rejects base files₀ message₀ sealed := by
    rw [fresh] at sealed
    cases sealed

theorem Under.callSafe (under : Under sha256 repo s files message) (sound : Sound sha256 repo)
    (passes : Passes sha256 repo files message) (recognised : Recognised sha256 repo files message)
    (completes : ∀ target, outcome = some (.ok target) →
      target = (repo.pending sha256 files message).target ∧ s.head = target ∧
        s.index = target.tree ∧ ∀ entry ∈ files.items, s.work entry.1 = Node.of entry.2) :
    CallSafe sha256 repo s files message outcome where
  completes target ended := by
    obtain ⟨rfl, rest⟩ := completes target ended
    exact ⟨⟨_, under.receipt, rfl⟩, rest⟩
  head := by
    rcases under.head with same | moved
    · exact Or.inl same
    · exact Or.inr ⟨_, under.receipt, moved⟩
  work name changed := by
    rcases under.work name with same | ⟨data, member⟩
    · exact absurd same changed
    · exact ⟨data, member, (recognised passes _ member).1⟩
  index name changed := by
    by_cases listed : name ∈ files.keys
    · obtain ⟨⟨_, data⟩, member, rfl⟩ := List.mem_map.mp listed
      exact ⟨data, member, (recognised passes _ member).2⟩
    · exact absurd (under.index name listed) changed
  receipt := by
    rw [under.receipt]
    cases sealed : repo.receipt with
    | none =>
        refine Or.inr ⟨rfl, ?_⟩
        unfold Repo.pending
        rw [sealed]
        rfl
    | some receipt => exact Or.inl (congrArg some (pending_sealed sealed))
  rejects base files₀ message₀ sealed differs :=
    absurd (passes.same (pending_sealed sealed)) differs

end Call

/-! ### The program, part by part -/

section Parts

variable {sha256} {C : Repo → Prop} {E : Error → Repo → Prop} {s : Repo}

theorem holds_perform {β : Type} {Q : β → Repo → Prop} (op : Op) (next : op.Answer → Script β) :
    Holds effect C Q E (perform op >>= next) s ↔
      C s ∧ Holds effect C Q E (next (act s op).2) (act s op).1 := by
  constructor
  · intro holds
    exact ⟨holds.1, holds.2 _ _ rfl⟩
  · rintro ⟨now, later⟩
    refine ⟨now, ?_⟩
    intro s' answer acted
    rw [show act s op = (s', answer) from acted] at later
    exact later

theorem holds_verify {receipt : Receipt} (now : C s) (stopped : ∀ reason, E reason s)
    (items : List (String × Option Bytes)) :
    Holds effect C (fun _ s' => s' = s ∧ ∀ entry ∈ items, receipt.target.show entry.1 = entry.2 ∧
      Versioned ((s.work entry.1).read LIMIT) (Node.of (receipt.base.show entry.1))
        (Node.of entry.2)) E (verify receipt items) s := by
  induction items with
  | nil => exact ⟨rfl, by simp⟩
  | cons entry rest ih =>
      obtain ⟨name, data⟩ := entry
      unfold verify
      split
      · exact stopped _
      · next shown =>
        rw [holds_perform]
        refine ⟨now, ?_⟩
        dsimp only [act]
        split
        · exact stopped _
        · split
          · exact stopped _
          · next expected =>
            refine ih.imp ?_ (fun _ _ h => h)
            rintro _ _ ⟨rfl, others⟩
            refine ⟨rfl, List.forall_mem_cons.mpr ⟨⟨not_not.mp shown, ?_⟩, others⟩⟩
            rw [not_and_or, not_not, not_not] at expected
            exact expected

end Parts

section Writing

variable {sha256} {repo s : Repo} {files : Files} {message : String} {C : Repo → Prop}
  {E : Error → Repo → Prop}

theorem Under.write (under : Under sha256 repo s files message) {name : String}
    {data : Option Bytes} (member : (name, data) ∈ files.items) (node : Node) :
    Under sha256 repo (s.write name node) files message where
  receipt := under.receipt
  work other := by
    by_cases same : other = name
    · subst same
      exact Or.inr ⟨data, member⟩
    · rw [show (s.write name node).work other = s.work other from Function.update_of_ne same _ _]
      exact under.work other
  index := under.index
  head := under.head

theorem holds_publishAll (now : ∀ s, Under sha256 repo s files message → C s)
    (items : List (String × Option Bytes)) (distinct : (items.map Prod.fst).Nodup)
    (within : items ⊆ files.items) (under : Under sha256 repo s files message) :
    Holds effect C (fun _ s' => Under sha256 repo s' files message ∧ s'.head = s.head ∧
      (∀ entry ∈ items, s'.work entry.1 = Node.of entry.2) ∧
      ∀ name, name ∉ items.map Prod.fst → s'.work name = s.work name) E (publishAll items) s := by
  induction items generalizing s with
  | nil => exact ⟨under, rfl, by simp, fun _ _ => rfl⟩
  | cons entry rest ih =>
      obtain ⟨name, data⟩ := entry
      rw [List.map_cons, List.nodup_cons] at distinct
      rw [List.cons_subset] at within
      have written : Holds effect C (fun _ s' => Under sha256 repo s' files message ∧
          s'.head = s.head ∧ (∀ entry ∈ (name, data) :: rest, s'.work entry.1 = Node.of entry.2) ∧
          ∀ other, other ∉ ((name, data) :: rest).map Prod.fst → s'.work other = s.work other) E
          (publishAll rest) (s.write name (Node.of data)) := by
        refine (ih distinct.2 within.2 (under.write within.1 _)).imp ?_ (fun _ _ h => h)
        rintro _ s' ⟨under', head, published, kept⟩
        refine ⟨under', head, List.forall_mem_cons.mpr ⟨?_, published⟩, ?_⟩
        · rw [kept name distinct.1]
          exact Function.update_self _ _ _
        · intro other absent
          rw [List.map_cons, List.mem_cons, not_or] at absent
          rw [kept other absent.2]
          exact Function.update_of_ne absent.1 _ _
      cases data with
      | none =>
          unfold publishAll
          rw [holds_perform]
          exact ⟨now s under, written⟩
      | some data =>
          unfold publishAll
          rw [holds_perform]
          exact ⟨now s under, written⟩

/-- With the files published, HEAD is moved from the base only, and the index comes last. -/
theorem holds_advance (sound : Sound sha256 repo) (passes : Passes sha256 repo files message)
    (now : ∀ s, Under sha256 repo s files message → C s) (under : Under sha256 repo s files message)
    (same : s.head = repo.head)
    (published : ∀ entry ∈ files.items, s.work entry.1 = Node.of entry.2) :
    Holds effect C (fun target s' => Under sha256 repo s' files message ∧
      target = (repo.pending sha256 files message).target ∧ s'.head = target ∧
        s'.index = target.tree ∧ ∀ entry ∈ files.items, s'.work entry.1 = Node.of entry.2) E
      (advance (repo.pending sha256 files message)) s := by
  have indexed : ∀ name, name ∉ files.keys →
      (repo.pending sha256 files message).target.tree.lookup name = repo.index.lookup name :=
    fun name absent => passes.index_elsewhere sound absent
  unfold advance
  rw [holds_perform]
  refine ⟨now s under, ?_⟩
  change Holds effect C _ E (if s.head = _ then _ else _) s
  split
  · next base =>
    have moved : Under sha256 repo { s with
        head := (repo.pending sha256 files message).target, advances := s.advances + 1 }
        files message := by
      refine ⟨under.receipt, under.work, under.index, Or.inr ⟨same ▸ base, rfl, ?_⟩⟩
      rcases under.head with kept | already
      · exact congrArg (· + 1) kept.2
      · obtain ⟨b, files₀, message₀, pending⟩ := @Sound.pending sha256 repo files message sound
        rw [already.2.1, pending] at base
        exact absurd base (child_ne _ _ _)
    rw [holds_perform]
    refine ⟨now s under, ?_⟩
    rw [show act s (Op.updateRef _ _) = _ from if_pos base]
    change Holds effect C _ E (perform (Op.readTree _) >>= _) _
    rw [holds_perform]
    refine ⟨now _ moved, ?_⟩
    exact ⟨⟨moved.receipt, moved.work, indexed, moved.head⟩, rfl, rfl, rfl, published⟩
  · next other =>
    have target : s.head = (repo.pending sha256 files message).target := by
      rcases passes.head with old | new
      · exact absurd (same.trans old) other
      · exact same.trans new
    rw [holds_perform]
    refine ⟨now s under, ?_⟩
    exact ⟨⟨under.receipt, under.work, indexed, under.head⟩, rfl, target, rfl, published⟩

end Writing

section Calls

variable {sha256} {repo repo' : Repo} {files : Files} {message : String}

/-- The repository once the receipt of the call is there. -/
def Repo.begun (sha256 : Bytes → String) (repo : Repo) (files : Files) (message : String) : Repo :=
  { repo with receipt := some (repo.pending sha256 files message) }

theorem begun_sealed {receipt : Receipt} (sealed : repo.receipt = some receipt) :
    repo.begun sha256 files message = repo := by
  unfold Repo.begun
  rw [pending_sealed sealed, ← sealed]

theorem begun_safe {outcome : Option (Except Error Commit)}
    (failed : ∀ target, outcome ≠ some (.ok target)) :
    CallSafe sha256 repo (repo.begun sha256 files message) files message outcome := by
  cases sealed : repo.receipt with
  | none =>
      have prepared := @CallSafe.prepared sha256 repo files message outcome sealed failed
      unfold Repo.begun Repo.pending
      rw [sealed]
      exact prepared
  | some receipt =>
      rw [begun_sealed sealed]
      exact CallSafe.unchanged failed

theorem holds_prepare {C : Repo → Prop} {E : Error → Repo → Prop} (fresh : repo.receipt = none)
    (now : C repo) (stopped : repo.dirtyPaths ≠ [] → ∀ reason, E reason repo) :
    Holds effect C (fun receipt s => receipt = repo.pending sha256 files message ∧
      s = repo.begun sha256 files message ∧ repo.dirtyPaths = []) E
      (prepare sha256 files message) repo := by
  have pending : repo.pending sha256 files message = receiptOf sha256 repo.head files message := by
    unfold Repo.pending
    rw [fresh]
    rfl
  unfold prepare
  rw [holds_perform]
  refine ⟨now, ?_⟩
  change Holds effect _ _ _ (if repo.dirtyPaths ≠ [] then _ else _) _
  split
  · next dirty => exact stopped dirty _
  · next clean =>
    rw [holds_perform]
    refine ⟨now, ?_⟩
    rw [holds_perform]
    refine ⟨now, pending.symm, ?_, not_not.mp clean⟩
    unfold Repo.begun
    rw [pending]
    rfl

theorem holds_finish (sound : Sound sha256 repo) (recognised : Recognised sha256 repo files message)
    (clean : repo.receipt = none → repo.dirtyPaths = []) :
    Holds effect (fun s => CallSafe sha256 repo s files message none)
      (fun target s => CallSafe sha256 repo s files message (some (.ok target)))
      (fun reason s => CallSafe sha256 repo s files message (some (.error reason)))
      (finish sha256 files message (repo.pending sha256 files message))
      (repo.begun sha256 files message) := by
  have now : CallSafe sha256 repo (repo.begun sha256 files message) files message none :=
    begun_safe (by simp)
  have stopped : ∀ reason, CallSafe sha256 repo (repo.begun sha256 files message) files message
      (some (.error reason)) := fun reason => begun_safe (by simp)
  unfold finish
  split
  · exact stopped _
  · next sealed =>
    rw [not_or, not_not, not_not] at sealed
    rw [holds_perform]
    refine ⟨now, ?_⟩
    change Holds effect _ _ _ (if repo.head ≠ _ ∧ repo.head ≠ _ then _ else _) _
    split
    · exact stopped _
    · next head =>
      rw [not_and_or, not_not, not_not] at head
      rw [holds_perform]
      refine ⟨now, ?_⟩
      change Holds effect _ _ _ (if ¬ repo.dirtyPaths ⊆ files.keys then _ else _) _
      split
      · exact stopped _
      · next related =>
        refine (holds_verify now stopped files.items).bind ?_
        rintro _ _ ⟨rfl, verified⟩
        have passes : Passes sha256 repo files message :=
          ⟨clean, sealed, head, not_not.mp related, fun entry member => (verified entry member).1,
            fun entry member => (verified entry member).2⟩
        have under : Under sha256 repo (repo.begun sha256 files message) files message :=
          ⟨rfl, fun _ => Or.inl rfl, fun _ _ => rfl, Or.inl ⟨rfl, rfl⟩⟩
        have safe : ∀ s, Under sha256 repo s files message →
            CallSafe sha256 repo s files message none :=
          fun s under => under.callSafe sound passes recognised (by simp)
        refine (holds_publishAll safe files.items files.distinct (List.Subset.refl _) under).bind ?_
        rintro _ s ⟨under, same, published, -⟩
        refine (holds_advance sound passes safe under same published).imp ?_ (fun _ _ h => h)
        rintro target s' ⟨under', ended⟩
        refine under'.callSafe sound passes recognised ?_
        rintro target' ended'
        cases ended'
        exact ended

theorem holds_commitFiles (sound : Sound sha256 repo)
    (recognised : Recognised sha256 repo files message) :
    Holds effect (fun s => CallSafe sha256 repo s files message none)
      (fun target s => CallSafe sha256 repo s files message (some (.ok target)))
      (fun reason s => CallSafe sha256 repo s files message (some (.error reason)))
      (commitFiles sha256 files message) repo := by
  have now : CallSafe sha256 repo repo files message none := CallSafe.unchanged (by simp)
  have finished := holds_finish sound recognised
  unfold commitFiles
  rw [holds_perform]
  refine ⟨now, ?_⟩
  dsimp only [act]
  cases sealed : repo.receipt with
  | some receipt =>
      rw [begun_sealed sealed, pending_sealed sealed] at finished
      exact finished (by simp [sealed])
  | none =>
      refine (holds_prepare sealed now (fun _ _ => CallSafe.unchanged (by simp))).bind ?_
      rintro _ _ ⟨rfl, rfl, clean⟩
      exact finished (fun _ => clean)

theorem call_safe (sound : Sound sha256 repo) (recognised : Recognised sha256 repo files message)
    {outcome : Option (Except Error Commit)}
    (ran : Ran effect (commitFiles sha256 files message) repo outcome repo') :
    CallSafe sha256 repo repo' files message outcome := by
  have weaken : ∀ (s : Repo) (outcome : Option (Except Error Commit)),
      CallSafe sha256 repo s files message outcome → CallSafe sha256 repo s files message none :=
    fun s outcome safe => { safe with
      completes := by simp
      rejects := fun base files₀ message₀ sealed differs =>
        ⟨(safe.rejects base files₀ message₀ sealed differs).1, by simp⟩ }
  exact (holds_commitFiles sound recognised).ran ran
    (P := fun outcome s => CallSafe sha256 repo s files message outcome) (fun _ safe => safe)
    (fun _ s safe => ⟨weaken s _ safe, safe⟩) (fun _ s safe => ⟨weaken s _ safe, safe⟩)

/-! ### Runs -/

theorem Sound.call (sound : Sound sha256 repo) {outcome : Option (Except Error Commit)}
    (safe : CallSafe sha256 repo repo' files message outcome) : Sound sha256 repo' := by
  have change : ∀ receipt, repo'.receipt = some receipt →
      (∃ files message, receipt = receiptOf sha256 receipt.base files message) ∧
        (repo.head = receipt.base → repo.advances = 0) := by
    intro receipt stored
    rcases safe.receipt with same | ⟨fresh, sealed⟩
    · rw [same] at stored
      exact ⟨sound.change receipt stored, sound.counted receipt stored⟩
    · rw [sealed] at stored
      cases stored
      exact ⟨⟨files, message, rfl⟩, fun _ => sound.fresh fresh⟩
  refine ⟨fun receipt stored => (change receipt stored).1, ?_, ?_, ?_⟩
  · intro absent
    rcases safe.head with kept | ⟨receipt, stored, -⟩
    · rcases safe.receipt with same | ⟨-, sealed⟩
      · rw [kept.2]
        exact sound.fresh (same.symm.trans absent)
      · rw [sealed] at absent
        cases absent
    · rw [stored] at absent
      cases absent
  · intro receipt stored base
    rcases safe.head with kept | ⟨receipt', stored', -, moved, -⟩
    · rw [kept.2]
      exact (change receipt stored).2 (kept.1.symm.trans base)
    · rw [stored'] at stored
      cases stored
      obtain ⟨files₀, message₀, made⟩ := (change receipt stored').1
      rw [moved, made] at base
      exact absurd base (child_ne _ _ _)
  · rcases safe.head with kept | ⟨receipt, stored, base, -, counted⟩
    · rw [kept.2]
      exact sound.once
    · have zero := (change receipt stored).2 base
      omega

theorem Sound.edit (sound : Sound sha256 repo) (receipt : repo'.receipt = repo.receipt)
    (advances : repo'.advances = if repo'.head = repo.head then repo.advances else 0) :
    Sound sha256 repo' := by
  have bounded : repo'.advances ≤ repo.advances := by
    rw [advances]
    split <;> omega
  refine ⟨fun r stored => sound.change r (receipt ▸ stored), ?_, ?_, Nat.le_trans bounded sound.once⟩
  · intro absent
    have zero := sound.fresh (receipt ▸ absent)
    omega
  · intro r stored base
    rw [advances]
    split
    · next same => exact sound.counted r (receipt ▸ stored) (same ▸ base)
    · rfl

theorem Sound.safe (sound : Sound sha256 repo) : Safe sha256 repo where
  change receipt stored := by
    obtain ⟨files, message, made⟩ := sound.change receipt stored
    refine ⟨files, message, made, ⟨files.items.foldl Tree.update receipt.base.tree, ?_⟩, ?_⟩
    · exact congrArg Receipt.target made
    · intro name
      have shown := receiptOf_target_show sha256 receipt.base files message name
      rw [← made] at shown
      exact shown
  once := sound.once

end Calls

/-! ### Calls that meet foreign content -/

section Foreign

variable {sha256} {repo : Repo} {files : Files} {message : String}

theorem holds_verify_passes {C : Repo → Prop} {E : Error → Repo → Prop} {s : Repo} (now : C s)
    {receipt : Receipt} (items : List (String × Option Bytes))
    (shown : ∀ entry ∈ items, receipt.target.show entry.1 = entry.2)
    (expected : ∀ entry ∈ items, Versioned ((s.work entry.1).read LIMIT)
      (Node.of (receipt.base.show entry.1)) (Node.of entry.2)) :
    Holds effect C (fun _ s' => s' = s) E (verify receipt items) s := by
  induction items with
  | nil => rfl
  | cons entry rest ih =>
      obtain ⟨name, data⟩ := entry
      rw [List.forall_mem_cons] at shown expected
      have regular : (s.work name).read LIMIT ≠ .other := by
        intro irregular
        have version := expected.1
        rw [irregular] at version
        rcases version with old | new
        · cases held : receipt.base.show name <;> simp [Node.of, held] at old
        · cases data <;> cases new
      unfold verify
      rw [if_neg (not_not.mpr shown.1), holds_perform]
      refine ⟨now, ?_⟩
      dsimp only [act]
      split
      · next irregular => exact absurd irregular regular
      · rw [if_neg (by rw [not_and_or, not_not, not_not]; exact expected.1)]
        exact ih shown.2 expected.2

/-- Nothing stops a call that passes its tests. -/
theorem Passes.completes (passes : Passes sha256 repo files message) (sound : Sound sha256 repo) :
    ∃ target repo', Ran effect (commitFiles sha256 files message) repo (some (.ok target)) repo' ∧
      target = (repo.pending sha256 files message).target ∧ repo'.index = target.tree ∧
      ∀ entry ∈ files.items, repo'.work entry.1 = Node.of entry.2 := by
  have finished : Holds effect (fun _ => True) (fun target repo' =>
      target = (repo.pending sha256 files message).target ∧ repo'.index = target.tree ∧
        ∀ entry ∈ files.items, repo'.work entry.1 = Node.of entry.2) (fun _ _ => False)
      (finish sha256 files message (repo.pending sha256 files message))
      (repo.begun sha256 files message) := by
    have under : Under sha256 repo (repo.begun sha256 files message) files message :=
      ⟨rfl, fun _ => Or.inl rfl, fun _ _ => rfl, Or.inl ⟨rfl, rfl⟩⟩
    unfold finish
    rw [if_neg (by rw [not_or, not_not, not_not]; exact passes.sealed), holds_perform]
    refine ⟨trivial, ?_⟩
    change Holds effect _ _ _ (if repo.head ≠ _ ∧ repo.head ≠ _ then _ else _) _
    rw [if_neg (by rw [not_and_or, not_not, not_not]; exact passes.head), holds_perform]
    refine ⟨trivial, ?_⟩
    change Holds effect _ _ _ (if ¬ repo.dirtyPaths ⊆ files.keys then _ else _) _
    rw [if_neg (not_not.mpr passes.related)]
    refine (holds_verify_passes (C := fun _ => True)
      (s := repo.begun sha256 files message) trivial files.items passes.integrity passes.expected).bind ?_
    rintro _ _ rfl
    refine (holds_publishAll (fun _ _ => trivial) files.items files.distinct (List.Subset.refl _)
      under).bind ?_
    rintro _ s ⟨under, same, published, -⟩
    refine (holds_advance sound passes (fun _ _ => trivial) under same published).imp ?_
      (fun _ _ h => h)
    rintro target s' ⟨-, named, -, indexed, published⟩
    exact ⟨named, indexed, published⟩
  have holds : Holds effect (fun _ => True) (fun target repo' =>
      target = (repo.pending sha256 files message).target ∧ repo'.index = target.tree ∧
        ∀ entry ∈ files.items, repo'.work entry.1 = Node.of entry.2) (fun _ _ => False)
      (commitFiles sha256 files message) repo := by
    unfold commitFiles
    rw [holds_perform]
    refine ⟨trivial, ?_⟩
    dsimp only [act]
    cases sealed : repo.receipt with
    | some receipt =>
        rw [begun_sealed sealed, pending_sealed sealed] at finished
        rw [pending_sealed sealed]
        exact finished
    | none =>
        refine (holds_prepare sealed trivial (fun dirty => absurd (passes.clean sealed) dirty)).bind ?_
        rintro _ _ ⟨rfl, rfl, -⟩
        exact finished
  rcases holds.ends (fun s op => ⟨(act s op).1, (act s op).2, rfl⟩) with
    ⟨target, repo', ran, ended⟩ | ⟨_, _, _, impossible⟩
  · exact ⟨target, repo', ran, ended⟩
  · exact impossible.elim

/-- A call that passes its tests on content that is neither version overwrites it. -/
theorem overwrites_of_not_recognised (sound : Sound sha256 repo)
    (foreign : ¬ Recognised sha256 repo files message) : ∃ outcome repo',
    Ran effect (commitFiles sha256 files message) repo outcome repo' ∧
      ¬ CallSafe sha256 repo repo' files message outcome := by
  unfold Recognised at foreign
  push Not at foreign
  obtain ⟨passes, ⟨name, data⟩, member, foreign⟩ := foreign
  obtain ⟨target, repo', ran, named, indexed, published⟩ := passes.completes sound
  refine ⟨_, repo', ran, fun safe => ?_⟩
  have only : ∀ data', (name, data') ∈ files.items → data' = data := by
    intro data' member'
    have found := lookup_of_mem files.distinct member'
    rw [lookup_of_mem files.distinct member] at found
    cases found
    rfl
  have work : Versioned (repo.work name)
      (Node.of ((repo.pending sha256 files message).base.show name)) (Node.of data) := by
    by_cases kept : repo'.work name = repo.work name
    · exact Or.inr (kept.symm.trans (published _ member))
    · obtain ⟨data', member', version⟩ := safe.work name kept
      rw [only data' member'] at version
      exact version
  have staged : repo'.index.lookup name = data := by
    rw [indexed, named]
    exact passes.integrity _ member
  refine foreign work ?_
  by_cases kept : repo'.index.lookup name = repo.index.lookup name
  · exact Or.inr (kept.symm.trans staged)
  · obtain ⟨data', member', version⟩ := safe.index name kept
    rw [only data' member'] at version
    exact version

end Foreign

/-- Every run is safe exactly where no call that passes its tests meets foreign content. -/
theorem publication_is_crash_safe_iff (allowed : Repo → Files → String → Prop) :
    CrashSafe sha256 allowed ↔ ∀ repo, Reachable Fresh (Turn sha256 allowed) repo →
      ∀ files message, allowed repo files message → Recognised sha256 repo files message := by
  have sound_fresh : ∀ repo, Fresh repo → Sound sha256 repo := by
    rintro repo ⟨fresh, zero⟩
    refine ⟨?_, fun _ => zero, fun _ _ _ => zero, by omega⟩
    intro receipt stored
    rw [fresh] at stored
    cases stored
  have sound_turn : ∀ s s', Reachable Fresh (Turn sha256 allowed) s → Sound sha256 s →
      (∀ files message outcome s', allowed s files message →
        Ran effect (commitFiles sha256 files message) s outcome s' →
        CallSafe sha256 s s' files message outcome) →
      Turn sha256 allowed s s' → Sound sha256 s' := by
    intro s s' reach sound safe turn
    cases turn with
    | call permitted ran => exact sound.call (safe _ _ _ _ permitted ran)
    | edit receipt advances => exact sound.edit receipt advances
  constructor
  · intro safe repo reach
    have sound : Sound sha256 repo := by
      induction reach with
      | initial fresh => exact sound_fresh _ fresh
      | step reach turn ih => exact sound_turn _ _ reach ih (safe _ reach).2 turn
    intro files message permitted
    by_contra foreign
    obtain ⟨outcome, repo', ran, overwrites⟩ := overwrites_of_not_recognised sound foreign
    exact overwrites ((safe repo reach).2 files message outcome repo' permitted ran)
  · intro recognised repo reach
    have sound : Sound sha256 repo := by
      induction reach with
      | initial fresh => exact sound_fresh _ fresh
      | step reach turn ih =>
          exact sound_turn _ _ reach ih (fun files message outcome s' permitted ran =>
            call_safe ih (recognised _ reach files message permitted) ran) turn
    exact ⟨sound.safe, fun files message outcome repo' permitted ran =>
      call_safe sound (recognised repo reach files message permitted) ran⟩

/-- A file of the working tree that nobody has committed, one byte longer than what is read. -/
def overgrown : Repo where
  head := .root [] "baseline"
  index := []
  work := Function.update (fun _ => .absent) "kernel.cu" (.file (List.replicate LIMIT 0 ++ [1]))
  receipt := none
  advances := 0

def overgrownFiles : Files where
  items := [("kernel.cu", some (List.replicate LIMIT 0))]
  distinct := by simp

theorem overgrown_not_recognised (message : String) :
    ¬ Recognised sha256 overgrown overgrownFiles message := by
  have pending : overgrown.pending sha256 overgrownFiles message =
      receiptOf sha256 overgrown.head overgrownFiles message := rfl
  have held : overgrown.work "kernel.cu" = .file (List.replicate LIMIT 0 ++ [1]) := by
    simp only [overgrown, Function.update_self]
  have passes : Passes sha256 overgrown overgrownFiles message := by
    refine ⟨fun _ => rfl, ⟨List.Perm.refl _, rfl⟩, Or.inl rfl, List.nil_subset _, ?_, ?_⟩
    · intro entry member
      obtain rfl := List.mem_singleton.mp member
      rw [pending, receiptOf_target_show, lookup_of_mem overgrownFiles.distinct member]
      rfl
    · intro entry member
      obtain rfl := List.mem_singleton.mp member
      refine Or.inr ?_
      rw [held]
      exact congrArg Node.file (List.take_left' List.length_replicate)
  intro recognised
  rcases (recognised passes _ (List.mem_singleton_self _)).1 with old | new
  · rw [held, pending] at old
    cases old
  · rw [held] at new
    have length := congrArg List.length (Node.file.inj new)
    rw [List.length_append, List.length_singleton] at length
    omega

theorem untracked_file_overwritten : Fresh overgrown ∧ ∃ outcome repo',
    Ran effect (commitFiles (fun data => String.ofList (data.map fun byte => Char.ofNat byte.toNat))
        overgrownFiles "search epoch 1") overgrown outcome repo' ∧
      ¬ CallSafe (fun data => String.ofList (data.map fun byte => Char.ofNat byte.toNat)) overgrown
        repo' overgrownFiles "search epoch 1" outcome := by
  refine ⟨⟨rfl, rfl⟩, overwrites_of_not_recognised ?_ (overgrown_not_recognised _ _)⟩
  refine ⟨?_, fun _ => rfl, fun _ _ _ => rfl, Nat.zero_le 1⟩
  intro receipt stored
  cases stored

end AtrexAgent.Publication
