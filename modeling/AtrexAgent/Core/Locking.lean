import AtrexAgent.Core.Resume
import AtrexAgent.Library.Transition

/-! Processes that create or resume the lock of one workspace, one system call at a time. -/

namespace AtrexAgent.Lock

open AtrexAgent.Boot
open AtrexAgent.Json
open AtrexAgent.Schema (Floats)

variable {F : Type}

def LOCK_NAME : String := "composition.json"

/-- The names that `mkstemp` gives. -/
def isTemporary (name : String) : Bool := ".composition-".toList.isPrefixOf name.toList

inductive Mode where
  | create
  | resume
  | other
  deriving DecidableEq

/-- The directory of the lock: names, the files that they stand for, and what is in the files. -/
structure Disk where
  names : String → Option Nat
  contents : Nat → Text
  next : Nat

def Disk.lock (disk : Disk) : Option Text := (disk.names LOCK_NAME).map disk.contents

def Disk.rename (disk : Disk) (name : String) (file : Option Nat) : Disk := { disk with names := Function.update disk.names name file }

def Disk.link (disk : Disk) (name : String) (file : Nat) : Disk := disk.rename name (some file)

def Disk.unlink (disk : Disk) (name : String) : Disk := disk.rename name none

/-- `mkstemp` -/
def Disk.make (disk : Disk) (name : String) : Disk where
  names := Function.update disk.names name (some disk.next)
  contents := Function.update disk.contents disk.next []
  next := disk.next + 1

def Disk.append (disk : Disk) (file : Nat) (text : Text) : Disk :=
  { disk with contents := Function.update disk.contents file (disk.contents file ++ text) }

theorem Disk.rename_names (disk : Disk) (name : String) (file : Option Nat) (other : String) :
    (disk.rename name file).names other = if other = name then file else disk.names other := Function.update_apply _ _ _ _

theorem Disk.make_names (disk : Disk) (name other : String) :
    (disk.make name).names other = if other = name then some disk.next else disk.names other := Function.update_apply _ _ _ _

theorem Disk.make_contents (disk : Disk) (name : String) (file : Nat) :
    (disk.make name).contents file = if file = disk.next then [] else disk.contents file := Function.update_apply _ _ _ _

theorem Disk.append_contents (disk : Disk) (file : Nat) (text : Text) (other : Nat) :
    (disk.append file text).contents other = if other = file then disk.contents file ++ text else disk.contents other :=
  Function.update_apply _ _ _ _

/-- What a process asks for. -/
structure Request (F : Type) where
  mode : Mode
  current : Dict F

abbrev Outcome := Except Refusal (List String)

/-- Where a process is in `reconcile`. -/
inductive Stage where
  | looking
  | reading
  | staging
  | writing (name : String) (file : Nat) (rest : Text)
  | linking (name : String) (file : Nat)
  | cleaning (name : String) (outcome : Outcome)
  | returned (outcome : Outcome)
  | killed

structure System (F : Type) where
  disk : Disk
  procs : Nat → Option (Request F × Stage)

def System.put (s : System F) (p : Nat) (request : Request F) (stage : Stage) (disk : Disk) : System F where
  disk := disk
  procs := Function.update s.procs p (some (request, stage))

section Runs

variable [FloatText F] (floats : Floats F) (printing : Printing F) (path : String)

/-- What `reconcile` does with what it read. -/
def afterRead (request : Request F) (text : Option Text) : Stage :=
  match read floats printing path text, request.mode with
  | .error refusal, _ => .returned (.error refusal)
  | .ok (some _), .create => .returned (.error (.composition path "create requires an unlocked workspace"))
  | .ok none, .create => .staging
  | .ok none, .resume => .returned (.error (.composition path "resume requires an existing version 2 lock"))
  | .ok (some stored), .resume => .returned (resume floats path stored request.current)
  | .ok _, .other => .returned (.error (.value "lock mode must be create or resume"))

/-- One system call of one process, or the start or the end of one. -/
inductive Step (s : System F) : System F → Prop
  | start (p : Nat) (request : Request F) (unused : s.procs p = none) : Step s (s.put p request .looking s.disk)
  | absent (p : Nat) (request : Request F) (at_stage : s.procs p = some (request, .looking)) (absent : s.disk.names LOCK_NAME = none) :
      Step s (s.put p request (afterRead floats printing path request none) s.disk)
  | present (p : Nat) (request : Request F) (file : Nat) (at_stage : s.procs p = some (request, .looking))
      (present : s.disk.names LOCK_NAME = some file) : Step s (s.put p request .reading s.disk)
  | read (p : Nat) (request : Request F) (file : Nat) (at_stage : s.procs p = some (request, .reading))
      (present : s.disk.names LOCK_NAME = some file) :
      Step s (s.put p request (afterRead floats printing path request (some (s.disk.contents file))) s.disk)
  | unreadable (p : Nat) (request : Request F) (error : String) (at_stage : s.procs p = some (request, .reading)) :
      Step s (s.put p request (.returned (.error (.composition path ("unreadable composition lock: " ++ error)))) s.disk)
  | unstaged (p : Nat) (request : Request F) (at_stage : s.procs p = some (request, .staging)) :
      Step s (s.put p request (.returned (.error .os)) s.disk)
  | stage (p : Nat) (request : Request F) (name : String) (at_stage : s.procs p = some (request, .staging))
      (temporary : isTemporary name = true) (fresh : s.disk.names name = none) :
      Step s (s.put p request (.writing name s.disk.next (lockText request.current)) (s.disk.make name))
  | write (p : Nat) (request : Request F) (name : String) (file : Nat) (rest : Text) (count : Nat)
      (at_stage : s.procs p = some (request, .writing name file rest)) :
      Step s (s.put p request (.writing name file (rest.drop count)) (s.disk.append file (rest.take count)))
  | close (p : Nat) (request : Request F) (name : String) (file : Nat) (at_stage : s.procs p = some (request, .writing name file [])) :
      Step s (s.put p request (.linking name file) s.disk)
  | unwritten (p : Nat) (request : Request F) (name : String) (file : Nat) (rest : Text)
      (at_stage : s.procs p = some (request, .writing name file rest)) : Step s (s.put p request (.cleaning name (.error .os)) s.disk)
  | link (p : Nat) (request : Request F) (name : String) (file : Nat) (at_stage : s.procs p = some (request, .linking name file))
      (absent : s.disk.names LOCK_NAME = none) : Step s (s.put p request (.cleaning name (.ok [])) (s.disk.link LOCK_NAME file))
  | exists (p : Nat) (request : Request F) (name : String) (file other : Nat) (at_stage : s.procs p = some (request, .linking name file))
      (present : s.disk.names LOCK_NAME = some other) :
      Step s (s.put p request (.cleaning name (.error (.composition path "composition lock appeared during create"))) s.disk)
  | unlinked (p : Nat) (request : Request F) (name : String) (file : Nat) (at_stage : s.procs p = some (request, .linking name file)) :
      Step s (s.put p request (.cleaning name (.error .os)) s.disk)
  | clean (p : Nat) (request : Request F) (name : String) (outcome : Outcome)
      (at_stage : s.procs p = some (request, .cleaning name outcome)) :
      Step s (s.put p request (.returned outcome) (s.disk.unlink name))
  | uncleaned (p : Nat) (request : Request F) (name : String) (outcome : Outcome)
      (at_stage : s.procs p = some (request, .cleaning name outcome)) : Step s (s.put p request (.returned (.error .os)) s.disk)
  | kill (p : Nat) (request : Request F) (stage : Stage) (at_stage : s.procs p = some (request, stage)) :
      Step s (s.put p request .killed s.disk)

end Runs

/-! ### What the processes hold -/

/-- The temporary name that a process has, and whether it still writes the file under it. -/
def Stage.name : Stage → Option String
  | .writing name _ _ => some name
  | .linking name _ => some name
  | .cleaning name _ => some name
  | _ => none

def Stage.file : Stage → Option Nat
  | .writing _ file _ => some file
  | .linking _ file => some file
  | _ => none

def Stage.pending : Stage → Text
  | .writing _ _ rest => rest
  | _ => []

theorem temporary_ne {name : String} (temporary : isTemporary name = true) : name ≠ LOCK_NAME := by
  rintro rfl
  revert temporary
  decide

section Invariant

variable [FloatText F]

/-- What a process that creates has on the disk. -/
structure HeldBy (disk : Disk) (request : Request F) (stage : Stage) : Prop where
  create : stage.name.isSome ∨ stage = .staging → request.mode = .create
  name : ∀ name, stage.name = some name → isTemporary name = true ∧ (disk.names name).isSome
  file : ∀ name file, stage.name = some name → stage.file = some file →
    disk.names name = some file ∧ (∀ other, disk.names other = some file → other = name) ∧
      disk.contents file ++ stage.pending = lockText request.current

structure Held (s : System F) : Prop where
  fresh : ∀ name file, s.disk.names name = some file → file < s.disk.next
  each : ∀ p request stage, s.procs p = some (request, stage) → HeldBy s.disk request stage
  apart : ∀ p q request request' stage stage' name, s.procs p = some (request, stage) → s.procs q = some (request', stage') →
    stage.name = some name → stage'.name = some name → p = q

omit [FloatText F] in
theorem put_procs (s : System F) (p : Nat) (request : Request F) (stage : Stage) (disk : Disk) (q : Nat) :
    (s.put p request stage disk).procs q = if q = p then some (request, stage) else s.procs q := Function.update_apply _ _ _ _

/-- A stage without a name holds nothing. -/
theorem heldBy_none {disk : Disk} {request : Request F} {stage : Stage} (unnamed : stage.name = none) (placed : stage = .staging → request.mode = .create) :
    HeldBy disk request stage where
  create := by
    rw [unnamed]
    rintro (named | here)
    · cases named
    · exact placed here
  name := by simp [unnamed]
  file := by simp [unnamed]

/-- A step of one process, where it leaves to the others what they hold. -/
theorem Held.put {s : System F} (held : Held s) {p : Nat} {request : Request F} {stage : Stage} {disk : Disk}
    (fresh : ∀ name file, disk.names name = some file → file < disk.next) (own : HeldBy disk request stage)
    (others : ∀ q request' stage', q ≠ p → s.procs q = some (request', stage') → HeldBy disk request' stage')
    (apart : ∀ q request' stage' name, q ≠ p → s.procs q = some (request', stage') → stage'.name = some name → stage.name ≠ some name) :
    Held (s.put p request stage disk) where
  fresh := fresh
  each q request' stage' there := by
    rw [put_procs] at there
    by_cases same : q = p
    · rw [if_pos same] at there
      cases there
      exact own
    · rw [if_neg same] at there
      exact others q request' stage' same there
  apart q q' request₁ request₂ stage₁ stage₂ name here there named named' := by
    rw [put_procs] at here there
    by_cases same : q = p <;> by_cases same' : q' = p
    · rw [same, same']
    · rw [if_pos same] at here
      rw [if_neg same'] at there
      cases here
      exact absurd named (apart q' request₂ stage₂ name same' there named')
    · rw [if_neg same] at here
      rw [if_pos same'] at there
      cases there
      exact absurd named' (apart q request₁ stage₁ name same here named)
    · rw [if_neg same] at here
      rw [if_neg same'] at there
      exact held.apart q q' request₁ request₂ stage₁ stage₂ name here there named named'

/-- A step that leaves the disk as it is and takes no new name. -/
theorem Held.stay {s : System F} (held : Held s) {p : Nat} {request : Request F} {stage : Stage} (own : HeldBy s.disk request stage)
    (kept : ∀ name, stage.name = some name → ∃ earlier, s.procs p = some (request, earlier) ∧ earlier.name = some name) :
    Held (s.put p request stage s.disk) := by
  refine held.put held.fresh own (fun q request' stage' _ there => held.each q request' stage' there) ?_
  intro q request' stage' name other there named here
  obtain ⟨earlier, before, named_before⟩ := kept name here
  exact other (held.apart q p request' request stage' earlier name there before named named_before)

theorem Held.unnamed {s : System F} (held : Held s) {p : Nat} {request : Request F} {stage : Stage} (unnamed : stage.name = none)
    (placed : stage = .staging → request.mode = .create) : Held (s.put p request stage s.disk) :=
  held.stay (heldBy_none unnamed placed) fun name named => by
    rw [unnamed] at named
    cases named

/-- A process that is done with its file. -/
theorem Held.cleaning {s : System F} (held : Held s) {p : Nat} {request : Request F} {stage : Stage} {name : String} (outcome : Outcome)
    (at_stage : s.procs p = some (request, stage)) (named : stage.name = some name) :
    Held (s.put p request (.cleaning name outcome) s.disk) := by
  have own := held.each p request stage at_stage
  refine held.stay ⟨fun _ => own.create (.inl (by rw [named]; rfl)), ?_, ?_⟩ ?_
  · rintro _ ⟨⟩
    exact own.name name named
  · rintro _ _ _ ⟨⟩
  · rintro _ ⟨⟩
    exact ⟨stage, at_stage, named⟩

variable {floats : Floats F} {printing : Printing F} {path : String}

theorem afterRead_unnamed (request : Request F) (text : Option Text) : (afterRead floats printing path request text).name = none := by
  unfold afterRead
  split <;> rfl

theorem afterRead_staging {request : Request F} {text : Option Text} (staged : afterRead floats printing path request text = .staging) :
    request.mode = .create := by
  unfold afterRead at staged
  split at staged
  · cases staged
  · cases staged
  · rename_i created
    exact created
  · cases staged
  · cases staged
  · cases staged

/-- A new file is not one that another process holds. -/
theorem HeldBy.make {disk : Disk} {request : Request F} {stage : Stage} (own : HeldBy disk request stage)
    (fresh : ∀ name file, disk.names name = some file → file < disk.next) {name : String} (unused : disk.names name = none) :
    HeldBy (disk.make name) request stage where
  create := own.create
  name other named := by
    obtain ⟨temporary, here⟩ := own.name other named
    have differs : other ≠ name := by
      rintro rfl
      rw [unused] at here
      cases here
    exact ⟨temporary, by rw [Disk.make_names, if_neg differs]; exact here⟩
  file other file named written := by
    obtain ⟨at_name, alone, text⟩ := own.file other file named written
    have below := fresh other file at_name
    have differs : other ≠ name := by
      rintro rfl
      rw [unused] at at_name
      cases at_name
    refine ⟨by rw [Disk.make_names, if_neg differs]; exact at_name, fun another here => ?_, ?_⟩
    · rw [Disk.make_names] at here
      split at here
      · have same := Option.some.inj here
        omega
      · exact alone another here
    · rw [Disk.make_contents, if_neg (Nat.ne_of_lt below)]
      exact text

/-- What is written into a file is not written into that of another process. -/
theorem HeldBy.append {disk : Disk} {request : Request F} {stage : Stage} (own : HeldBy disk request stage) {file : Nat} (text : Text)
    (other : stage.file ≠ some file) : HeldBy (disk.append file text) request stage where
  create := own.create
  name := own.name
  file name file' named written := by
    obtain ⟨at_name, alone, whole⟩ := own.file name file' named written
    refine ⟨at_name, alone, ?_⟩
    have differs : file' ≠ file := by
      rintro rfl
      exact other written
    rw [Disk.append_contents, if_neg differs]
    exact whole

/-- Another name for a file, or none for a name, is nothing to a process that holds neither. -/
theorem HeldBy.rename {disk : Disk} {request : Request F} {stage : Stage} (own : HeldBy disk request stage) {name : String} {file : Option Nat}
    (other_name : stage.name ≠ some name) (other_file : ∀ f, file = some f → stage.file ≠ some f) :
    HeldBy (disk.rename name file) request stage where
  create := own.create
  name other named := by
    obtain ⟨temporary, here⟩ := own.name other named
    have differs : other ≠ name := by
      rintro rfl
      exact other_name named
    exact ⟨temporary, by rw [Disk.rename_names, if_neg differs]; exact here⟩
  file other file' named written := by
    obtain ⟨at_name, alone, whole⟩ := own.file other file' named written
    have differs : other ≠ name := by
      rintro rfl
      exact other_name named
    refine ⟨by rw [Disk.rename_names, if_neg differs]; exact at_name, fun another here => ?_, whole⟩
    rw [Disk.rename_names] at here
    split at here
    · exact absurd written (other_file file' here)
    · exact alone another here

theorem Held.step {s s' : System F} (held : Held s) (step : Step floats printing path s s') : Held s' := by
  cases step with
  | start p request unused => exact held.unnamed rfl (by simp)
  | absent p request at_stage absent => exact held.unnamed (afterRead_unnamed _ _) afterRead_staging
  | present p request file at_stage present => exact held.unnamed rfl (by simp)
  | read p request file at_stage present => exact held.unnamed (afterRead_unnamed _ _) afterRead_staging
  | unreadable p request error at_stage => exact held.unnamed rfl (by simp)
  | unstaged p request at_stage => exact held.unnamed rfl (by simp)
  | stage p request name at_stage temporary fresh =>
      have create := (held.each p request _ at_stage).create (.inr rfl)
      refine held.put ?_ ⟨fun _ => create, ?_, ?_⟩ (fun q request' stage' _ there => (held.each q request' stage' there).make held.fresh fresh) ?_
      · intro other file here
        show file < s.disk.next + 1
        rw [Disk.make_names] at here
        split at here
        · have same := Option.some.inj here
          omega
        · exact Nat.lt_succ_of_lt (held.fresh other file here)
      · rintro _ ⟨⟩
        exact ⟨temporary, by rw [Disk.make_names, if_pos rfl]; rfl⟩
      · rintro _ _ ⟨⟩ ⟨⟩
        refine ⟨by rw [Disk.make_names, if_pos rfl], fun other here => ?_, by rw [Disk.make_contents, if_pos rfl]; rfl⟩
        by_contra new
        rw [Disk.make_names, if_neg new] at here
        exact absurd (held.fresh other _ here) (Nat.lt_irrefl _)
      · rintro q request' stage' _ _ there named ⟨⟩
        have here := ((held.each q request' stage' there).name name named).2
        rw [fresh] at here
        cases here
  | write p request name file rest count at_stage =>
      have own := held.each p request _ at_stage
      obtain ⟨at_name, alone, text⟩ := own.file name file rfl rfl
      refine held.put held.fresh ⟨fun _ => own.create (.inl rfl), ?_, ?_⟩ (fun q request' stage' other there => ?_) ?_
      · rintro _ ⟨⟩
        exact own.name name rfl
      · rintro _ _ ⟨⟩ ⟨⟩
        refine ⟨at_name, alone, ?_⟩
        show (s.disk.append file (rest.take count)).contents file ++ rest.drop count = _
        rw [Disk.append_contents, if_pos rfl, List.append_assoc, List.take_append_drop]
        exact text
      · refine (held.each q request' stage' there).append _ fun same => ?_
        cases named : stage'.name with
        | none => cases stage' <;> simp_all [Stage.name, Stage.file]
        | some name' =>
            have theirs := (held.each q request' stage' there).file name' file named same
            have same_name := alone name' theirs.1
            subst same_name
            exact other (held.apart q p request' request stage' _ name' there at_stage named rfl)
      · rintro q request' stage' _ other there named ⟨⟩
        exact other (held.apart q p request' request stage' _ name there at_stage named rfl)
  | close p request name file at_stage =>
      have own := held.each p request _ at_stage
      refine held.stay ⟨fun _ => own.create (.inl rfl), ?_, ?_⟩ ?_
      · rintro _ ⟨⟩
        exact own.name name rfl
      · rintro _ _ ⟨⟩ ⟨⟩
        exact own.file name file rfl rfl
      · rintro _ ⟨⟩
        exact ⟨_, at_stage, rfl⟩
  | unwritten p request name file rest at_stage => exact held.cleaning _ at_stage rfl
  | link p request name file at_stage absent =>
      have own := held.each p request _ at_stage
      obtain ⟨at_name, alone, text⟩ := own.file name file rfl rfl
      have temporary := (own.name name rfl).1
      refine held.put ?_ ⟨fun _ => own.create (.inl rfl), ?_, ?_⟩ (fun q request' stage' other there => ?_) ?_
      · intro other file' here
        rw [Disk.link, Disk.rename_names] at here
        split at here
        · exact Option.some.inj here ▸ held.fresh name file at_name
        · exact held.fresh other file' here
      · rintro _ ⟨⟩
        refine ⟨temporary, ?_⟩
        rw [Disk.link, Disk.rename_names, if_neg (temporary_ne temporary), at_name]
        rfl
      · rintro _ _ _ ⟨⟩
      · have theirs := held.each q request' stage' there
        refine theirs.rename (fun named => temporary_ne (theirs.name _ named).1 rfl) fun f same written => ?_
        cases same
        cases named : stage'.name with
        | none => cases stage' <;> simp_all [Stage.name, Stage.file]
        | some name' =>
            have same_name := alone name' (theirs.file name' file named written).1
            subst same_name
            exact other (held.apart q p request' request stage' _ name' there at_stage named rfl)
      · rintro q request' stage' _ other there named ⟨⟩
        exact other (held.apart q p request' request stage' _ name there at_stage named rfl)
  | «exists» p request name file other at_stage present => exact held.cleaning _ at_stage rfl
  | unlinked p request name file at_stage => exact held.cleaning _ at_stage rfl
  | clean p request name outcome at_stage =>
      refine held.put ?_ (heldBy_none rfl (by simp)) (fun q request' stage' other there => ?_) ?_
      · intro name' file here
        rw [Disk.unlink, Disk.rename_names] at here
        split at here
        · cases here
        · exact held.fresh name' file here
      · refine (held.each q request' stage' there).rename (fun named => ?_) (by simp)
        exact other (held.apart q p request' request stage' _ name there at_stage named rfl)
      · rintro q request' stage' _ _ _ _ ⟨⟩
  | uncleaned p request name outcome at_stage => exact held.unnamed rfl (by simp)
  | kill p request stage at_stage => exact held.unnamed rfl (by simp)

/-! ### The lock -/

theorem Disk.lock_eq {disk disk' : Disk} (name : disk'.names LOCK_NAME = disk.names LOCK_NAME)
    (contents : ∀ file, disk.names LOCK_NAME = some file → disk'.contents file = disk.contents file) : disk'.lock = disk.lock := by
  unfold Disk.lock
  rw [name]
  cases found : disk.names LOCK_NAME with
  | none => rfl
  | some file => exact congrArg some (contents file found)

theorem lock_make {s : System F} (held : Held s) {name : String} (temporary : isTemporary name = true) : (s.disk.make name).lock = s.disk.lock := by
  refine Disk.lock_eq ?_ fun file found => ?_
  · rw [Disk.make_names, if_neg (temporary_ne temporary).symm]
  · rw [Disk.make_contents, if_neg (Nat.ne_of_lt (held.fresh LOCK_NAME file found))]

/-- A process writes into no file that is the lock. -/
theorem lock_append {s : System F} (held : Held s) {p : Nat} {request : Request F} {name : String} {file : Nat} {rest : Text}
    (at_stage : s.procs p = some (request, .writing name file rest)) (text : Text) : (s.disk.append file text).lock = s.disk.lock := by
  refine Disk.lock_eq rfl fun other found => ?_
  have own := held.each p request _ at_stage
  rw [Disk.append_contents, if_neg]
  rintro rfl
  have same := (own.file name other rfl rfl).2.1 LOCK_NAME found
  exact temporary_ne (own.name name rfl).1 same.symm

theorem lock_unlink (disk : Disk) {name : String} (temporary : isTemporary name = true) : (disk.unlink name).lock = disk.lock := by
  refine Disk.lock_eq ?_ fun file _ => rfl
  rw [Disk.unlink, Disk.rename_names, if_neg (temporary_ne temporary).symm]

theorem lock_link {s : System F} (held : Held s) {p : Nat} {request : Request F} {name : String} {file : Nat}
    (at_stage : s.procs p = some (request, .linking name file)) : (s.disk.link LOCK_NAME file).lock = some (lockText request.current) := by
  have text : s.disk.contents file ++ [] = lockText request.current := ((held.each p request _ at_stage).file name file rfl rfl).2.2
  rw [List.append_nil] at text
  rw [Disk.lock, Disk.link, Disk.rename_names, if_pos rfl, Option.map_some]
  exact congrArg some text

def Stage.outcome : Stage → Option Outcome
  | .cleaning _ outcome => some outcome
  | .returned outcome => some outcome
  | _ => none

variable (floats printing path) in
/-- What a resume comes to: there was no lock, it could not be read, or it was compared with the lock that there is. -/
inductive Judged (lock : Option Text) (request : Request F) : Outcome → Prop
  | missing : Judged lock request (.error (.composition path "resume requires an existing version 2 lock"))
  | unreadable (error : String) : Judged lock request (.error (.composition path ("unreadable composition lock: " ++ error)))
  | compared {text : Text} {outcome : Outcome} (present : lock = some text)
      (outcome_is : afterRead floats printing path request (some text) = .returned outcome) : Judged lock request outcome

variable (floats printing path) in
/-- The lock, and what is returned of it, in a run from a disk with the lock `before`. -/
structure Settled (before : Option Text) (s : System F) : Prop where
  kept : ∀ text, before = some text → s.disk.lock = some text
  made : before = none → ∀ text, s.disk.lock = some text →
    ∃ p request stage, s.procs p = some (request, stage) ∧ request.mode = .create ∧ text = lockText request.current
  won : ∀ p request stage lines, s.procs p = some (request, stage) → request.mode = .create → stage.outcome = some (.ok lines) →
    lines = [] ∧ before = none ∧ s.disk.lock = some (lockText request.current)
  one : ∀ p q request request' stage stage' lines lines', s.procs p = some (request, stage) → s.procs q = some (request', stage') →
    request.mode = .create → request'.mode = .create → stage.outcome = some (.ok lines) → stage'.outcome = some (.ok lines') → p = q
  resumed : ∀ p request outcome, s.procs p = some (request, .returned outcome) → request.mode = .resume →
    Judged floats printing path s.disk.lock request outcome

/-- A step that leaves the lock as it is, and where nobody wins. -/
theorem Settled.put {before : Option Text} {s : System F} (settled : Settled floats printing path before s) {p : Nat} {request : Request F} {stage : Stage}
    {disk : Disk} (lock : disk.lock = s.disk.lock) (same : ∀ request' stage', s.procs p = some (request', stage') → request' = request)
    (wins : request.mode = .create → ∀ lines, stage.outcome = some (.ok lines) →
      ∃ earlier, s.procs p = some (request, earlier) ∧ earlier.outcome = some (.ok lines))
    (resumes : request.mode = .resume → ∀ outcome, stage = .returned outcome → Judged floats printing path s.disk.lock request outcome) :
    Settled floats printing path before (s.put p request stage disk) := by
  have back : ∀ q request' stage' lines, (s.put p request stage disk).procs q = some (request', stage') → request'.mode = .create →
      stage'.outcome = some (.ok lines) → ∃ earlier, s.procs q = some (request', earlier) ∧ earlier.outcome = some (.ok lines) := by
    intro q request' stage' lines here create outcome
    rw [put_procs] at here
    by_cases mine : q = p
    · rw [if_pos mine] at here
      cases here
      exact mine ▸ wins create lines outcome
    · rw [if_neg mine] at here
      exact ⟨stage', here, outcome⟩
  refine ⟨fun text was => lock.trans (settled.kept text was), fun was text here => ?_, fun q request' stage' lines here create outcome => ?_,
    fun q q' r r' st st' lines lines' here there create create' outcome outcome' => ?_, fun q request' outcome here resume => ?_⟩
  · obtain ⟨q, request', stage', there, create, written⟩ := settled.made was text (lock.symm.trans here)
    by_cases mine : q = p
    · subst mine
      exact ⟨q, request, stage, by rw [put_procs, if_pos rfl], same request' stage' there ▸ create, same request' stage' there ▸ written⟩
    · exact ⟨q, request', stage', by rw [put_procs, if_neg mine]; exact there, create, written⟩
  · obtain ⟨earlier, there, won⟩ := back q request' stage' lines here create outcome
    obtain ⟨empty, was, written⟩ := settled.won q request' earlier lines there create won
    exact ⟨empty, was, lock.trans written⟩
  · obtain ⟨earlier, here, won⟩ := back q r st lines here create outcome
    obtain ⟨earlier', there, won'⟩ := back q' r' st' lines' there create' outcome'
    exact settled.one q q' r r' earlier earlier' lines lines' here there create create' won won'
  · show Judged floats printing path disk.lock request' outcome
    rw [lock]
    rw [put_procs] at here
    by_cases mine : q = p
    · rw [if_pos mine] at here
      cases here
      exact resumes resume outcome rfl
    · rw [if_neg mine] at here
      exact settled.resumed q request' outcome here resume

theorem afterRead_create {request : Request F} {text : Option Text} {lines : List String} (create : request.mode = .create) :
    (afterRead floats printing path request text).outcome ≠ some (.ok lines) := by
  unfold afterRead
  rw [create]
  cases read floats printing path text with
  | error refusal => simp [Stage.outcome]
  | ok stored => cases stored <;> simp [Stage.outcome]

theorem judged_missing {lock : Option Text} {request : Request F} {outcome : Outcome} (resume : request.mode = .resume)
    (returned : afterRead floats printing path request none = .returned outcome) : Judged floats printing path lock request outcome := by
  unfold afterRead at returned
  rw [resume] at returned
  cases returned
  exact .missing

theorem Settled.step {before : Option Text} {s s' : System F} (settled : Settled floats printing path before s) (held : Held s)
    (step : Step floats printing path s s') : Settled floats printing path before s' := by
  have own {p : Nat} {request request' : Request F} {stage stage' : Stage} (here : s.procs p = some (request, stage))
      (there : s.procs p = some (request', stage')) : request' = request := by
    rw [here] at there
    exact (Prod.mk.inj (Option.some.inj there)).1.symm
  cases step with
  | start p request unused =>
      refine settled.put rfl (fun _ _ there => ?_) (fun _ _ same => by cases same) (fun _ _ same => by cases same)
      rw [unused] at there
      cases there
  | absent p request at_stage absent =>
      exact settled.put rfl (fun _ _ => own at_stage) (fun create _ outcome => absurd outcome (afterRead_create create))
        (fun resume _ => judged_missing resume)
  | present p request file at_stage present => exact settled.put rfl (fun _ _ => own at_stage) (fun _ _ same => by cases same) (fun _ _ same => by cases same)
  | read p request file at_stage present =>
      exact settled.put rfl (fun _ _ => own at_stage) (fun create _ outcome => absurd outcome (afterRead_create create))
        (fun _ _ returned => .compared (by rw [Disk.lock, present, Option.map_some]) returned)
  | unreadable p request error at_stage =>
      refine settled.put rfl (fun _ _ => own at_stage) (fun _ _ same => by cases same) (fun _ outcome same => ?_)
      cases same
      exact .unreadable error
  | unstaged p request at_stage =>
      have create := (held.each p request _ at_stage).create (.inr rfl)
      exact settled.put rfl (fun _ _ => own at_stage) (fun _ _ same => by cases same) (fun resume => absurd (create.symm.trans resume) (by simp))
  | stage p request name at_stage temporary fresh =>
      exact settled.put (lock_make held temporary) (fun _ _ => own at_stage) (fun _ _ same => by cases same) (fun _ _ same => by cases same)
  | write p request name file rest count at_stage =>
      exact settled.put (lock_append held at_stage _) (fun _ _ => own at_stage) (fun _ _ same => by cases same) (fun _ _ same => by cases same)
  | close p request name file at_stage => exact settled.put rfl (fun _ _ => own at_stage) (fun _ _ same => by cases same) (fun _ _ same => by cases same)
  | unwritten p request name file rest at_stage => exact settled.put rfl (fun _ _ => own at_stage) (fun _ _ same => by cases same) (fun _ _ same => by cases same)
  | link p request name file at_stage absent =>
      have create := (held.each p request _ at_stage).create (.inl rfl)
      have written := lock_link held at_stage
      have empty : s.disk.lock = none := by rw [Disk.lock, absent, Option.map_none]
      have unsettled : before = none := by
        cases was : before with
        | none => rfl
        | some text => exact absurd ((settled.kept text was).symm.trans empty) (by simp)
      have nobody {q : Nat} {request' : Request F} {stage' : Stage} {lines : List String} (other : q ≠ p)
          (there : (s.put p request (.cleaning name (.ok [])) (s.disk.link LOCK_NAME file)).procs q = some (request', stage'))
          (create' : request'.mode = .create) : stage'.outcome ≠ some (.ok lines) := by
        rw [put_procs, if_neg other] at there
        intro won
        exact absurd ((settled.won q request' stage' lines there create' won).2.2.symm.trans empty) (by simp)
      refine ⟨fun text was => absurd (unsettled.symm.trans was) (by simp), fun _ text here => ?_, fun q request' stage' lines here create' outcome => ?_,
        fun q q' r r' st st' lines lines' here there create₁ create₂ outcome outcome' => ?_, fun q request' outcome here resume => ?_⟩
      · exact ⟨p, request, _, by rw [put_procs, if_pos rfl], create, Option.some.inj (here.symm.trans written)⟩
      · by_cases mine : q = p
        · rw [put_procs, if_pos mine] at here
          cases here
          cases outcome
          exact ⟨rfl, unsettled, written⟩
        · exact absurd outcome (nobody mine here create')
      · by_cases mine : q = p
        · by_cases mine' : q' = p
          · rw [mine, mine']
          · exact absurd outcome' (nobody mine' there create₂)
        · exact absurd outcome (nobody mine here create₁)
      · rw [put_procs] at here
        split at here
        · cases here
        · cases settled.resumed q request' outcome here resume with
          | missing => exact .missing
          | unreadable error => exact .unreadable error
          | compared present => exact absurd (present.symm.trans empty) (by simp)
  | «exists» p request name file other at_stage present => exact settled.put rfl (fun _ _ => own at_stage) (fun _ _ same => by cases same) (fun _ _ same => by cases same)
  | unlinked p request name file at_stage => exact settled.put rfl (fun _ _ => own at_stage) (fun _ _ same => by cases same) (fun _ _ same => by cases same)
  | clean p request name outcome at_stage =>
      have create := (held.each p request _ at_stage).create (.inl rfl)
      have temporary := ((held.each p request _ at_stage).name name rfl).1
      refine settled.put (lock_unlink s.disk temporary) (fun _ _ => own at_stage) (fun _ lines won => ?_)
        (fun resume => absurd (create.symm.trans resume) (by simp))
      exact ⟨_, at_stage, won⟩
  | uncleaned p request name outcome at_stage =>
      have create := (held.each p request _ at_stage).create (.inl rfl)
      exact settled.put rfl (fun _ _ => own at_stage) (fun _ _ same => by cases same) (fun resume => absurd (create.symm.trans resume) (by simp))
  | kill p request stage at_stage => exact settled.put rfl (fun _ _ => own at_stage) (fun _ _ same => by cases same) (fun _ _ same => by cases same)

theorem settled_start {s : System F} (idle : ∀ p, s.procs p = none) : Settled floats printing path s.disk.lock s where
  kept _ was := was
  made was text here := by
    rw [was] at here
    cases here
  won p _ _ _ here := by
    rw [idle p] at here
    cases here
  one p _ _ _ _ _ _ _ here := by
    rw [idle p] at here
    cases here
  resumed p _ _ here := by
    rw [idle p] at here
    cases here

theorem held_start {s : System F} (idle : ∀ p, s.procs p = none) (fresh : ∀ name file, s.disk.names name = some file → file < s.disk.next) : Held s where
  fresh := fresh
  each p _ _ here := by
    rw [idle p] at here
    cases here
  apart p _ _ _ _ _ _ here := by
    rw [idle p] at here
    cases here

theorem run_settled {before : Option Text} {s s' : System F} (held : Held s) (settled : Settled floats printing path before s)
    (run : Relation.ReflTransGen (Step floats printing path) s s') : Held s' ∧ Settled floats printing path before s' := by
  induction run with
  | refl => exact ⟨held, settled⟩
  | tail _ step ih => exact ⟨ih.1.step step, ih.2.step ih.1 step⟩

theorem Held.keeps_lock {s s' : System F} (held : Held s) (step : Step floats printing path s s') {text : Text}
    (here : s.disk.lock = some text) : s'.disk.lock = some text := by
  cases step with
  | stage p request name at_stage temporary fresh => exact (lock_make held temporary).trans here
  | write p request name file rest count at_stage => exact (lock_append held at_stage _).trans here
  | link p request name file at_stage absent =>
      rw [Disk.lock, absent] at here
      cases here
  | clean p request name outcome at_stage => exact (lock_unlink s.disk ((held.each p request _ at_stage).name name rfl).1).trans here
  | start => exact here
  | absent => exact here
  | present => exact here
  | read => exact here
  | unreadable => exact here
  | unstaged => exact here
  | close => exact here
  | unwritten => exact here
  | «exists» => exact here
  | unlinked => exact here
  | uncleaned => exact here
  | kill => exact here

/-- Of the processes that create or resume a lock, in any interleaving and with any of them killed anywhere: a lock that is
there never changes, it is all that one process wrote, one process at most creates it, and what is resumed is resumed under it. -/
theorem lock_is_written_once {s₀ s : System F} (idle : ∀ p, s₀.procs p = none)
    (fresh : ∀ name file, s₀.disk.names name = some file → file < s₀.disk.next) (run : Relation.ReflTransGen (Step floats printing path) s₀ s) :
    (∀ s', Relation.ReflTransGen (Step floats printing path) s s' → ∀ text, s.disk.lock = some text → s'.disk.lock = some text) ∧
      (s₀.disk.lock = none → ∀ text, s.disk.lock = some text →
        ∃ p request stage, s.procs p = some (request, stage) ∧ request.mode = .create ∧ text = lockText request.current) ∧
      (∀ p request lines, s.procs p = some (request, .returned (.ok lines)) → request.mode = .create →
        lines = [] ∧ s₀.disk.lock = none ∧ s.disk.lock = some (lockText request.current) ∧
          ∀ q request' lines', s.procs q = some (request', .returned (.ok lines')) → request'.mode = .create → q = p) ∧
      (∀ p request outcome, s.procs p = some (request, .returned outcome) → request.mode = .resume →
        Judged floats printing path s.disk.lock request outcome) := by
  obtain ⟨held, settled⟩ := run_settled (held_start idle fresh) (settled_start idle) run
  refine ⟨fun s' more text here => ?_, settled.made, fun p request lines here create => ?_, settled.resumed⟩
  · have later : Held s' ∧ s'.disk.lock = some text := by
      induction more with
      | refl => exact ⟨held, here⟩
      | tail _ step ih => exact ⟨ih.1.step step, ih.1.keeps_lock step ih.2⟩
    exact later.2
  · obtain ⟨empty, unsettled, written⟩ := settled.won p request _ lines here create rfl
    exact ⟨empty, unsettled, written, fun q request' lines' there create' =>
      settled.one q p request' request _ _ lines' lines there here create' create rfl rfl⟩

end Invariant

/-! ### A process that creates a lock -/

def exampleRequest : Request OnlyNan := ⟨.create, [("profile", .str "default")]⟩

def exampleStart : System OnlyNan := ⟨⟨fun _ => none, fun _ => [], 0⟩, fun _ => none⟩

theorem example_run : ∃ s, Relation.ReflTransGen (Step exampleFloats examplePrinting "lock") exampleStart s ∧
    s.procs 0 = some (exampleRequest, .returned (.ok [])) := by
  let s₁ := exampleStart.put 0 exampleRequest .looking exampleStart.disk
  let s₂ := s₁.put 0 exampleRequest .staging s₁.disk
  let s₃ := s₂.put 0 exampleRequest (.writing ".composition-a" 0 (lockText exampleRequest.current)) (s₂.disk.make ".composition-a")
  let s₄ := s₃.put 0 exampleRequest (.writing ".composition-a" 0 []) (s₃.disk.append 0 (lockText exampleRequest.current))
  let s₅ := s₄.put 0 exampleRequest (.linking ".composition-a" 0) s₄.disk
  let s₆ := s₅.put 0 exampleRequest (.cleaning ".composition-a" (.ok [])) (s₅.disk.link LOCK_NAME 0)
  let s₇ := s₆.put 0 exampleRequest (.returned (.ok [])) (s₆.disk.unlink ".composition-a")
  have write : Step exampleFloats examplePrinting "lock" s₃ s₄ := by
    have step : Step exampleFloats examplePrinting "lock" s₃ _ :=
      .write 0 exampleRequest ".composition-a" 0 (lockText exampleRequest.current) (lockText exampleRequest.current).length rfl
    rw [List.drop_length, List.take_length] at step
    exact step
  refine ⟨s₇, ?_, rfl⟩
  refine .head (b := s₁) (.start 0 exampleRequest rfl) ?_
  refine .head (b := s₂) (.absent 0 exampleRequest rfl rfl) ?_
  refine .head (b := s₃) (.stage 0 exampleRequest ".composition-a" rfl (by decide) rfl) ?_
  refine .head write ?_
  refine .head (b := s₅) (.close 0 exampleRequest ".composition-a" 0 rfl) ?_
  refine .head (b := s₆) (.link 0 exampleRequest ".composition-a" 0 rfl rfl) ?_
  exact .single (.clean 0 exampleRequest ".composition-a" (.ok []) rfl)

/-- A process that comes to its end alone has put down its lock. -/
theorem lock_is_written_once_created : ∃ s : System OnlyNan, s.procs 0 = some (exampleRequest, .returned (.ok [])) ∧
    s.disk.lock = some (lockText exampleRequest.current) := by
  obtain ⟨s, run, returned⟩ := example_run
  obtain ⟨_, _, created, _⟩ := lock_is_written_once (fun _ => rfl) (fun _ _ here => by cases here) run
  obtain ⟨_, _, written, _⟩ := created 0 exampleRequest [] returned rfl
  exact ⟨s, returned, written⟩

end AtrexAgent.Lock
