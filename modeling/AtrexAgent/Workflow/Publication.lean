import Mathlib.Data.List.Nodup
import Mathlib.Data.List.Perm.Subperm
import AtrexAgent.Library.Interaction

/-! Recoverable, controller-only publication of a selected search checkpoint: a Git commit
prepared whole, a receipt that names it, and working files, HEAD and index brought to it one
after another. An object of Git is its content here, so a commit is named by what it holds. -/

namespace AtrexAgent.Publication

open AtrexAgent.Interaction
open AtrexAgent.Interaction.Program

abbrev Bytes := List UInt8

/-- The paths of a Git tree or index, with their blobs. -/
abbrev Tree := List (String × Bytes)

namespace Tree

def remove (tree : Tree) (name : String) : Tree := tree.filter (fun entry => entry.1 ≠ name)

def add (tree : Tree) (name : String) (blob : Bytes) : Tree := (name, blob) :: tree.remove name

/-- `update-index` of one requested file. -/
def update (tree : Tree) : String × Option Bytes → Tree
  | (name, none) => tree.remove name
  | (name, some data) => tree.add name data

end Tree

inductive Commit
  | root (tree : Tree) (message : String)
  | child (tree : Tree) (parent : Commit) (message : String)
  deriving DecidableEq

def Commit.tree : Commit → Tree
  | root tree _ => tree
  | child tree _ _ => tree

/-- `git show commit:name` -/
def Commit.show (commit : Commit) (name : String) : Option Bytes := commit.tree.lookup name

/-- The dict of requested files; a file without data is to be removed. -/
structure Files where
  items : List (String × Option Bytes)
  distinct : (items.map Prod.fst).Nodup

def Files.keys (files : Files) : List String := files.items.map Prod.fst

structure Receipt where
  base : Commit
  target : Commit
  files : List (String × Option String)
  message : String

/-- What stands at a path of the working tree; `other` is no regular file. -/
inductive Node
  | absent
  | file (data : Bytes)
  | other
  deriving DecidableEq

def Node.of : Option Bytes → Node
  | none => absent
  | some data => file data

/-- `read(limit)` of a regular file. -/
def Node.read (limit : Nat) : Node → Node
  | absent => absent
  | file data => file (data.take limit)
  | other => other

structure Repo where
  head : Commit
  index : Tree
  work : String → Node
  /-- The file named `transaction`. -/
  receipt : Option Receipt
  /-- How often publications moved HEAD since it was last moved by anyone else. -/
  advances : Nat

namespace Repo

def dirtyPaths (repo : Repo) : List String :=
  (repo.index.map Prod.fst).filter
      (fun name => repo.work name ≠ Node.of (repo.index.lookup name)) ++
    (repo.index.map Prod.fst ++ repo.head.tree.map Prod.fst).filter
      (fun name => repo.index.lookup name ≠ repo.head.show name)

def write (repo : Repo) (name : String) (node : Node) : Repo :=
  { repo with work := Function.update repo.work name node }

end Repo

inductive Op
  | readReceipt
  | dirtyPaths
  | gitHead
  | writeReceipt (receipt : Receipt)
  | read (name : String) (limit : Nat)
  | unlink (name : String)
  | publish (name : String) (data : Bytes)
  | updateRef (new old : Commit)
  | readTree (commit : Commit)

abbrev Op.Answer : Op → Type
  | readReceipt => Option Receipt
  | dirtyPaths => List String
  | gitHead => Commit
  | read _ _ => Node
  | updateRef _ _ => Bool
  | writeReceipt _ | unlink _ | publish _ _ | readTree _ => Unit

def act (repo : Repo) : (op : Op) → Repo × op.Answer
  | .readReceipt => (repo, repo.receipt)
  | .dirtyPaths => (repo, repo.dirtyPaths)
  | .gitHead => (repo, repo.head)
  | .writeReceipt receipt => ({ repo with receipt := some receipt }, ())
  | .read name limit => (repo, (repo.work name).read limit)
  | .unlink name => (repo.write name .absent, ())
  | .publish name data => (repo.write name (.file data), ())
  | .updateRef new old =>
      if repo.head = old then ({ repo with head := new, advances := repo.advances + 1 }, true)
      else (repo, false)
  | .readTree commit => ({ repo with index := commit.tree }, ())

def effect : Effect Repo Op Op.Answer := fun repo op repo' answer => act repo op = (repo', answer)

inductive Error
  | runtime (message : String)
  | notRegular (name : String)

abbrev Script := Program Op Op.Answer Error

def raise {α : Type} (message : String) : Script α := .stop (.runtime message)

/-- 16 MiB and one byte -/
def LIMIT : Nat := 16 * 1024 * 1024 + 1

variable (sha256 : Bytes → String)

def checksums (files : Files) : List (String × Option String) :=
  files.items.map fun entry => (entry.1, entry.2.map sha256)

/-- The commit is complete before anything else is changed. -/
def receiptOf (base : Commit) (files : Files) (message : String) : Receipt where
  base := base
  target := .child (files.items.foldl Tree.update base.tree) base message
  files := checksums sha256 files
  message := message

def prepare (files : Files) (message : String) : Script Receipt := do
  let dirty ← perform Op.dirtyPaths
  if dirty ≠ [] then
    raise "Search publication requires a clean controller index and tracked workspace"
  else
    let base ← perform Op.gitHead
    let receipt := receiptOf sha256 base files message
    perform (Op.writeReceipt receipt)
    pure receipt

def verify (receipt : Receipt) : List (String × Option Bytes) → Script Unit
  | [] => pure ()
  | (name, data) :: rest => do
      if receipt.target.show name ≠ data then
        raise "Search publication commit failed integrity verification"
      else
        match ← perform (Op.read name LIMIT) with
        | .other => .stop (.notRegular name)
        | current =>
            if current ≠ Node.of (receipt.base.show name) ∧ current ≠ Node.of data then
              raise ("Refusing to replace unexpected content during search publication: " ++ name)
            else verify receipt rest

def publishAll : List (String × Option Bytes) → Script Unit
  | [] => pure ()
  | (name, none) :: rest => do
      perform (Op.unlink name)
      publishAll rest
  | (name, some data) :: rest => do
      perform (Op.publish name data)
      publishAll rest

/-- Bring the repository to the commit that the receipt names. -/
def advance (receipt : Receipt) : Script Commit := do
  let head ← perform Op.gitHead
  if head = receipt.base then
    let moved ← perform (Op.updateRef receipt.target receipt.base)
    if moved then
      perform (Op.readTree receipt.target)
      pure receipt.target
    else raise "Search Git operation failed"
  else
    perform (Op.readTree receipt.target)
    pure receipt.target

def finish (files : Files) (message : String) (receipt : Receipt) : Script Commit := do
  if ¬ receipt.files.Perm (checksums sha256 files) ∨ receipt.message ≠ message then
    raise "Search publication replay differs from its sealed transaction"
  else
    let head ← perform Op.gitHead
    if head ≠ receipt.base ∧ head ≠ receipt.target then
      raise "Controller HEAD changed outside its pending search publication"
    else
      let dirty ← perform Op.dirtyPaths
      if ¬ dirty ⊆ files.keys then
        raise "Unrelated tracked changes block search publication recovery"
      else
        verify receipt files.items
        publishAll files.items
        advance receipt

def commitFiles (files : Files) (message : String) : Script Commit := do
  match ← perform Op.readReceipt with
  | some receipt => finish sha256 files message receipt
  | none =>
      let receipt ← prepare sha256 files message
      finish sha256 files message receipt

end AtrexAgent.Publication
