import Mathlib.Data.List.Induction
import Mathlib.Data.List.Pairwise
import Mathlib.Data.List.Perm.Basic
import AtrexAgent.Library.Items

/-! Opening tokens are matched with closing ones by a stack for each key: every token is in one piece, and the pairs of a key are
nested or apart. -/

namespace AtrexAgent.Brackets

open List (Perm)

inductive Shape where
  | opening
  | closing
  | single
  deriving DecidableEq

/-- A matched pair, or a token that stands alone. -/
inductive Piece (ρ : Type) where
  | pair (first last : ρ)
  | single (token : ρ)

def Piece.tokens {ρ : Type} : Piece ρ → List ρ
  | .pair first last => [first, last]
  | .single token => [token]

structure Matching (κ ρ : Type) where
  stackTable : List (κ × List ρ)
  pieces : List (Piece ρ)
  unmatched : List ρ

/-- Two spans share no place, or one lies inside the other. -/
def Laminar (first last first' last' : ℕ) : Prop :=
  (last < first' ∨ last' < first) ∨ (first < first' ∧ last' < last) ∨ first' < first ∧ last < last'

theorem Laminar.symm {first last first' last' : ℕ} (laminar : Laminar first last first' last') : Laminar first' last' first last := by
  unfold Laminar at laminar ⊢
  omega

variable {κ ρ : Type} [DecidableEq κ]

/-- `stacks[key]`, which is empty by default. -/
def stackOf (stackTable : List (κ × List ρ)) (key : κ) : List ρ := (Items.get? stackTable key).getD []

def pending (stackTable : List (κ × List ρ)) : List ρ := stackTable.flatMap Prod.snd

def step (key : ρ → κ) (shape : ρ → Shape) (matching : Matching κ ρ) (token : ρ) : Matching κ ρ :=
  match shape token with
  | .opening => { matching with stackTable := Items.set matching.stackTable (key token) (token :: stackOf matching.stackTable (key token)) }
  | .closing =>
      match stackOf matching.stackTable (key token) with
      | [] => { matching with
          stackTable := Items.set matching.stackTable (key token) []
          unmatched := matching.unmatched ++ [token] }
      | top :: rest => { matching with
          stackTable := Items.set matching.stackTable (key token) rest
          pieces := matching.pieces ++ [.pair top token] }
  | .single => { matching with pieces := matching.pieces ++ [.single token] }

def run (key : ρ → κ) (shape : ρ → Shape) (tokens : List ρ) : Matching κ ρ := tokens.foldl (step key shape) ⟨[], [], []⟩

/-- Everything that a matching holds. -/
def Matching.tokens (matching : Matching κ ρ) : List ρ :=
  matching.pieces.flatMap Piece.tokens ++ (pending matching.stackTable ++ matching.unmatched)

/-! ### Stacks -/

@[simp] theorem stackOf_set (stackTable : List (κ × List ρ)) (key other : κ) (stack : List ρ) :
    stackOf (Items.set stackTable key stack) other = if other = key then stack else stackOf stackTable other := by
  rw [stackOf, Items.get?_set]
  split <;> rfl

theorem pending_set {stackTable : List (κ × List ρ)} (distinct : (stackTable.map Prod.fst).Nodup) (key : κ) :
    ∃ others, (pending stackTable).Perm (stackOf stackTable key ++ others) ∧
      ∀ stack, (pending (Items.set stackTable key stack)).Perm (stack ++ others) := by
  induction stackTable with
  | nil => exact ⟨[], by simp [pending, stackOf], fun stack => by simp [pending, Items.set]⟩
  | cons item stackTable ih =>
      rw [List.map_cons, List.nodup_cons] at distinct
      by_cases same : item.1 = key
      · refine ⟨pending stackTable, ?_, fun stack => ?_⟩
        · simp [pending, stackOf, same]
        · rw [Items.set_cons_same same fun other member there => distinct.1 (same ▸ there ▸ List.mem_map_of_mem member)]
          simp [pending]
      · obtain ⟨others, held, replaced⟩ := ih distinct.2
        refine ⟨item.2 ++ others, ?_, fun stack => ?_⟩
        · have here : stackOf (item :: stackTable) key = stackOf stackTable key := by
            rw [stackOf, Items.get?_cons, if_neg same, stackOf]
          rw [here]
          calc (pending (item :: stackTable)).Perm (item.2 ++ (stackOf stackTable key ++ others)) := held.append_left item.2
            Perm _ (stackOf stackTable key ++ (item.2 ++ others)) := by
              rw [← List.append_assoc, ← List.append_assoc]
              exact List.perm_append_comm.append_right others
        · rw [Items.set_cons_other same]
          calc (pending (item :: Items.set stackTable key stack)).Perm (item.2 ++ (stack ++ others)) := (replaced stack).append_left item.2
            Perm _ (stack ++ (item.2 ++ others)) := by
              rw [← List.append_assoc, ← List.append_assoc]
              exact List.perm_append_comm.append_right others

/-! ### One token -/

variable {key : ρ → κ} {shape : ρ → Shape} {pos : ρ → ℕ} {matching : Matching κ ρ} {token : ρ} {tokens : List ρ}

def Distinct (matching : Matching κ ρ) : Prop := (matching.stackTable.map Prod.fst).Nodup

theorem step_distinct (distinct : Distinct matching) (token : ρ) : Distinct (step key shape matching token) := by
  unfold step
  split
  · exact Items.keys_set_nodup distinct _ _
  · split
    · exact Items.keys_set_nodup distinct _ _
    · exact Items.keys_set_nodup distinct _ _
  · exact distinct

/-- A token is added, and nothing is lost. -/
theorem step_tokens (distinct : Distinct matching) (token : ρ) :
    (step key shape matching token).tokens.Perm (matching.tokens ++ [token]) := by
  classical
  obtain ⟨others, held, replaced⟩ := pending_set distinct (key token)
  rw [List.perm_iff_count]
  intro other
  have held_count := List.perm_iff_count.mp held other
  have replaced_count (stack : List ρ) := List.perm_iff_count.mp (replaced stack) other
  simp only [List.count_append] at held_count replaced_count
  unfold step Matching.tokens
  split
  · simp only [List.count_append, replaced_count, List.count_cons, List.count_nil]
    omega
  · split
    · rename_i empty
      rw [empty] at held_count
      simp only [List.count_append, replaced_count, held_count]
      omega
    · rename_i top rest here
      rw [here] at held_count
      simp only [List.flatMap_append, List.flatMap_singleton, Piece.tokens, List.count_append, replaced_count, held_count, List.count_cons,
        List.count_nil]
      omega
  · simp only [List.flatMap_append, List.flatMap_singleton, Piece.tokens, List.count_append]
    omega

/-- Pairs of one key are nested or apart. -/
def LaminarPieces (key : ρ → κ) (pos : ρ → ℕ) (a b : Piece ρ) : Prop := ∀ first last first' last', a = .pair first last →
  b = .pair first' last' → key first = key first' → Laminar (pos first) (pos last) (pos first') (pos last')

instance (key : ρ → κ) (pos : ρ → ℕ) : Std.Symm (LaminarPieces key pos) where
  symm _ _ related first last first' last' here there same := (related first' last' first last there here same.symm).symm

/-- What the loop keeps: stacks hold opening tokens with the last one on top, pairs of a key are nested or apart, and each of
them lies above or before what is still open. -/
structure Nested (key : ρ → κ) (shape : ρ → Shape) (pos : ρ → ℕ) (stackTable : List (κ × List ρ)) (pieces : List (Piece ρ)) : Prop where
  keyed : ∀ k, ∀ token ∈ stackOf stackTable k, key token = k ∧ shape token = .opening
  ordered : ∀ k, (stackOf stackTable k).Pairwise fun a b => pos b < pos a
  pairs : ∀ first last, Piece.pair first last ∈ pieces →
    key first = key last ∧ pos first < pos last ∧ shape first = .opening ∧ shape last = .closing
  singles : ∀ token, Piece.single token ∈ pieces → shape token = .single
  above : ∀ k, ∀ token ∈ stackOf stackTable k, ∀ first last, Piece.pair first last ∈ pieces → key first = k →
    pos last < pos token ∨ pos token < pos first
  laminar : pieces.Pairwise (LaminarPieces key pos)

variable {stackTable : List (κ × List ρ)} {pieces : List (Piece ρ)}

theorem Nested.push (nested : Nested key shape pos stackTable pieces) (opening : shape token = .opening)
    (last_one : ∀ open_ ∈ stackOf stackTable (key token), pos open_ < pos token)
    (later : ∀ first last, Piece.pair first last ∈ pieces → key first = key token → pos last < pos token) :
    Nested key shape pos (Items.set stackTable (key token) (token :: stackOf stackTable (key token))) pieces where
  keyed := by
    intro k other member
    rw [stackOf_set] at member
    split at member
    · rename_i here
      rcases List.mem_cons.mp member with rfl | member
      · exact ⟨here.symm, opening⟩
      · exact here ▸ nested.keyed _ other member
    · exact nested.keyed k other member
  ordered := by
    intro k
    rw [stackOf_set]
    split
    · exact List.pairwise_cons.mpr ⟨last_one, nested.ordered _⟩
    · exact nested.ordered k
  pairs := nested.pairs
  singles := nested.singles
  above := by
    intro k other member first last inside same
    rw [stackOf_set] at member
    split at member
    · rename_i here
      rcases List.mem_cons.mp member with rfl | member
      · exact .inl (later first last inside (same.trans here))
      · exact nested.above _ other member first last inside (same.trans here)
    · exact nested.above k other member first last inside same
  laminar := nested.laminar

/-- Nothing is popped from an empty stack. -/
theorem Nested.clear (nested : Nested key shape pos stackTable pieces) {k : κ} (empty : stackOf stackTable k = []) :
    Nested key shape pos (Items.set stackTable k []) pieces := by
  have same (other : κ) : stackOf (Items.set stackTable k []) other = stackOf stackTable other := by
    rw [stackOf_set]
    split
    · rename_i here
      rw [here, empty]
    · rfl
  refine ⟨?_, ?_, nested.pairs, nested.singles, ?_, nested.laminar⟩
  · simpa only [same] using nested.keyed
  · simpa only [same] using nested.ordered
  · simpa only [same] using nested.above

theorem Nested.pop (nested : Nested key shape pos stackTable pieces) (closing : shape token = .closing) {top : ρ} {rest : List ρ}
    (here : stackOf stackTable (key token) = top :: rest) (last_one : pos top < pos token)
    (later : ∀ first last, Piece.pair first last ∈ pieces → key first = key token → pos last < pos token) :
    Nested key shape pos (Items.set stackTable (key token) rest) (pieces ++ [.pair top token]) := by
  have of_rest (k : κ) (other : ρ) (member : other ∈ stackOf (Items.set stackTable (key token) rest) k) : other ∈ stackOf stackTable k := by
    rw [stackOf_set] at member
    split at member
    · rename_i same
      rw [same, here]
      exact List.mem_cons_of_mem top member
    · exact member
  have top_open := nested.keyed _ top (here ▸ List.mem_cons_self)
  have below := nested.ordered (key token)
  rw [here, List.pairwise_cons] at below
  refine ⟨fun k other member => nested.keyed k other (of_rest k other member), fun k => ?_, fun first last inside => ?_,
    fun other inside => ?_, fun k other member first last inside same => ?_, ?_⟩
  · rw [stackOf_set]
    split
    · exact below.2
    · exact nested.ordered k
  · rcases List.mem_append.mp inside with old | new
    · exact nested.pairs first last old
    · cases List.mem_singleton.mp new
      exact ⟨top_open.1, last_one, top_open.2, closing⟩
  · rcases List.mem_append.mp inside with old | new
    · exact nested.singles other old
    · cases List.mem_singleton.mp new
  · rcases List.mem_append.mp inside with old | new
    · exact nested.above k other (of_rest k other member) first last old same
    · cases List.mem_singleton.mp new
      rw [stackOf_set, if_pos (same.symm.trans top_open.1)] at member
      exact .inr (below.1 other member)
  · refine List.pairwise_append.mpr ⟨nested.laminar, List.pairwise_singleton _ _, fun piece old other new => ?_⟩
    cases List.mem_singleton.mp new
    intro first last first' last' same same' keys
    cases same
    cases same'
    have at_key := keys.trans top_open.1
    have ends := later first last old at_key
    rcases nested.above _ top (here ▸ List.mem_cons_self) first last old at_key with before | inside
    · exact .inl (.inl before)
    · exact .inr (.inr ⟨inside, ends⟩)

theorem Nested.alone (nested : Nested key shape pos stackTable pieces) (single : shape token = .single) :
    Nested key shape pos stackTable (pieces ++ [.single token]) where
  keyed := nested.keyed
  ordered := nested.ordered
  pairs := by
    intro first last inside
    rcases List.mem_append.mp inside with old | new
    · exact nested.pairs first last old
    · cases List.mem_singleton.mp new
  singles := by
    intro other inside
    rcases List.mem_append.mp inside with old | new
    · exact nested.singles other old
    · cases List.mem_singleton.mp new
      exact single
  above := by
    intro k other member first last inside same
    rcases List.mem_append.mp inside with old | new
    · exact nested.above k other member first last old same
    · cases List.mem_singleton.mp new
  laminar := by
    refine List.pairwise_append.mpr ⟨nested.laminar, List.pairwise_singleton _ _, fun piece old other new => ?_⟩
    cases List.mem_singleton.mp new
    intro first last first' last' same same'
    cases same'

omit [DecidableEq κ] in
theorem mem_tokens_of_last {first last : ρ} (member : Piece.pair first last ∈ matching.pieces) : last ∈ matching.tokens :=
  List.mem_append_left _ (List.mem_flatMap.mpr ⟨_, member, by simp [Piece.tokens]⟩)

theorem mem_tokens_of_stack {k : κ} (member : token ∈ stackOf matching.stackTable k) : token ∈ matching.tokens := by
  apply List.mem_append_right
  apply List.mem_append_left
  cases here : Items.get? matching.stackTable k with
  | none =>
      rw [stackOf, here] at member
      cases member
  | some stack =>
      rw [stackOf, here] at member
      exact List.mem_flatMap.mpr ⟨(k, stack), Items.mem_of_get? here, member⟩

theorem step_nested (nested : Nested key shape pos matching.stackTable matching.pieces) (token : ρ)
    (fresh : ∀ earlier ∈ matching.tokens, key earlier = key token → pos earlier < pos token) :
    Nested key shape pos (step key shape matching token).stackTable (step key shape matching token).pieces := by
  have last_one : ∀ earlier ∈ stackOf matching.stackTable (key token), pos earlier < pos token := fun earlier member =>
    fresh earlier (mem_tokens_of_stack member) (nested.keyed _ earlier member).1
  have later : ∀ first last, Piece.pair first last ∈ matching.pieces → key first = key token → pos last < pos token :=
    fun first last member same => fresh last (mem_tokens_of_last member) ((nested.pairs first last member).1.symm.trans same)
  unfold step
  split
  · rename_i opening
    exact nested.push opening last_one later
  · rename_i closing
    split
    · rename_i empty
      exact nested.clear empty
    · rename_i top rest here
      exact nested.pop closing here (last_one top (here ▸ List.mem_cons_self)) later
  · rename_i single
    exact nested.alone single

/-! ### A run -/

theorem run_append (tokens : List ρ) (token : ρ) : run key shape (tokens ++ [token]) = step key shape (run key shape tokens) token := by
  rw [run, List.foldl_append]
  rfl

theorem run_distinct (tokens : List ρ) : Distinct (run key shape tokens) := by
  induction tokens using List.reverseRecOn with
  | nil => exact List.nodup_nil
  | append_singleton tokens token ih =>
      rw [run_append]
      exact step_distinct ih token

/-- Every token is in one piece, still open, or unmatched. -/
theorem run_tokens (tokens : List ρ) : (run key shape tokens).tokens.Perm tokens := by
  induction tokens using List.reverseRecOn with
  | nil => exact .nil
  | append_singleton tokens token ih =>
      rw [run_append]
      exact (step_tokens (run_distinct tokens) token).trans (ih.append_right [token])

theorem run_nested (ordered : tokens.Pairwise fun a b => key a = key b → pos a < pos b) :
    Nested key shape pos (run key shape tokens).stackTable (run key shape tokens).pieces := by
  induction tokens using List.reverseRecOn with
  | nil =>
      refine ⟨fun k token member => ?_, fun k => .nil, fun first last member => ?_, fun token member => ?_, fun k token member => ?_, .nil⟩
      · cases member
      · cases member
      · cases member
      · cases member
  | append_singleton tokens token ih =>
      rw [List.pairwise_append] at ordered
      rw [run_append]
      apply step_nested (ih ordered.1)
      intro earlier member same
      exact ordered.2.2 earlier ((run_tokens tokens).mem_iff.mp member) token (List.mem_singleton_self token) same

theorem Nested.laminar_of_ne (nested : Nested key shape pos stackTable pieces) {first last first' last' : ρ}
    (member : Piece.pair first last ∈ pieces) (member' : Piece.pair first' last' ∈ pieces) (different : first ≠ first')
    (same : key first = key first') : Laminar (pos first) (pos last) (pos first') (pos last') := by
  apply nested.laminar.forall member member' _ _ _ _ _ rfl rfl same
  intro equal
  cases equal
  exact different rfl

/-- A token that opens inside of a pair closes inside of it. -/
theorem Nested.lifo (nested : Nested key shape pos stackTable pieces) {first last first' last' : ρ}
    (member : Piece.pair first last ∈ pieces) (member' : Piece.pair first' last' ∈ pieces)
    (same : key first = key first') (after : pos first < pos first') (before : pos first' < pos last) : pos last' < pos last := by
  have different : first ≠ first' := by
    rintro rfl
    omega
  have order := (nested.pairs first' last' member').2.1
  have laminar := nested.laminar_of_ne member member' different same
  unfold Laminar at laminar
  omega

end AtrexAgent.Brackets
