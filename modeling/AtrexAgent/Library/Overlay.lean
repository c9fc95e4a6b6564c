import Mathlib.Data.List.Induction
import Mathlib.Data.List.Nodup

/-! Tables that are made in layers: a row is created, its fields are changed, it is removed. A row
is what the writes of its key come to, and each of its fields the value that was written last. -/

namespace AtrexAgent.Overlay

variable {ι ρ δ α : Type}

/-- What a layer does to the row of a key. -/
inductive Write (ρ δ : Type) where
  | create (row : ρ)
  | change (update : δ)
  | remove

section History

variable (apply : δ → ρ → ρ)

def write : Option ρ → Write ρ δ → Option ρ
  | _, .create row => some row
  | row, .change update => row.map (apply update)
  | _, .remove => none

def replay (writes : List (Write ρ δ)) : Option ρ := writes.foldl (write apply) none

def updated (updates : List δ) (row : ρ) : ρ := updates.foldl (fun row update => apply update row) row

theorem replay_concat (writes : List (Write ρ δ)) (last : Write ρ δ) :
    replay apply (writes ++ [last]) = write apply (replay apply writes) last := by
  simp [replay]

/-- A row that is there was created, and after that only changed. -/
theorem replay_some {writes : List (Write ρ δ)} {row : ρ} (replayed : replay apply writes = some row) :
    ∃ before created updates, writes = before ++ .create created :: updates.map .change ∧
      row = updated apply updates created := by
  induction writes using List.reverseRecOn generalizing row with
  | nil => simp [replay] at replayed
  | append_singleton writes last ih =>
      rw [replay_concat] at replayed
      cases last with
      | create created =>
          simp only [write, Option.some.injEq] at replayed
          exact ⟨writes, created, [], by simp, by simp [updated, replayed]⟩
      | change update =>
          simp only [write, Option.map_eq_some_iff] at replayed
          obtain ⟨earlier, kept, changed⟩ := replayed
          obtain ⟨before, created, updates, same, folded⟩ := ih kept
          refine ⟨before, created, updates ++ [update], by simp [same], ?_⟩
          rw [← changed, folded]
          simp [updated]
      | remove => simp [write] at replayed

/-- The last value that an update sets. -/
def lastOf (field : δ → Option α) (start : α) (updates : List δ) : α :=
  updates.foldl (fun value update => (field update).getD value) start

theorem get_updated {get : ρ → α} {field : δ → Option α}
    (sets : ∀ update row, get (apply update row) = (field update).getD (get row)) (updates : List δ) (row : ρ) :
    get (updated apply updates row) = lastOf field (get row) updates := by
  induction updates generalizing row with
  | nil => rfl
  | cons update rest ih =>
      calc
        get (updated apply (update :: rest) row) = lastOf field (get (apply update row)) rest := ih _
        _ = lastOf field (get row) (update :: rest) := by rw [sets]; rfl

end History

theorem lastOf_unset {field : δ → Option α} {updates : List δ} (start : α)
    (unset : ∀ update ∈ updates, field update = none) : lastOf field start updates = start := by
  induction updates generalizing start with
  | nil => rfl
  | cons update rest ih =>
      rw [lastOf, List.foldl_cons, unset update List.mem_cons_self]
      exact ih start fun later member => unset later (List.mem_cons_of_mem _ member)

theorem lastOf_set {field : δ → Option α} {before after : List δ} {update : δ} {value : α} (start : α)
    (set : field update = some value) (unset : ∀ later ∈ after, field later = none) :
    lastOf field start (before ++ update :: after) = value := by
  rw [lastOf, List.foldl_append, List.foldl_cons, set]
  exact lastOf_unset value unset

section Table

variable [DecidableEq ι] (key : ρ → ι)

def entry (rows : List ρ) (i : ι) : Option ρ := rows.find? fun row => key row = i

theorem entry_none {rows : List ρ} {i : ι} : entry key rows i = none ↔ ∀ row ∈ rows, key row ≠ i := by
  simp [entry]

theorem entry_of_mem {rows : List ρ} (distinct : (rows.map key).Nodup) {row : ρ} (member : row ∈ rows) :
    entry key rows (key row) = some row := by
  induction rows with
  | nil => simp at member
  | cons first rest ih =>
      rw [List.map_cons, List.nodup_cons] at distinct
      rcases List.mem_cons.mp member with here | later
      · simp [entry, here]
      · have other : key first ≠ key row := fun same => distinct.1 (same ▸ List.mem_map_of_mem later)
        rw [entry, List.find?_cons_of_neg (by simpa using other)]
        exact ih distinct.2 later

theorem entry_create (rows : List ρ) (row : ρ) (i : ι) (absent : entry key rows (key row) = none) :
    entry key (rows ++ [row]) i = if i = key row then some row else entry key rows i := by
  by_cases same : i = key row
  · rw [if_pos same, same, entry, List.find?_append, show rows.find? _ = none from absent]
    simp
  · rw [if_neg same, entry, List.find?_append]
    simp [Ne.symm same, entry]

/-- A key that is found splits the rows there. -/
theorem split_found {rows : List ρ} {i : ι} {n : Nat} (found : rows.findIdx? (fun row => key row = i) = some n) :
    ∃ before row after, rows = before ++ row :: after ∧ before.length = n ∧ key row = i ∧
      ∀ other ∈ before, key other ≠ i := by
  induction rows generalizing n with
  | nil => simp at found
  | cons first rest ih =>
      rw [List.findIdx?_cons] at found
      by_cases here : key first = i
      · simp only [here, decide_true, if_true, Option.some.injEq] at found
        exact ⟨[], first, rest, rfl, found, here, by simp⟩
      · simp only [here, decide_false, Bool.false_eq_true, if_false, Option.map_eq_some_iff] at found
        obtain ⟨m, found, rfl⟩ := found
        obtain ⟨before, row, after, rfl, size, named, others⟩ := ih found
        exact ⟨first :: before, row, after, rfl, by simp [size], named, by simpa [here] using others⟩

theorem entry_split (before after : List ρ) (row : ρ) (i : ι) (others : ∀ other ∈ before, key other ≠ i) :
    entry key (before ++ row :: after) i = if key row = i then some row else entry key after i := by
  have skipped : before.find? (fun row => key row = i) = none := by simpa using others
  rw [entry, List.find?_append, skipped, Option.none_or, List.find?_cons]
  by_cases here : key row = i <;> simp [here, entry]

theorem entry_found {rows : List ρ} {i : ι} {n : Nat} (found : rows.findIdx? (fun row => key row = i) = some n) :
    ∃ row, rows[n]? = some row ∧ entry key rows i = some row := by
  obtain ⟨before, row, after, rfl, rfl, named, others⟩ := split_found key found
  exact ⟨row, by simp, by rw [entry_split key before after row i others, if_pos named]⟩

theorem entry_set {rows : List ρ} {i : ι} {n : Nat} (found : rows.findIdx? (fun row => key row = i) = some n)
    {row : ρ} (named : key row = i) (j : ι) :
    entry key (rows.set n row) j = if j = i then some row else entry key rows j := by
  obtain ⟨before, old, after, rfl, rfl, was, others⟩ := split_found key found
  rw [List.set_append_right _ _ (Nat.le_refl _), Nat.sub_self, List.set_cons_zero]
  by_cases same : j = i
  · rw [if_pos same, same, entry_split key before after row i others, if_pos named]
  · simp [entry, List.find?_append, named, was, Ne.symm same, same]

theorem entry_remove {rows : List ρ} (distinct : (rows.map key).Nodup) {i : ι} {n : Nat}
    (found : rows.findIdx? (fun row => key row = i) = some n) (j : ι) :
    entry key (rows.eraseIdx n) j = if j = i then none else entry key rows j := by
  obtain ⟨before, old, after, rfl, rfl, was, others⟩ := split_found key found
  rw [List.eraseIdx_append_of_length_le (Nat.le_refl _), Nat.sub_self, List.eraseIdx_cons_zero]
  by_cases same : j = i
  · rw [if_pos same, same, entry_none]
    intro row member
    rcases List.mem_append.mp member with earlier | later
    · exact others row earlier
    · rw [List.map_append, List.map_cons, List.nodup_append, List.nodup_cons] at distinct
      exact fun named => distinct.2.1.1 (by rw [was, ← named]; exact List.mem_map_of_mem later)
  · rw [if_neg same]
    simp [entry, List.find?_append, was, Ne.symm same]

theorem keys_set {rows : List ρ} {i : ι} {n : Nat} (found : rows.findIdx? (fun row => key row = i) = some n)
    {row : ρ} (named : key row = i) : (rows.set n row).map key = rows.map key := by
  obtain ⟨before, old, after, rfl, rfl, was, others⟩ := split_found key found
  rw [List.set_append_right _ _ (Nat.le_refl _), Nat.sub_self, List.set_cons_zero]
  simp [named, was]

end Table

end AtrexAgent.Overlay
