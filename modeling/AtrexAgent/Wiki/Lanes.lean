import AtrexAgent.Library.Traversal
import AtrexAgent.Wiki.OperatorScope

/-! Retrieval lanes: budgets for the scopes of a query, and the round-robin merge of what the lanes find. -/

namespace AtrexAgent.Lanes

open AtrexAgent.ScopeResolver (OperatorScope Role)

/-! ### Budgets -/

def weight (scope : OperatorScope) : ℕ := if scope.role = .primary then 2 else 1

def totalWeight (scopes : List OperatorScope) : ℕ := (scopes.map weight).sum

/-- `max(range(len(budgets)), key=...)` is the first index of the largest budget. -/
def firstLargest (budgets : List ℕ) : ℕ := budgets.idxOf (budgets.foldl max 0)

theorem le_foldl_max (budgets : List ℕ) (start : ℕ) : start ≤ budgets.foldl max start ∧ ∀ budget ∈ budgets, budget ≤ budgets.foldl max start := by
  induction budgets generalizing start with
  | nil => simp
  | cons budget budgets ih =>
      obtain ⟨first, others⟩ := ih (max start budget)
      refine ⟨(le_max_left _ _).trans first, fun other member => ?_⟩
      rcases List.mem_cons.mp member with rfl | inside
      · exact (le_max_right _ _).trans first
      · exact others other inside

theorem foldl_max_mem {budgets : List ℕ} {start : ℕ} (more : start < budgets.foldl max start) : budgets.foldl max start ∈ budgets := by
  induction budgets generalizing start with
  | nil => exact absurd more (lt_irrefl _)
  | cons budget budgets ih =>
      rw [List.foldl_cons] at more ⊢
      by_cases beyond : max start budget < budgets.foldl max (max start budget)
      · exact List.mem_cons_of_mem _ (ih beyond)
      · have same : budgets.foldl max (max start budget) = max start budget :=
          le_antisymm (not_lt.mp beyond) (le_foldl_max budgets _).1
        rw [same] at more ⊢
        rcases max_choice start budget with first | second
        · omega
        · rw [second]
          exact List.mem_cons_self

theorem sum_modify {budgets : List ℕ} {i : ℕ} (inside : i < budgets.length) (f : ℕ → ℕ) :
    (budgets.modify i f).sum + budgets[i] = budgets.sum + f budgets[i] := by
  induction budgets generalizing i with
  | nil => cases inside
  | cons budget budgets ih =>
      cases i with
      | zero =>
          rw [List.modify_zero_cons, List.sum_cons, List.sum_cons, List.getElem_cons_zero]
          omega
      | succ i =>
          have rest := ih (Nat.lt_of_succ_lt_succ inside)
          rw [List.modify_succ_cons, List.sum_cons, List.sum_cons, List.getElem_cons_succ]
          omega

/-- The first loop takes from the largest budget while there is too much. -/
theorem lowered {budgets : List ℕ} (large : ∃ budget ∈ budgets, 1 < budget) :
    (budgets.modify (firstLargest budgets) (· - 1)).sum < budgets.sum := by
  obtain ⟨budget, member, more⟩ := large
  have above := (le_foldl_max budgets 0).2 budget member
  have here : budgets.foldl max 0 ∈ budgets := foldl_max_mem (by omega)
  have inside := List.idxOf_lt_length_iff.mpr here
  have sums := sum_modify inside (· - 1)
  rw [List.getElem_idxOf inside] at sums
  rw [firstLargest]
  omega

def reduce (total : ℕ) (budgets : List ℕ) : List ℕ :=
  if large : total < budgets.sum ∧ ∃ budget ∈ budgets, 1 < budget then
    reduce total (budgets.modify (firstLargest budgets) (· - 1))
  else budgets
termination_by budgets.sum
decreasing_by exact lowered large.2

theorem raised {budgets : List ℕ} (some_ : 0 < budgets.length) (index : ℕ) :
    (budgets.modify (index % budgets.length) (· + 1)).sum = budgets.sum + 1 := by
  have sums := sum_modify (Nat.mod_lt index some_) (· + 1)
  omega

/-- The second loop hands out what is left, one lane after the other. -/
def refill (total index : ℕ) (budgets : List ℕ) : List ℕ :=
  if less : 0 < budgets.length ∧ budgets.sum < total then refill total (index + 1) (budgets.modify (index % budgets.length) (· + 1))
  else budgets
termination_by total - budgets.sum
decreasing_by
  have more := raised less.1 index
  omega

def shares (scopes : List OperatorScope) (total : ℕ) : List ℕ := scopes.map fun scope => max 1 (total * weight scope / totalWeight scopes)

def laneBudgets (scopes : List OperatorScope) (total : ℕ) : List ℕ :=
  if scopes = [] then [] else refill total 0 (reduce total (shares scopes total))

/-! ### Merge -/

/-- An iterator over what a lane found. -/
structure Lane (α : Type) where
  remaining : List (String × α)
  exhausted : Bool

variable {α : Type}

/-- `records.setdefault(rid, entry)` -/
def setDefault (records : List (String × α)) (item : String × α) : List (String × α) :=
  if (Items.get? records item.1).isSome then records else records ++ [item]

structure Round (α : Type) where
  lanes : List (Lane α)
  records : List (String × α)
  progressed : Bool

def Round.behind (lane : Lane α) (round : Round α) : Round α := { round with lanes := lane :: round.lanes }

/-- The inner loop, which stops where the cap is reached. -/
def mergeRound (cap : ℕ) : List (Lane α) → List (String × α) → Round α
  | [], records => ⟨[], records, false⟩
  | lane :: lanes, records =>
      if lane.exhausted then (mergeRound cap lanes records).behind lane
      else match lane.remaining with
        | [] => (mergeRound cap lanes records).behind ⟨[], true⟩
        | item :: rest =>
            let records := setDefault records item
            if cap ≤ records.length then ⟨⟨rest, false⟩ :: lanes, records, true⟩
            else { (mergeRound cap lanes records).behind ⟨rest, false⟩ with progressed := true }

/-- How many records the iterators still hold. -/
def left (lanes : List (Lane α)) : ℕ := (lanes.map fun lane => lane.remaining.length).sum

theorem left_cons (lane : Lane α) (lanes : List (Lane α)) : left (lane :: lanes) = lane.remaining.length + left lanes := by
  rw [left, List.map_cons, List.sum_cons, left]

theorem mergeRound_left (cap : ℕ) (lanes : List (Lane α)) (records : List (String × α)) :
    left (mergeRound cap lanes records).lanes ≤ left lanes ∧
      ((mergeRound cap lanes records).progressed = true → left (mergeRound cap lanes records).lanes < left lanes) := by
  induction lanes generalizing records with
  | nil => exact ⟨le_rfl, fun moved => by cases moved⟩
  | cons lane lanes ih =>
      rw [mergeRound]
      split
      · obtain ⟨less, strict⟩ := ih records
        simp only [Round.behind, left_cons]
        exact ⟨by omega, fun moved => by have := strict moved; omega⟩
      · cases here : lane.remaining with
        | nil =>
            obtain ⟨less, strict⟩ := ih records
            simp only [Round.behind, left_cons, here]
            exact ⟨by omega, fun moved => by have := strict moved; omega⟩
        | cons item rest =>
            dsimp only
            split
            · simp only [left_cons, here, List.length_cons]
              omega
            · obtain ⟨less, -⟩ := ih (setDefault records item)
              simp only [Round.behind, left_cons, here, List.length_cons]
              omega

/-- The outer loop. -/
def mergeLoop (cap : ℕ) (lanes : List (Lane α)) (records : List (String × α)) : List (String × α) :=
  if (∃ lane ∈ lanes, lane.exhausted = false) ∧ records.length < cap then
    if _moved : (mergeRound cap lanes records).progressed = true then
      mergeLoop cap (mergeRound cap lanes records).lanes (mergeRound cap lanes records).records
    else (mergeRound cap lanes records).records
  else records
termination_by left lanes
decreasing_by exact (mergeRound_left cap lanes records).2 _moved

/-- The merge of what the lanes found into the records that are already there. -/
def mergeLanes (available : ℕ) (groups : List (List (String × α))) (records : List (String × α)) : List (String × α) :=
  mergeLoop (records.length + available) (groups.map fun group => ⟨group, false⟩) records

/-! ### What the merge does -/

variable {cap : ℕ} {lanes : List (Lane α)} {records : List (String × α)} {groups : List (List (String × α))}

/-- The record is served, by this lane or by another. -/
def Served (records : List (String × α)) (item : String × α) : Prop := (Items.get? records item.1).isSome = true

theorem served_of_prefix {more : List (String × α)} (kept : records <+: more) {item : String × α} (served : Served records item) :
    Served more item := by
  obtain ⟨rest, rfl⟩ := kept
  unfold Served at served ⊢
  rw [Items.get?_append, Option.isSome_or, served, Bool.true_or]

theorem setDefault_spec (records : List (String × α)) (item : String × α) : records <+: setDefault records item ∧
    (setDefault records item).length ≤ records.length + 1 ∧ Served (setDefault records item) item := by
  unfold setDefault
  split
  · rename_i served
    exact ⟨List.prefix_rfl, Nat.le_succ _, served⟩
  · refine ⟨List.prefix_append _ _, by simp, ?_⟩
    unfold Served
    rw [Items.get?_append, Option.isSome_or]
    simp

/-- A round keeps what is there and stops at the cap. -/
theorem mergeRound_records (below : records.length < cap) (lanes : List (Lane α)) :
    records <+: (mergeRound cap lanes records).records ∧ (mergeRound cap lanes records).records.length ≤ cap := by
  induction lanes generalizing records with
  | nil => exact ⟨List.prefix_rfl, below.le⟩
  | cons lane lanes ih =>
      rw [mergeRound]
      split
      · exact ih below
      · cases lane.remaining with
        | nil => exact ih below
        | cons item rest =>
            obtain ⟨kept, one_more, -⟩ := setDefault_spec records item
            dsimp only
            split
            · exact ⟨kept, by dsimp only; omega⟩
            · rename_i open_
              obtain ⟨kept', within⟩ := ih (Nat.lt_of_not_le open_)
              exact ⟨kept.trans kept', within⟩

/-- What a lane has handed out is served, and an exhausted one has handed out everything. -/
def Tracks (records : List (String × α)) (group : List (String × α)) (lane : Lane α) : Prop :=
  ∃ handed, group = handed ++ lane.remaining ∧ (∀ item ∈ handed, Served records item) ∧ (lane.exhausted = true → lane.remaining = [])

theorem Tracks.mono {more : List (String × α)} (kept : records <+: more) {group : List (String × α)} {lane : Lane α}
    (tracks : Tracks records group lane) : Tracks more group lane := by
  obtain ⟨handed, whole, served, ends⟩ := tracks
  exact ⟨handed, whole, fun item member => served_of_prefix kept (served item member), ends⟩

theorem mergeRound_tracks {base : List (String × α)} (tracked : List.Forall₂ (Tracks base) groups lanes) (kept : base <+: records)
    (below : records.length < cap) :
    List.Forall₂ (Tracks (mergeRound cap lanes records).records) groups (mergeRound cap lanes records).lanes := by
  induction tracked generalizing records with
  | nil => exact .nil
  | @cons group lane groups lanes here rest ih =>
      have later := (mergeRound_records below (lane :: lanes)).1
      have here' := here.mono (kept.trans later)
      rw [mergeRound] at here' ⊢
      split
      · rename_i ended
        rw [if_pos ended] at here'
        exact .cons here' (ih kept below)
      · rename_i going
        rw [if_neg going] at here'
        obtain ⟨handed, whole, served, -⟩ := here'
        cases remaining : lane.remaining with
        | nil =>
            rw [remaining] at whole served
            exact .cons ⟨handed, whole, served, fun _ => rfl⟩ (ih kept below)
        | cons item more =>
            rw [remaining] at whole served
            obtain ⟨kept_one, -, served_one⟩ := setDefault_spec records item
            dsimp only at served ⊢
            split
            · rename_i full
              rw [if_pos full] at served
              refine .cons ⟨handed ++ [item], by simpa using whole, fun other member => ?_, fun ended => by cases ended⟩ ?_
              · rcases List.mem_append.mp member with old | new
                · exact served other old
                · exact List.mem_singleton.mp new ▸ served_one
              · exact rest.imp fun _ _ tracks => tracks.mono (kept.trans kept_one)
            · rename_i open_
              rw [if_neg open_] at served
              have kept_rest := (mergeRound_records (Nat.lt_of_not_le open_) lanes).1
              refine .cons ⟨handed ++ [item], by simpa using whole, fun other member => ?_, fun ended => by cases ended⟩ ?_
              · rcases List.mem_append.mp member with old | new
                · exact served other old
                · exact List.mem_singleton.mp new ▸ served_of_prefix kept_rest served_one
              · exact ih (kept.trans kept_one) (Nat.lt_of_not_le open_)

/-- A round that serves nothing has found every lane exhausted. -/
theorem mergeRound_still (lanes : List (Lane α)) (still : (mergeRound cap lanes records).progressed = false) :
    ∀ lane ∈ (mergeRound cap lanes records).lanes, lane.exhausted = true := by
  induction lanes generalizing records with
  | nil => exact fun lane member => by cases member
  | cons lane lanes ih =>
      rw [mergeRound] at still ⊢
      split
      · rename_i ended
        rw [if_pos ended] at still
        exact List.forall_mem_cons.mpr ⟨ended, ih still⟩
      · rename_i going
        rw [if_neg going] at still
        cases remaining : lane.remaining with
        | nil =>
            rw [remaining] at still
            exact List.forall_mem_cons.mpr ⟨rfl, ih still⟩
        | cons item rest =>
            rw [remaining] at still
            dsimp only at still
            split at still <;> cases still

/-- The first round serves the first record of every lane, where there is room for one of each. -/
theorem mergeRound_first (room : records.length + groups.length ≤ cap) (below : records.length < cap) :
    ∀ group ∈ groups, ∀ item ∈ group.head?,
      Served (mergeRound cap (groups.map fun group => (⟨group, false⟩ : Lane α)) records).records item := by
  induction groups generalizing records with
  | nil => exact fun group member => by cases member
  | cons group groups ih =>
      rw [List.length_cons] at room
      rw [List.map_cons, mergeRound]
      simp only [Bool.false_eq_true, if_false]
      intro other member item first
      cases group with
      | nil =>
          rcases List.mem_cons.mp member with rfl | member
          · cases first
          · exact ih (by omega) below other member item first
      | cons head rest =>
          obtain ⟨kept, one_more, served⟩ := setDefault_spec records head
          dsimp only
          split
          · rename_i full
            have none_left : groups = [] := List.eq_nil_of_length_eq_zero (by omega)
            rw [none_left] at member
            cases List.mem_singleton.mp member
            cases first
            exact served
          · rename_i open_
            have kept_rest := (mergeRound_records (Nat.lt_of_not_le open_) (groups.map fun group => (⟨group, false⟩ : Lane α))).1
            rcases List.mem_cons.mp member with rfl | member
            · cases first
              exact served_of_prefix kept_rest served
            · exact ih (by omega) (Nat.lt_of_not_le open_) other member item first

theorem mergeLoop_records (within : records.length ≤ cap) :
    records <+: mergeLoop cap lanes records ∧ (mergeLoop cap lanes records).length ≤ cap := by
  fun_induction mergeLoop cap lanes records with
  | case1 lanes records going moved ih =>
      obtain ⟨kept, below⟩ := mergeRound_records going.2 lanes
      obtain ⟨kept', below'⟩ := ih below
      exact ⟨kept.trans kept', below'⟩
  | case2 lanes records going still => exact mergeRound_records going.2 lanes
  | case3 lanes records ended => exact ⟨List.prefix_rfl, within⟩

theorem served_of_exhausted (tracked : List.Forall₂ (Tracks records) groups lanes) (ended : ∀ lane ∈ lanes, lane.exhausted = true) :
    ∀ group ∈ groups, ∀ item ∈ group, Served records item := by
  intro group member item inside
  obtain ⟨lane, here, handed, whole, served, ends⟩ := forall₂_mem_left tracked group member
  rw [whole, ends (ended lane here), List.append_nil] at inside
  exact served item inside

/-- Below the cap, every record of every lane is served. -/
theorem mergeLoop_all (tracked : List.Forall₂ (Tracks records) groups lanes) (short : (mergeLoop cap lanes records).length < cap) :
    ∀ group ∈ groups, ∀ item ∈ group, Served (mergeLoop cap lanes records) item := by
  fun_induction mergeLoop cap lanes records with
  | case1 lanes records going moved ih => exact ih (mergeRound_tracks tracked List.prefix_rfl going.2) short
  | case2 lanes records going still =>
      exact served_of_exhausted (mergeRound_tracks tracked List.prefix_rfl going.2) (mergeRound_still lanes (Bool.not_eq_true _ ▸ still))
  | case3 lanes records ended =>
      apply served_of_exhausted tracked
      intro lane member
      by_contra open_
      exact ended ⟨⟨lane, member, by simpa using open_⟩, short⟩

theorem fresh_tracks (records : List (String × α)) (groups : List (List (String × α))) :
    List.Forall₂ (Tracks records) groups (groups.map fun group => ⟨group, false⟩) := by
  rw [List.forall₂_map_right_iff, List.forall₂_same]
  intro group _
  refine ⟨[], rfl, fun item member => ?_, fun ended => ?_⟩
  · cases member
  · cases ended

/-- Records that were there stay first, the cap is kept, every lane is served once, and completely below the cap. -/
theorem mergeLanes_spec {available : ℕ} (few : groups.length ≤ available) (records : List (String × α)) :
    records <+: mergeLanes available groups records ∧ (mergeLanes available groups records).length ≤ records.length + available ∧
    (∀ group ∈ groups, ∀ item ∈ group.head?, Served (mergeLanes available groups records) item) ∧
    ((mergeLanes available groups records).length < records.length + available →
      ∀ group ∈ groups, ∀ item ∈ group, Served (mergeLanes available groups records) item) := by
  have within : records.length ≤ records.length + available := Nat.le_add_right _ _
  obtain ⟨kept, capped⟩ : records <+: mergeLanes available groups records ∧
      (mergeLanes available groups records).length ≤ records.length + available := mergeLoop_records within
  refine ⟨kept, capped, ?_, fun short => ?_⟩
  · intro group member item first
    have some_ : 0 < groups.length := List.length_pos_of_mem member
    have below : records.length < records.length + available := by omega
    have going : (∃ lane ∈ groups.map fun group => (⟨group, false⟩ : Lane α), lane.exhausted = false) ∧
        records.length < records.length + available := ⟨⟨⟨group, false⟩, List.mem_map_of_mem member, rfl⟩, below⟩
    have served := mergeRound_first (by omega) below group member item first
    have capped_round := (mergeRound_records below (groups.map fun group => (⟨group, false⟩ : Lane α))).2
    rw [mergeLanes, mergeLoop, if_pos going]
    split
    · exact served_of_prefix (mergeLoop_records capped_round).1 served
    · exact served
  · exact mergeLoop_all (fresh_tracks records groups) short

/-! ### What the budgets are -/

theorem reduce_enough {total : ℕ} {budgets : List ℕ} (enough : budgets.sum ≤ total) : reduce total budgets = budgets := by
  rw [reduce, dif_neg]
  intro large
  omega

/-- From `index` on, each of the next lanes gets one more. -/
def bonus (index count : ℕ) (budgets : List ℕ) : List ℕ :=
  budgets.mapIdx fun i budget => if index ≤ i ∧ i < index + count then budget + 1 else budget

theorem bonus_zero (index : ℕ) (budgets : List ℕ) : bonus index 0 budgets = budgets := by
  rw [bonus]
  apply List.ext_getElem (by simp)
  intro i inside _
  rw [List.getElem_mapIdx, if_neg (by omega)]

theorem bonus_succ (index count : ℕ) (budgets : List ℕ) :
    bonus (index + 1) count (budgets.modify index (· + 1)) = bonus index (count + 1) budgets := by
  rw [bonus, bonus]
  apply List.ext_getElem (by simp)
  intro i _ _
  rw [List.getElem_mapIdx, List.getElem_mapIdx, List.getElem_modify]
  by_cases here : index = i
  · rw [if_pos here, if_neg (by omega), if_pos (by omega)]
  · rw [if_neg here]
    congr 1
    rw [eq_iff_iff]
    omega

/-- What is missing is handed out to the first lanes. -/
theorem refill_bonus {total index : ℕ} {budgets : List ℕ} (few : index + (total - budgets.sum) ≤ budgets.length) :
    refill total index budgets = bonus index (total - budgets.sum) budgets := by
  induction missing : total - budgets.sum generalizing index budgets with
  | zero =>
      rw [refill, dif_neg (by omega), bonus_zero]
  | succ count ih =>
      have inside : index < budgets.length := by omega
      have some_ : 0 < budgets.length := by omega
      have more := raised some_ index
      rw [refill, dif_pos ⟨some_, by omega⟩]
      rw [Nat.mod_eq_of_lt inside] at more ⊢
      rw [ih (by rw [List.length_modify]; omega) (by omega), bonus_succ]

theorem refill_sum {total index : ℕ} {budgets : List ℕ} (some_ : 0 < budgets.length) (enough : budgets.sum ≤ total) :
    (refill total index budgets).sum = total := by
  fun_induction refill total index budgets with
  | case1 index budgets less ih =>
      have more := raised less.1 index
      exact ih (by rw [List.length_modify]; exact some_) (by omega)
  | case2 index budgets full => omega

/-- Shares that are rounded down miss less than one for each lane. -/
theorem floors (total whole : ℕ) (positive : 0 < whole) (weights : List ℕ) :
    (weights.map fun w => total * w / whole).sum * whole ≤ total * weights.sum ∧
      total * weights.sum + weights.length ≤ (weights.map fun w => total * w / whole).sum * whole + weights.length * whole := by
  induction weights with
  | nil => simp
  | cons w weights ih =>
      obtain ⟨low, high⟩ := ih
      have split := Nat.div_add_mod (total * w) whole
      have rest := Nat.mod_lt (total * w) positive
      have swap := Nat.mul_comm whole (total * w / whole)
      simp only [List.map_cons, List.sum_cons, List.length_cons, Nat.add_mul, Nat.mul_add]
      constructor <;> omega

variable {scopes : List OperatorScope} {total : ℕ}

theorem weight_pos (scope : OperatorScope) : 0 < weight scope := by
  unfold weight
  split <;> decide

theorem weight_le (scope : OperatorScope) : weight scope ≤ 2 := by
  unfold weight
  split <;> decide

/-- Each lane weighs one, and a primary lane one more. -/
theorem totalWeight_eq (scopes : List OperatorScope) :
    totalWeight scopes = scopes.length + scopes.countP fun scope => scope.role = .primary := by
  induction scopes with
  | nil => rfl
  | cons scope scopes ih =>
      rw [totalWeight, List.map_cons, List.sum_cons, ← totalWeight, ih, List.countP_cons, List.length_cons, weight]
      by_cases primary : scope.role = .primary
      · simp only [primary, if_true, decide_true]
        omega
      · simp only [primary, if_false, decide_false, Bool.false_eq_true]
        omega

/-- With the total weight at hand, nothing is rounded up. -/
theorem shares_rich (rich : totalWeight scopes ≤ total) (some_ : scopes ≠ []) :
    shares scopes total = (scopes.map weight).map fun w => total * w / totalWeight scopes := by
  rw [shares, List.map_map]
  apply List.map_congr_left
  intro scope _
  have positive : 0 < totalWeight scopes := by
    have long := List.length_pos_iff.mpr some_
    rw [totalWeight_eq]
    omega
  have least : 1 ≤ total * weight scope / totalWeight scopes := by
    rw [Nat.le_div_iff_mul_le positive, one_mul]
    exact rich.trans (Nat.le_mul_of_pos_right _ (weight_pos scope))
  exact max_eq_right least

/-- With less, every lane has one. -/
theorem shares_poor (poor : total < totalWeight scopes) : shares scopes total = List.replicate scopes.length 1 := by
  rw [shares, ← List.map_const']
  apply List.map_congr_left
  intro scope _
  have less : total * weight scope / totalWeight scopes < 2 := by
    rw [Nat.div_lt_iff_lt_mul (by omega)]
    calc total * weight scope ≤ total * 2 := Nat.mul_le_mul_left _ (weight_le scope)
      _ < 2 * totalWeight scopes := by omega
  exact max_eq_left (by omega)

theorem shares_length (scopes : List OperatorScope) (total : ℕ) : (shares scopes total).length = scopes.length := List.length_map _

/-- The shares leave nothing to take back, and less than one for each lane to hand out. -/
theorem shares_sum (some_ : scopes ≠ []) (enough : scopes.length ≤ total) :
    (shares scopes total).sum ≤ total ∧ total ≤ (shares scopes total).sum + scopes.length := by
  have long := List.length_pos_iff.mpr some_
  have weights := totalWeight_eq scopes
  have primaries : scopes.countP (fun scope => scope.role = .primary) ≤ scopes.length := List.countP_le_length
  by_cases rich : totalWeight scopes ≤ total
  · have positive : 0 < totalWeight scopes := by omega
    obtain ⟨low, high⟩ := floors total (totalWeight scopes) positive (scopes.map weight)
    rw [← totalWeight, List.length_map] at high
    rw [← totalWeight] at low
    rw [shares_rich rich some_]
    refine ⟨Nat.le_of_mul_le_mul_right low positive, Nat.le_of_mul_le_mul_right ?_ positive⟩
    rw [Nat.add_mul]
    omega
  · rw [shares_poor (Nat.lt_of_not_le rich), List.sum_replicate, smul_eq_mul, mul_one]
    omega

theorem laneBudgets_bonus (some_ : scopes ≠ []) (enough : scopes.length ≤ total) :
    laneBudgets scopes total = bonus 0 (total - (shares scopes total).sum) (shares scopes total) := by
  obtain ⟨at_most, close⟩ := shares_sum some_ enough
  rw [laneBudgets, if_neg some_, reduce_enough at_most]
  apply refill_bonus
  rw [shares_length]
  omega

theorem laneBudgets_sum (some_ : scopes ≠ []) (enough : scopes.length ≤ total) : (laneBudgets scopes total).sum = total := by
  obtain ⟨at_most, -⟩ := shares_sum some_ enough
  rw [laneBudgets, if_neg some_, reduce_enough at_most]
  apply refill_sum _ at_most
  rw [shares_length]
  exact List.length_pos_iff.mpr some_

theorem laneBudgets_length (enough : scopes.length ≤ total) : (laneBudgets scopes total).length = scopes.length := by
  by_cases empty : scopes = []
  · rw [empty]
    rfl
  · rw [laneBudgets_bonus empty enough, bonus, List.length_mapIdx, shares_length]

/-- A lane has its share, and perhaps one more. -/
theorem laneBudgets_at (some_ : scopes ≠ []) (enough : scopes.length ≤ total) {i budget : ℕ} {scope : OperatorScope}
    (lane : scopes[i]? = some scope) (at_i : (laneBudgets scopes total)[i]? = some budget) :
    budget = max 1 (total * weight scope / totalWeight scopes) + if i < total - (shares scopes total).sum then 1 else 0 := by
  rw [laneBudgets_bonus some_ enough, bonus, List.getElem?_mapIdx, shares, List.getElem?_map, lane] at at_i
  simp only [Option.map_some, Option.some.injEq, Nat.zero_le, true_and, Nat.zero_add] at at_i
  rw [← at_i, ← shares]
  split <;> rfl

theorem laneBudgets_pos (enough : scopes.length ≤ total) : ∀ budget ∈ laneBudgets scopes total, 1 ≤ budget := by
  intro budget member
  by_cases empty : scopes = []
  · rw [empty] at member
    cases member
  · obtain ⟨i, at_i⟩ := List.mem_iff_getElem?.mp member
    obtain ⟨inside, -⟩ := List.getElem?_eq_some_iff.mp at_i
    rw [laneBudgets_length enough] at inside
    rw [laneBudgets_at empty enough (List.getElem?_eq_getElem inside) at_i]
    exact (le_max_left 1 _).trans (Nat.le_add_right _ _)

/-! ### Fair lanes -/

/-- No primary lane has less than another one that is not. -/
def PrimaryFirst (scopes : List OperatorScope) (budgets : List ℕ) : Prop :=
  ∀ (i j : ℕ) (first second : OperatorScope) (budget other : ℕ), scopes[i]? = some first → scopes[j]? = some second →
    budgets[i]? = some budget → budgets[j]? = some other → first.role = .primary → second.role ≠ .primary → other ≤ budget

theorem primaryFirst_rich (rich : totalWeight scopes ≤ total) (enough : scopes.length ≤ total) :
    PrimaryFirst scopes (laneBudgets scopes total) := by
  intro i j first second budget other lane lane' at_i at_j primary related
  have some_ : scopes ≠ [] := by
    intro empty
    rw [empty] at lane
    cases lane
  have positive : 0 < totalWeight scopes := by
    have long := List.length_pos_iff.mpr some_
    rw [totalWeight_eq]
    omega
  have least : 1 ≤ total / totalWeight scopes := (Nat.le_div_iff_mul_le positive).mpr (by omega)
  have double : 2 * (total / totalWeight scopes) ≤ total * 2 / totalWeight scopes := by
    rw [Nat.mul_comm total 2]
    exact Nat.mul_div_le_mul_div_assoc _ _ _
  rw [laneBudgets_at some_ enough lane at_i, laneBudgets_at some_ enough lane' at_j, weight, weight, if_pos primary, if_neg related,
    mul_one]
  split <;> split <;> omega

/-- With less than the total weight, the first lanes have two, and the others one. -/
theorem primaryFirst_poor (poor : total < totalWeight scopes) (enough : scopes.length ≤ total) :
    PrimaryFirst scopes (laneBudgets scopes total) ↔ ∀ scope ∈ scopes.take (total - scopes.length), scope.role = .primary := by
  have weights := totalWeight_eq scopes
  have ones : (shares scopes total).sum = scopes.length := by
    rw [shares_poor poor, List.sum_replicate, smul_eq_mul, mul_one]
  have at_lane {i budget : ℕ} {scope : OperatorScope} (lane : scopes[i]? = some scope)
      (at_i : (laneBudgets scopes total)[i]? = some budget) : budget = 1 + if i < total - scopes.length then 1 else 0 := by
    have some_ : scopes ≠ [] := by
      intro empty
      rw [empty] at lane
      cases lane
    have less : total * weight scope / totalWeight scopes < 2 := by
      rw [Nat.div_lt_iff_lt_mul (by omega)]
      calc total * weight scope ≤ total * 2 := Nat.mul_le_mul_left _ (weight_le scope)
        _ < 2 * totalWeight scopes := by omega
    rw [laneBudgets_at some_ enough lane at_i, ones, max_eq_left (by omega)]
  have present {i : ℕ} (inside : i < scopes.length) : ∃ budget, (laneBudgets scopes total)[i]? = some budget := by
    rw [← laneBudgets_length enough] at inside
    exact ⟨_, List.getElem?_eq_getElem inside⟩
  constructor
  · intro fair second member
    by_contra related
    obtain ⟨j, at_j⟩ := List.mem_iff_getElem?.mp member
    rw [List.getElem?_take] at at_j
    split at at_j
    · rename_i early
      -- There are more primary lanes than there are places to hand out.
      have beyond : ∃ first ∈ scopes.drop (total - scopes.length), first.role = .primary := by
        by_contra none_left
        have after : (scopes.drop (total - scopes.length)).countP (fun scope => scope.role = .primary) = 0 := by
          rw [List.countP_eq_zero]
          intro first inside primary
          exact none_left ⟨first, inside, of_decide_eq_true primary⟩
        have before : (scopes.take (total - scopes.length)).countP (fun scope => scope.role = .primary) ≤ total - scopes.length :=
          List.countP_le_length.trans (List.length_take_le _ _)
        have whole := List.take_append_drop (total - scopes.length) scopes
        rw [← whole, List.countP_append, after] at weights
        rw [whole] at weights
        omega
      obtain ⟨first, after, primary⟩ := beyond
      obtain ⟨i, at_i⟩ := List.mem_iff_getElem?.mp after
      rw [List.getElem?_drop] at at_i
      obtain ⟨inside, -⟩ := List.getElem?_eq_some_iff.mp at_i
      obtain ⟨inside', -⟩ := List.getElem?_eq_some_iff.mp at_j
      obtain ⟨budget, has⟩ := present inside
      obtain ⟨other, has'⟩ := present inside'
      have less := fair _ _ _ _ _ _ at_i at_j has has' primary related
      rw [at_lane at_i has, at_lane at_j has', if_pos early, if_neg (by omega)] at less
      omega
    · cases at_j
  · intro primaries i j first second budget other lane lane' at_i at_j primary related
    have late : ¬ j < total - scopes.length := by
      intro early
      exact related (primaries second (List.mem_iff_getElem?.mpr ⟨j, by rw [List.getElem?_take_of_lt early, lane']⟩))
    rw [at_lane lane at_i, at_lane lane' at_j, if_neg late]
    exact Nat.le_add_right _ _

/-- What the lanes of a query are promised: budgets that make up the total, and a merge that serves them all. -/
structure LanesFair (α : Type) (scopes : List OperatorScope) (total : ℕ) : Prop where
  positive : ∀ budget ∈ laneBudgets scopes total, 1 ≤ budget
  sum : (laneBudgets scopes total).sum = total
  primary : PrimaryFirst scopes (laneBudgets scopes total)
  merge : ∀ (groups : List (List (String × α))) (records : List (String × α)),
    List.Forall₂ (fun budget group => group.length ≤ budget) (laneBudgets scopes total) groups →
      records <+: mergeLanes total groups records ∧ (mergeLanes total groups records).length ≤ records.length + total ∧
      (∀ group ∈ groups, ∀ item ∈ group.head?, Served (mergeLanes total groups records) item) ∧
      ((mergeLanes total groups records).length < records.length + total →
        ∀ group ∈ groups, ∀ item ∈ group, Served (mergeLanes total groups records) item)

/-- The lanes are fair where the total is the total weight at least, or what is left goes to primary lanes only. -/
theorem lanes_fair_iff (α : Type) (scopes : List OperatorScope) (total : ℕ) (enough : scopes.length ≤ total) :
    LanesFair α scopes total ↔ (scopes = [] → total = 0) ∧
      (totalWeight scopes ≤ total ∨ ∀ scope ∈ scopes.take (total - scopes.length), scope.role = .primary) := by
  have first_iff : PrimaryFirst scopes (laneBudgets scopes total) ↔
      totalWeight scopes ≤ total ∨ ∀ scope ∈ scopes.take (total - scopes.length), scope.role = .primary := by
    by_cases rich : totalWeight scopes ≤ total
    · simp [rich, primaryFirst_rich rich enough]
    · rw [primaryFirst_poor (Nat.lt_of_not_le rich) enough]
      simp [rich]
  rw [← first_iff]
  constructor
  · intro fair
    refine ⟨fun empty => ?_, fair.primary⟩
    have sum := fair.sum
    rw [empty] at sum
    exact sum.symm
  · intro ⟨nothing, primary⟩
    refine ⟨laneBudgets_pos enough, ?_, primary, fun groups records within => ?_⟩
    · by_cases empty : scopes = []
      · rw [nothing empty, empty]
        rfl
      · exact laneBudgets_sum empty enough
    · apply mergeLanes_spec
      rw [← within.length_eq, laneBudgets_length enough]
      exact enough

def lane (role : Role) (value : String) : OperatorScope := ⟨role, .family, value, .direct, value⟩

def mixed : List OperatorScope := [lane .primary "gemm", lane .related "conv", lane .primary "moe", lane .primary "norm"]

theorem lanes_fair_iff_mixed : LanesFair Unit mixed 7 := by
  apply (lanes_fair_iff Unit mixed 7 (by decide)).mpr
  exact ⟨by decide, .inl (by decide)⟩

/-- Of six records, the related lane has two and two primary lanes have one. -/
theorem related_before_primary : ¬ ∀ (scopes : List OperatorScope) (total : ℕ), scopes.length ≤ total → LanesFair Unit scopes total := by
  intro fair
  have primaries := (primaryFirst_poor (by decide) (by decide)).mp (fair mixed 6 (by decide)).primary
  exact absurd (primaries (lane .related "conv") (by decide)) (by decide)

end AtrexAgent.Lanes
