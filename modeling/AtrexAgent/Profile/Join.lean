import AtrexAgent.Library.Binary64
import AtrexAgent.Library.Intervals
import AtrexAgent.Library.Items

/-! The join of PM sampling windows with the ranges of a timeline, whose offset to the kernel's start is only bounded. -/

namespace AtrexAgent.Profile

open AtrexAgent.Binary64
open AtrexAgent.Intervals

/-- A range of the analysis owner: its name and `_event_interval_ns`. -/
structure Detail where
  name : String
  start : ℕ
  stop : ℕ
  ordered : start ≤ stop

/-- `dispatch_upper_ns`: the literal 0, or a float. -/
inductive Upper where
  | zero
  | float (x : ℚ)

def Upper.value : Upper → ℚ
  | .zero => 0
  | .float x => x

/-- `n + dispatch_upper_ns` -/
def Upper.add (n : ℕ) : Upper → ℚ
  | .zero => n
  | .float x => nearest (nearest n + x)

/-- The bound on the offset, where the analysis window is one range and where it is not. -/
def dispatchUpper (timelineDuration : ℚ) : List (ℕ × ℕ) → Upper
  | [(_, windowEnd)] =>
      let upper := nearest (timelineDuration - nearest windowEnd)
      if upper < 0 then .zero else .float upper
  | _ => .float timelineDuration

structure PmRow where
  windowStart : ℕ
  windowEnd : ℕ
  validity : String

def VALID_PM_STATES : List String := ["valid", "valid_activity_positive"]

/-- `sorted({...})` -/
def sortedNames (names : List String) : List String := names.dedup.insertionSort (· ≤ ·)

def possibleNames (details : List Detail) (upper : Upper) (start stop : ℕ) : List String :=
  sortedNames ((details.filter fun detail => Overlaps (start : ℚ) stop detail.start (upper.add detail.stop)).map Detail.name)

def guaranteedNames (details : List Detail) (upper : Upper) (start stop : ℕ) : List String :=
  sortedNames ((details.filter fun detail => upper.add detail.start < stop ∧ (start : ℚ) < detail.stop).map Detail.name)

/-- The lists of a row. -/
structure Joined where
  possible : List String
  guaranteed : List String

abbrev Cache : Type := List ((ℕ × ℕ) × Joined)

/-- One row, with the lists of equal windows kept. -/
def joinRow (details : List Detail) (upper : Upper) (cache : Cache) (row : PmRow) : Cache × Joined :=
  if row.validity ∈ VALID_PM_STATES then
    let key := (row.windowStart, row.windowEnd)
    match Items.get? cache key with
    | some joined => (cache, joined)
    | none =>
        let joined : Joined := ⟨possibleNames details upper key.1 key.2, guaranteedNames details upper key.1 key.2⟩
        (Items.set cache key joined, joined)
  else (cache, ⟨[], []⟩)

def joinRows (details : List Detail) (upper : Upper) (cache : Cache) : List PmRow → List Joined
  | [] => []
  | row :: rows =>
      let (cache, joined) := joinRow details upper cache row
      joined :: joinRows details upper cache rows

/-! ### The rows -/

variable {details : List Detail} {upper : Upper} {cache : Cache}

/-- What is kept is what would be computed. -/
def Cache.Sound (details : List Detail) (upper : Upper) (cache : Cache) : Prop := ∀ start stop joined,
  Items.get? cache (start, stop) = some joined →
    joined = ⟨possibleNames details upper start stop, guaranteedNames details upper start stop⟩

/-- The lists of a row by itself. -/
def joinedOf (details : List Detail) (upper : Upper) (row : PmRow) : Joined :=
  if row.validity ∈ VALID_PM_STATES then
    ⟨possibleNames details upper row.windowStart row.windowEnd, guaranteedNames details upper row.windowStart row.windowEnd⟩
  else ⟨[], []⟩

theorem joinRow_spec (sound : cache.Sound details upper) (row : PmRow) :
    (joinRow details upper cache row).1.Sound details upper ∧ (joinRow details upper cache row).2 = joinedOf details upper row := by
  unfold joinRow joinedOf
  split
  · dsimp only
    split
    · rename_i joined kept
      exact ⟨sound, sound _ _ _ kept⟩
    · refine ⟨fun start stop joined here => ?_, rfl⟩
      rw [Items.get?_set] at here
      split at here
      · rename_i same
        cases same
        exact (Option.some.inj here).symm
      · exact sound start stop joined here
  · exact ⟨sound, rfl⟩

/-- Keeping the lists changes none of them. -/
theorem joinRows_spec (sound : cache.Sound details upper) (rows : List PmRow) :
    joinRows details upper cache rows = rows.map (joinedOf details upper) := by
  induction rows generalizing cache with
  | nil => rfl
  | cons row rows ih =>
      obtain ⟨sound', same⟩ := joinRow_spec sound row
      rw [joinRows, List.map_cons, ← same]
      exact congrArg _ (ih sound')

/-- A name is listed where a range of that name is picked. -/
theorem mem_listed {p : Detail → Prop} [DecidablePred p] {name : String} :
    name ∈ sortedNames ((details.filter fun detail => p detail).map Detail.name) ↔
      ∃ detail ∈ details, detail.name = name ∧ p detail := by
  rw [sortedNames, List.mem_insertionSort, List.mem_dedup, List.mem_map]
  constructor
  · intro ⟨detail, member, same⟩
    obtain ⟨inside, picked⟩ := List.mem_filter.mp member
    exact ⟨detail, inside, same, of_decide_eq_true picked⟩
  · intro ⟨detail, inside, same, picked⟩
    exact ⟨detail, List.mem_filter.mpr ⟨inside, decide_eq_true picked⟩, same⟩

/-! ### Every offset -/

/-- Both ends of a range are shifted without rounding. -/
def Exact (upper : Upper) (detail : Detail) : Prop :=
  upper.add detail.start = detail.start + upper.value ∧ upper.add detail.stop = detail.stop + upper.value

/-- A range that is shifted by an offset, in the sense of `_overlaps`. -/
def Meets (start stop : ℕ) (detail : Detail) (offset : ℝ) : Prop :=
  Overlaps (start : ℝ) stop (detail.start + offset) (detail.stop + offset)

theorem possible_iff {start stop : ℕ} (window : start < stop) (nonneg : 0 ≤ upper.value) {detail : Detail} (exact : Exact upper detail) :
    Overlaps (start : ℚ) stop detail.start (upper.add detail.stop) ↔
      ∃ d : ℝ, 0 ≤ d ∧ d ≤ upper.value ∧ Meets start stop detail d := by
  have slide : (∃ d : ℝ, 0 ≤ d ∧ d ≤ upper.value ∧ Meets start stop detail d) ↔
      Overlaps (start : ℝ) stop detail.start (detail.stop + upper.value) :=
    exists_offset (by exact_mod_cast window) (by exact_mod_cast detail.ordered) (by exact_mod_cast nonneg)
  rw [slide, exact.2]
  unfold Overlaps
  norm_cast

theorem guaranteed_iff {start stop : ℕ} (nonneg : 0 ≤ upper.value) {detail : Detail} (exact : Exact upper detail) :
    (upper.add detail.start < stop ∧ (start : ℚ) < detail.stop) ↔
      ∀ d : ℝ, 0 ≤ d → d ≤ upper.value → Meets start stop detail d := by
  have slide : (∀ d : ℝ, 0 ≤ d → d ≤ upper.value → Meets start stop detail d) ↔
      (detail.start : ℝ) + upper.value < stop ∧ (start : ℝ) < detail.stop := forall_offset (by exact_mod_cast nonneg)
  rw [slide, exact.1]
  norm_cast

/-- What an accepted profile has: a float duration below `2 ^ 53` ns and an analysis window that ends within it. -/
structure Accepted (timelineDuration : ℚ) (windowEnd : ℕ) : Prop where
  double : nearest timelineDuration = timelineDuration
  positive : 0 < timelineDuration
  below : timelineDuration < 2 ^ 53
  within : (windowEnd : ℚ) ≤ timelineDuration

/-- The bound and every time up to the window's end lie on the grid of the duration. -/
theorem Accepted.shift {timelineDuration : ℚ} {windowEnd n : ℕ} (accepted : Accepted timelineDuration windowEnd) (inside : n ≤ windowEnd) :
    nearest (n + (timelineDuration - windowEnd)) = n + (timelineDuration - windowEnd) := by
  obtain ⟨w, window⟩ := integer_on_grid accepted.positive accepted.below windowEnd
  obtain ⟨m, time⟩ := integer_on_grid accepted.positive accepted.below n
  have duration : timelineDuration = roundHalfEven (timelineDuration / spacing timelineDuration) * spacing timelineDuration :=
    accepted.double.symm
  have earlier : (n : ℚ) ≤ windowEnd := by exact_mod_cast inside
  have within := accepted.within
  refine nearest_of_multiple (y := timelineDuration) (add_nonneg (Nat.cast_nonneg n) (sub_nonneg.mpr within)) (by linarith)
    (m := m + (roundHalfEven (timelineDuration / spacing timelineDuration) - w)) ?_
  push_cast at time window ⊢
  rw [add_mul, sub_mul, ← duration, ← window, ← time]

theorem Accepted.small {timelineDuration : ℚ} {windowEnd n : ℕ} (accepted : Accepted timelineDuration windowEnd) (inside : n ≤ windowEnd) :
    n < 2 ^ 53 := by
  have earlier : (n : ℚ) ≤ windowEnd := by exact_mod_cast inside
  have below := (earlier.trans accepted.within).trans_lt accepted.below
  exact_mod_cast below

/-- In an accepted profile nothing is rounded. -/
theorem Accepted.exact {timelineDuration : ℚ} {windowEnd : ℕ} (accepted : Accepted timelineDuration windowEnd) (windowStart : ℕ) :
    dispatchUpper timelineDuration [(windowStart, windowEnd)] = .float (timelineDuration - windowEnd) ∧
      ∀ detail : Detail, detail.stop ≤ windowEnd → Exact (.float (timelineDuration - windowEnd)) detail := by
  have bound : nearest (timelineDuration - windowEnd) = timelineDuration - windowEnd := by
    simpa using accepted.shift (Nat.zero_le windowEnd)
  constructor
  · rw [dispatchUpper, nearest_natCast (accepted.small le_rfl), bound]
    exact if_neg (not_lt.mpr (sub_nonneg.mpr accepted.within))
  · intro detail inside
    unfold Exact Upper.add Upper.value
    dsimp only
    rw [nearest_natCast (accepted.small inside), nearest_natCast (accepted.small (detail.ordered.trans inside))]
    exact ⟨accepted.shift (detail.ordered.trans inside), accepted.shift inside⟩

/-- Every row is joined by itself; where the shifted ends are exact, a name is possible if a range of it meets the window at some
offset, and guaranteed if one does at every offset; and they are exact in an accepted profile. -/
theorem join_sound_complete (details : List Detail) (upper : Upper) (nonneg : 0 ≤ upper.value)
    (exact : ∀ detail ∈ details, Exact upper detail) (rows : List PmRow) :
    joinRows details upper [] rows = rows.map (joinedOf details upper) ∧
    (∀ row ∈ rows, row.validity ∈ VALID_PM_STATES → row.windowStart < row.windowEnd →
      (∀ name, name ∈ (joinedOf details upper row).possible ↔ ∃ detail ∈ details, detail.name = name ∧
        ∃ d : ℝ, 0 ≤ d ∧ d ≤ upper.value ∧ Meets row.windowStart row.windowEnd detail d) ∧
      (∀ name, name ∈ (joinedOf details upper row).guaranteed ↔ ∃ detail ∈ details, detail.name = name ∧
        ∀ d : ℝ, 0 ≤ d → d ≤ upper.value → Meets row.windowStart row.windowEnd detail d) ∧
      (∀ name ∈ (joinedOf details upper row).guaranteed, name ∈ (joinedOf details upper row).possible) ∧
      (upper.value = 0 → (joinedOf details upper row).possible = (joinedOf details upper row).guaranteed)) ∧
    ∀ timelineDuration windowStart windowEnd, Accepted timelineDuration windowEnd →
      dispatchUpper timelineDuration [(windowStart, windowEnd)] = .float (timelineDuration - windowEnd) ∧
        ∀ detail : Detail, detail.stop ≤ windowEnd → Exact (.float (timelineDuration - windowEnd)) detail := by
  refine ⟨joinRows_spec (by simp [Cache.Sound]) rows, fun row _ valid window => ?_,
    fun timelineDuration windowStart windowEnd accepted => accepted.exact windowStart⟩
  have same : joinedOf details upper row = ⟨possibleNames details upper row.windowStart row.windowEnd,
      guaranteedNames details upper row.windowStart row.windowEnd⟩ := if_pos valid
  have possible (name : String) : name ∈ possibleNames details upper row.windowStart row.windowEnd ↔ ∃ detail ∈ details,
      detail.name = name ∧ ∃ d : ℝ, 0 ≤ d ∧ d ≤ upper.value ∧ Meets row.windowStart row.windowEnd detail d := by
    rw [possibleNames, mem_listed]
    exact exists_congr fun detail => and_congr_right fun member => and_congr_right fun _ =>
      possible_iff window nonneg (exact detail member)
  have guaranteed (name : String) : name ∈ guaranteedNames details upper row.windowStart row.windowEnd ↔ ∃ detail ∈ details,
      detail.name = name ∧ ∀ d : ℝ, 0 ≤ d → d ≤ upper.value → Meets row.windowStart row.windowEnd detail d := by
    rw [guaranteedNames, mem_listed]
    exact exists_congr fun detail => and_congr_right fun member => and_congr_right fun _ =>
      guaranteed_iff nonneg (exact detail member)
  rw [same]
  refine ⟨possible, guaranteed, fun name listed => ?_, fun still => ?_⟩
  · obtain ⟨detail, member, named, always⟩ := (guaranteed name).mp listed
    exact (possible name).mpr ⟨detail, member, named, 0, le_rfl, by exact_mod_cast nonneg, always 0 le_rfl (by exact_mod_cast nonneg)⟩
  · dsimp only
    rw [possibleNames, guaranteedNames]
    congr 2
    apply List.filter_congr
    intro detail member
    obtain ⟨first, last⟩ := exact detail member
    rw [first, last, still, add_zero, add_zero, decide_eq_decide]
    exact and_comm

/-! ### Where an end is rounded -/

def unit : Detail := ⟨"load", 0, 1, by decide⟩

/-- A bound of `2 ^ 53` ns, to which one more is not a float. -/
def wide : Upper := .float (2 ^ 53)

theorem wide_add : wide.add 1 = 2 ^ 53 := by
  have spaced : spacing (2 ^ 53 + 1) = 2 := by
    rw [spacing_eq (k := 53) (by norm_num) (by norm_num) (by norm_num)]
    norm_num
  have rounded : roundHalfEven ((2 ^ 53 + 1) / 2) = 2 ^ 52 := by
    norm_num [roundHalfEven]
  have one : nearest ((1 : ℕ) : ℚ) = 1 := by simpa using nearest_one
  rw [wide, Upper.add, one, add_comm, nearest, spaced, rounded]
  norm_num

theorem join_sound_complete_unit : "load" ∈ (joinedOf [unit] .zero ⟨0, 1, "valid"⟩).possible ↔ ∃ detail ∈ [unit], detail.name = "load" ∧
    ∃ d : ℝ, 0 ≤ d ∧ d ≤ Upper.zero.value ∧ Meets 0 1 detail d :=
  (((join_sound_complete [unit] .zero le_rfl (by simp [Exact, Upper.add, Upper.value]) [⟨0, 1, "valid"⟩]).2.1 _
    List.mem_cons_self (by decide) (by decide)).1 "load")

/-- A range that reaches the window at its last offset is not listed. -/
theorem join_misses : ¬ ∀ (details : List Detail) (upper : Upper) (row : PmRow), 0 ≤ upper.value → row.validity ∈ VALID_PM_STATES →
    row.windowStart < row.windowEnd → ∀ name, name ∈ (joinedOf details upper row).possible ↔ ∃ detail ∈ details, detail.name = name ∧
      ∃ d : ℝ, 0 ≤ d ∧ d ≤ upper.value ∧ Meets row.windowStart row.windowEnd detail d := by
  intro always
  have listed := (always [unit] wide ⟨2 ^ 53, 2 ^ 53 + 1, "valid"⟩ (by norm_num [wide, Upper.value]) (by decide) (by norm_num) "load").mpr
    ⟨unit, List.mem_cons_self, rfl, 2 ^ 53, by norm_num, by norm_num [wide, Upper.value], by norm_num [Meets, Overlaps, unit]⟩
  have valid : joinedOf [unit] wide ⟨2 ^ 53, 2 ^ 53 + 1, "valid"⟩ =
      ⟨possibleNames [unit] wide (2 ^ 53) (2 ^ 53 + 1), guaranteedNames [unit] wide (2 ^ 53) (2 ^ 53 + 1)⟩ := if_pos (by decide)
  rw [valid, possibleNames, mem_listed] at listed
  obtain ⟨detail, member, -, reaches, -⟩ := listed
  rw [List.mem_singleton.mp member, unit, wide_add] at reaches
  norm_num at reaches

end AtrexAgent.Profile
