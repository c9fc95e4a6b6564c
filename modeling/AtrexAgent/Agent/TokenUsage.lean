import Mathlib

/-! Token usages: five counters, each of which may be unknown, and how well they are measured. -/

namespace AtrexAgent.Tokens

inductive Measurement where
  | exact | partially | unavailable
  deriving DecidableEq, Repr

/-- The names of the counters. -/
inductive Component where
  | input | output | cacheRead | cacheWrite | total
  deriving DecidableEq, Repr

def COMPONENTS : List Component := [.input, .output, .cacheRead, .cacheWrite, .total]

structure TokenUsage where
  inputTokens : Option Int
  outputTokens : Option Int
  cacheReadTokens : Option Int
  cacheWriteTokens : Option Int
  totalTokens : Option Int
  measurement : Measurement
  deriving DecidableEq, Repr

namespace TokenUsage

/-- `getattr(usage, name)` -/
def component (usage : TokenUsage) : Component → Option Int
  | .input => usage.inputTokens
  | .output => usage.outputTokens
  | .cacheRead => usage.cacheReadTokens
  | .cacheWrite => usage.cacheWriteTokens
  | .total => usage.totalTokens

def unavailable : TokenUsage := ⟨none, none, none, none, none, .unavailable⟩

def zero : TokenUsage := ⟨some 0, some 0, some 0, some 0, some 0, .exact⟩

end TokenUsage

/-- A sum that is unknown where a part is. -/
def sumKnown : List (Option Int) → Option Int
  | [] => some 0
  | none :: _ => none
  | some n :: rest => (sumKnown rest).map (n + ·)

/-- `sum_token_usages` -/
def sumTokenUsages (usages : List TokenUsage) : TokenUsage :=
  let observed := usages.filter fun usage => usage.totalTokens.isSome
  if observed = [] then .unavailable
  else
    let component (name : Component) := sumKnown (observed.map fun usage => usage.component name)
    { inputTokens := component .input
      outputTokens := component .output
      cacheReadTokens := component .cacheRead
      cacheWriteTokens := component .cacheWrite
      totalTokens := some (observed.map fun usage => usage.totalTokens.getD 0).sum
      measurement :=
        if observed.length = usages.length ∧ ∀ usage ∈ observed, usage.measurement = .exact then .exact
        else .partially }

/-- `token_usage_exceeds` -/
def tokenUsageExceeds (observed terminal : TokenUsage) : Bool :=
  COMPONENTS.any fun name =>
    match observed.component name, terminal.component name with
    | some left, some right => right < left
    | _, _ => false

/-- `subtract_token_usage`, or nothing where it raises. -/
def subtractTokenUsage (total part : TokenUsage) : Option TokenUsage :=
  if tokenUsageExceeds part total then none
  else
    let component (name : Component) := do pure ((← total.component name) - (← part.component name))
    some
      { inputTokens := component .input
        outputTokens := component .output
        cacheReadTokens := component .cacheRead
        cacheWriteTokens := component .cacheWrite
        totalTokens := component .total
        measurement := if total.measurement = .exact ∧ part.measurement = .exact then .exact else .partially }

/-! ### Exact usages -/

/-- Counters that are all known. -/
abbrev Counts := Component → Int

def ofCounts (counts : Counts) : TokenUsage :=
  ⟨some (counts .input), some (counts .output), some (counts .cacheRead), some (counts .cacheWrite),
    some (counts .total), .exact⟩

@[simp] theorem component_ofCounts (counts : Counts) (name : Component) :
    (ofCounts counts).component name = some (counts name) := by
  cases name <;> rfl

@[simp] theorem total_ofCounts (counts : Counts) : (ofCounts counts).totalTokens = some (counts .total) := rfl

@[simp] theorem measurement_ofCounts (counts : Counts) : (ofCounts counts).measurement = .exact := rfl

theorem ofCounts_zero : ofCounts 0 = .zero := rfl

theorem ofCounts_inj {counts counts' : Counts} (same : ofCounts counts = ofCounts counts') : counts = counts' := by
  funext name
  have component := congrArg (fun usage => usage.component name) same
  simpa using component

theorem sumKnown_some (values : List Int) : sumKnown (values.map some) = some values.sum := by
  induction values with
  | nil => rfl
  | cons value rest ih => simp [sumKnown, ih]

theorem sum_component (usages : List Counts) (name : Component) :
    usages.sum name = (usages.map fun counts => counts name).sum := by
  induction usages with
  | nil => rfl
  | cons counts rest ih => simp [ih]

/-- Exact usages are summed counter by counter. -/
theorem sumTokenUsages_exact {usages : List Counts} (some_usage : usages ≠ []) :
    sumTokenUsages (usages.map ofCounts) = ofCounts usages.sum := by
  have observed : (usages.map ofCounts).filter (fun usage => usage.totalTokens.isSome) = usages.map ofCounts := by
    rw [List.filter_eq_self]
    intro usage member
    obtain ⟨counts, -, rfl⟩ := List.mem_map.mp member
    rfl
  have known (name : Component) : sumKnown ((usages.map ofCounts).map fun usage => usage.component name) =
      some (usages.sum name) := by
    rw [List.map_map, sum_component, ← sumKnown_some, List.map_map]
    congr 1
    simp
  have exact_all : ∀ usage ∈ usages.map ofCounts, usage.measurement = .exact := by
    intro usage member
    obtain ⟨counts, -, rfl⟩ := List.mem_map.mp member
    rfl
  unfold sumTokenUsages
  simp only [observed, known]
  rw [if_neg (by simpa using some_usage), if_pos ⟨trivial, exact_all⟩, List.map_map]
  unfold ofCounts
  simp only [sum_component usages .total]
  rfl

/-! ### Sums of usages that may be unknown -/

theorem sumKnown_eq (values : List (Option Int)) :
    sumKnown values = if none ∈ values then none else some (values.map fun value => value.getD 0).sum := by
  induction values with
  | nil => rfl
  | cons value rest ih =>
      cases value with
      | none => simp [sumKnown]
      | some n =>
          rw [sumKnown, ih]
          split <;> rename_i missing <;> simp [missing]

theorem sumKnown_perm {values values' : List (Option Int)} (perm : values.Perm values') :
    sumKnown values = sumKnown values' := by
  rw [sumKnown_eq, sumKnown_eq, (perm.map _).sum_eq]
  simp only [perm.mem_iff]

/-- A sum of sums is the sum of all. -/
theorem sumKnown_flatten (groups : List (List (Option Int))) :
    sumKnown (groups.map sumKnown) = sumKnown groups.flatten := by
  have missing : none ∈ groups.map sumKnown ↔ none ∈ groups.flatten := by
    simp only [List.mem_map, List.mem_flatten, sumKnown_eq, ite_eq_left_iff, reduceCtorEq, imp_false, not_not]
  have sums (group : List (Option Int)) (all : none ∉ group) :
      (sumKnown group).getD 0 = (group.map fun value => value.getD 0).sum := by
    rw [sumKnown_eq, if_neg all]
    rfl
  rw [sumKnown_eq, sumKnown_eq]
  simp only [missing]
  split
  · rfl
  · rename_i all
    congr 1
    rw [List.map_flatten, List.sum_flatten, List.map_map, List.map_map]
    refine congrArg List.sum (List.map_congr_left fun group member => ?_)
    exact sums group fun inside => all (List.mem_flatten.mpr ⟨group, member, inside⟩)

/-- The totals of usages; an unknown one counts for nothing. -/
def totalOf (usages : List TokenUsage) : Int := (usages.map fun usage => usage.totalTokens.getD 0).sum

@[simp] theorem totalOf_nil : totalOf [] = 0 := rfl

@[simp] theorem totalOf_cons (usage : TokenUsage) (usages : List TokenUsage) :
    totalOf (usage :: usages) = usage.totalTokens.getD 0 + totalOf usages := by
  simp [totalOf]

@[simp] theorem totalOf_append (usages usages' : List TokenUsage) :
    totalOf (usages ++ usages') = totalOf usages + totalOf usages' := by
  simp [totalOf]

theorem totalOf_perm {usages usages' : List TokenUsage} (perm : usages.Perm usages') : totalOf usages = totalOf usages' :=
  (perm.map _).sum_eq

theorem totalOf_nonneg {usages : List TokenUsage} (nonneg : ∀ usage ∈ usages, 0 ≤ usage.totalTokens.getD 0) :
    0 ≤ totalOf usages := by
  apply List.sum_nonneg
  intro total member
  obtain ⟨usage, inside, rfl⟩ := List.mem_map.mp member
  exact nonneg usage inside

theorem totalOf_observed (usages : List TokenUsage) :
    totalOf (usages.filter fun usage => usage.totalTokens.isSome) = totalOf usages := by
  induction usages with
  | nil => rfl
  | cons usage rest ih =>
      rw [List.filter_cons]
      cases total : usage.totalTokens <;> simp [total, ih]

theorem sumTokenUsages_total (usages : List TokenUsage) : (sumTokenUsages usages).totalTokens.getD 0 = totalOf usages := by
  unfold sumTokenUsages
  dsimp only
  split
  · rename_i none_observed
    rw [← totalOf_observed, none_observed]
    rfl
  · exact totalOf_observed usages

theorem sumTokenUsages_known {usages : List TokenUsage} :
    (sumTokenUsages usages).totalTokens.isSome = true ↔ ∃ usage ∈ usages, usage.totalTokens.isSome = true := by
  unfold sumTokenUsages
  dsimp only
  split
  · rename_i none_observed
    simpa [TokenUsage.unavailable] using none_observed
  · rename_i observed
    simpa [Option.isSome_iff_ne_none] using observed

theorem sumTokenUsages_exact_iff {usages : List TokenUsage} : (sumTokenUsages usages).measurement = .exact ↔
    usages ≠ [] ∧ ∀ usage ∈ usages, usage.totalTokens.isSome = true ∧ usage.measurement = .exact := by
  unfold sumTokenUsages
  dsimp only
  split
  · rename_i none_observed
    simp only [TokenUsage.unavailable, reduceCtorEq, false_iff, not_and]
    intro some_usage all
    obtain ⟨usage, member⟩ := List.exists_mem_of_ne_nil _ some_usage
    exact List.filter_eq_nil_iff.mp none_observed usage member (all usage member).1
  · rename_i observed
    have some_usage : usages ≠ [] := by
      rintro rfl
      exact observed rfl
    have complete : ((usages.filter fun usage => usage.totalTokens.isSome).length = usages.length ∧
        ∀ usage ∈ usages.filter fun usage => usage.totalTokens.isSome, usage.measurement = .exact) ↔
          ∀ usage ∈ usages, usage.totalTokens.isSome = true ∧ usage.measurement = .exact := by
      rw [List.length_filter_eq_length_iff]
      simp only [List.mem_filter, and_imp, forall_and]
      exact and_congr_right fun each => forall₂_congr fun usage member => imp_iff_right (each usage member)
    simp only [complete, ite_eq_left_iff, reduceCtorEq, imp_false, not_not]
    exact (and_iff_right some_usage).symm

theorem component_sumTokenUsages {usages : List TokenUsage} (some_usage : usages ≠ [])
    (known : ∀ usage ∈ usages, usage.totalTokens.isSome = true) (name : Component) :
    (sumTokenUsages usages).component name = sumKnown (usages.map fun usage => usage.component name) := by
  have observed : usages.filter (fun usage => usage.totalTokens.isSome) = usages := List.filter_eq_self.mpr known
  unfold sumTokenUsages
  simp only [observed, if_neg some_usage]
  cases name with
  | total =>
      have all : none ∉ usages.map fun usage => usage.component .total := by
        intro member
        obtain ⟨usage, inside, missing⟩ := List.mem_map.mp member
        have := known usage inside
        simp only [TokenUsage.component] at missing
        simp [missing] at this
      have sum : sumKnown (usages.map fun usage => usage.component .total) =
          some (usages.map fun usage => usage.totalTokens.getD 0).sum := by
        rw [sumKnown_eq, if_neg all, List.map_map]
        rfl
      exact sum.symm
  | _ => rfl

theorem tokenUsageExceeds_iff {observed terminal : TokenUsage} : tokenUsageExceeds observed terminal = true ↔
    ∃ name left right, observed.component name = some left ∧ terminal.component name = some right ∧ right < left := by
  have listed (name : Component) : name ∈ COMPONENTS := by cases name <;> decide
  simp only [tokenUsageExceeds, List.any_eq_true]
  constructor
  · intro found
    obtain ⟨name, -, more⟩ := found
    refine ⟨name, ?_⟩
    cases left : observed.component name with
    | none => simp [left] at more
    | some _ => cases right : terminal.component name <;> simp_all
  · intro found
    obtain ⟨name, left, right, here, there, more⟩ := found
    exact ⟨name, listed name, by simp [here, there, more]⟩

theorem subtractTokenUsage_total {total part : TokenUsage} {m n : Int} (fits : tokenUsageExceeds part total = false)
    (whole : total.totalTokens = some m) (piece : part.totalTokens = some n) :
    ∃ rest, subtractTokenUsage total part = some rest ∧ rest.totalTokens = some (m - n) := by
  rw [subtractTokenUsage, fits, if_neg (by simp)]
  exact ⟨_, rfl, by simp [TokenUsage.component, whole, piece]⟩

end AtrexAgent.Tokens
