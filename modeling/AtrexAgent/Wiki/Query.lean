import AtrexAgent.Library.Binary64
import Mathlib.Data.List.Infix

/-! Retrieval over the record store: which records a scope reaches, how they match and how they are ranked. -/

namespace AtrexAgent.WikiQuery

open AtrexAgent.Binary64

/-- `retrieval.scope` of a record. -/
structure Scope where
  vendor : Option String
  arch : Option String
  architectures : List String
  dsl : Option String
  operatorFamily : Option String
  operators : List String
  deriving DecidableEq

/-- A record of the index, as far as it is filtered and ranked. -/
structure Entry where
  id : String
  path : String
  type : String
  level : String
  status : Option String
  tier : Option String
  scope : Scope
  bottleneck : Option String
  symptoms : List String
  searchText : String
  worthScore : Option ℚ
  gainPct : Option ℚ
  speedupX : Option ℚ
  deriving DecidableEq

inductive RankMode where
  | blend | text | importance
  deriving DecidableEq

structure Args where
  arch : Option String
  vendor : Option String
  dsl : Option String
  family : Option String
  operator : Option String
  type : Option String
  level : Option String
  status : Option String
  tier : Option String
  symptom : Option String
  strictArch : Bool
  crossArch : Bool
  minImportance : Option ℚ
  minGain : Option ℚ
  minSpeedup : Option ℚ
  exclude : List String
  any : Bool
  rank : RankMode
  weightImportance : ℚ

/-- Which vendor an architecture belongs to. -/
def ARCH_VENDOR : List (String × String) :=
  [("ampere", "nvidia"), ("ada", "nvidia"), ("hopper", "nvidia"), ("blackwell", "nvidia"),
    ("blackwell-ultra", "nvidia"), ("blackwell-geforce", "nvidia"), ("cdna3", "amd"), ("cdna4", "amd"),
    ("rdna4", "amd"), ("zwm890p", "ppu")]

def NEUTRAL_ARCH : String := "generic"

def NEUTRAL_RANK_DISCOUNT : ℚ := nearest 0.85

def NEUTRAL_DSL_RANK_DISCOUNT : ℚ := nearest 0.85

def CROSS_ARCH_RANK_DISCOUNT : ℚ := nearest 0.6

/-- A filter that is set; an empty text sets none. -/
def given (filter : Option String) : Option String := filter.filter (· ≠ "")

inductive Reach where
  | exact | neutral | other
  deriving DecidableEq

inductive Strength where
  | signal | text
  deriving DecidableEq

def textScore (entry : Entry) (terms : List String) (matchAny : Bool) : Nat :=
  if terms.isEmpty then 1
  else
    let hits := terms.countP fun t => t.toList <:+: entry.searchText.toList
    if hits = 0 ∨ (¬ matchAny ∧ hits ≠ terms.length) then 0 else hits

def symptomMatch (entry : Entry) (symptom : String) : Option Strength :=
  if entry.bottleneck = some symptom ∨ symptom ∈ entry.symptoms then some .signal
  else if symptom.toList.map (fun c => if c = '-' then ' ' else c) <:+: entry.searchText.toList then some .text
  else none

/-- `vendor in (want, "generic", None)` -/
def Vendored (want vendor : Option String) : Prop := vendor = want ∨ vendor = some "generic" ∨ vendor = none

instance (want vendor : Option String) : Decidable (Vendored want vendor) := inferInstanceAs (Decidable (_ ∨ _ ∨ _))

/-- How a record is reached by an arch-scoped query, or nothing if it is not. -/
def archReach (scope : Scope) (arch : String) (strict cross : Bool) : Option Reach :=
  if scope.arch = some arch ∨ arch ∈ scope.architectures then some .exact
  else if strict then none
  else if scope.arch = some NEUTRAL_ARCH then
    if arch = NEUTRAL_ARCH ∨ Vendored (ARCH_VENDOR.lookup arch) scope.vendor then some .neutral else none
  else if cross ∧ Vendored (ARCH_VENDOR.lookup arch) scope.vendor then some .other
  else none

def reached (args : Args) (entry : Entry) : Option Reach :=
  match given args.arch with
  | none => some .exact
  | some arch => archReach entry.scope arch args.strictArch args.crossArch

/-- A record is written for an operator, or for no one. -/
def operatorAdmits (scope : Scope) (operator : String) : Bool :=
  operator ∈ scope.operators ∨ (scope.operators.isEmpty ∧ (given scope.operatorFamily).isNone)

/-- The filters besides the architecture and the symptom. -/
def admits (args : Args) (entry : Entry) : Bool :=
  (given args.vendor).all (fun v => entry.scope.vendor = some v ∨ entry.scope.vendor = some "generic") &&
  (given args.dsl).all (fun d => entry.scope.dsl = some d ∨ entry.scope.dsl = some "any") &&
  (given args.family).all (fun f => entry.scope.operatorFamily = some f) &&
  (given args.operator).all (operatorAdmits entry.scope) &&
  (given args.type).all (fun t => entry.type = t) &&
  (given args.level).all (fun l => entry.level = l) &&
  (given args.status).all (fun s => entry.status = some s) &&
  (given args.tier).all (fun t => entry.tier = some t) &&
  args.minImportance.all (fun low => low ≤ entry.worthScore.getD 0) &&
  args.minGain.all (fun low => entry.gainPct.any fun gain => low ≤ gain) &&
  args.minSpeedup.all (fun low => entry.speedupX.any fun speedup => low ≤ speedup) &&
  !args.exclude.contains entry.id

structure Hit where
  entry : Entry
  reach : Reach
  strength : Option Strength
  deriving DecidableEq

/-- How a record matches the symptom, where one is asked for; nothing if it does not. -/
def strength? (args : Args) (entry : Entry) : Option (Option Strength) :=
  match given args.symptom with
  | none => some none
  | some symptom => (symptomMatch entry symptom).map some

/-- A record that passes every filter. -/
def hit? (args : Args) (entry : Entry) : Option Hit :=
  (reached args entry).bind fun reach =>
    if admits args entry then (strength? args entry).map fun strength => ⟨entry, reach, strength⟩ else none

/-- A record that carries the symptom as a signal. -/
def Hit.signals (hit : Hit) : Bool := hit.strength = some .signal

/-- Signals beat passing mentions: where there is one, only signals are in scope. -/
def scopedPool (entries : List Entry) (args : Args) : List (Entry × Reach) :=
  let out := entries.filterMap (hit? args)
  let kept := if (given args.symptom).isSome && out.any Hit.signals then out.filter Hit.signals else out
  kept.map fun hit => (hit.entry, hit.reach)

/-! ### Ranking -/

structure Scored where
  key : ℚ
  textScore : Nat
  importance : ℚ
  entry : Entry
  reach : Reach

/-- Where a record stands before the discounts. -/
def rankKey (args : Args) (score : Nat) (importance : ℚ) : ℚ :=
  match args.rank with
  | .text => nearest score
  | .importance => importance
  | .blend => nearest (score * nearest (1 + nearest (args.weightImportance * importance)))

def discounted (args : Args) (entry : Entry) (reach : Reach) (key : ℚ) : ℚ :=
  let key := match reach with
    | .exact => key
    | .neutral => nearest (key * NEUTRAL_RANK_DISCOUNT)
    | .other => nearest (key * CROSS_ARCH_RANK_DISCOUNT)
  if (given args.dsl).isSome ∧ entry.scope.dsl = some "any" then nearest (key * NEUTRAL_DSL_RANK_DISCOUNT) else key

def scored? (terms : List String) (args : Args) : Entry × Reach → Option Scored
  | (entry, reach) =>
      let score := textScore entry terms args.any
      if score = 0 then none
      else
        let importance := entry.worthScore.getD 0
        some ⟨discounted args entry reach (rankKey args score importance), score, importance, entry, reach⟩

/-- `(-key, -importance, id)`, in its order. -/
def Scored.before (a b : Scored) : Bool :=
  b.key < a.key ∨ (a.key = b.key ∧ (b.importance < a.importance ∨ (a.importance = b.importance ∧ a.entry.id ≤ b.entry.id)))

def ranked (pool : List (Entry × Reach)) (terms : List String) (args : Args) : List Scored :=
  (pool.filterMap (scored? terms args)).mergeSort Scored.before

/-! ### What is in a result -/

/-- The records of a result, in their order. -/
def found (entries : List Entry) (terms : List String) (args : Args) : List Entry :=
  (ranked (scopedPool entries args) terms args).map Scored.entry

variable {entries : List Entry} {args : Args} {entry : Entry} {hit : Hit} {terms : List String}

def passes (args : Args) (entry : Entry) : Bool := (hit? args entry).isSome

/-- What a hit says of its record. -/
theorem hit?_spec (here : hit? args entry = some hit) : hit.entry = entry ∧ reached args entry = some hit.reach ∧
    admits args entry = true ∧ strength? args entry = some hit.strength := by
  rw [hit?, Option.bind_eq_some_iff] at here
  obtain ⟨reach, at_reach, here⟩ := here
  split at here
  · rename_i admitted
    obtain ⟨strength, matched, rfl⟩ := Option.map_eq_some_iff.mp here
    exact ⟨rfl, at_reach, admitted, matched⟩
  · cases here

theorem passes_iff : passes args entry = true ↔
    (reached args entry).isSome = true ∧ admits args entry = true ∧ (strength? args entry).isSome = true := by
  unfold passes hit?
  cases reached args entry <;> cases admits args entry <;> simp

theorem mem_hits : hit ∈ entries.filterMap (hit? args) ↔ hit.entry ∈ entries ∧ hit? args hit.entry = some hit := by
  rw [List.mem_filterMap]
  constructor
  · intro ⟨entry, member, here⟩
    rw [(hit?_spec here).1]
    exact ⟨member, here⟩
  · intro ⟨member, here⟩
    exact ⟨hit.entry, member, here⟩

/-- A hit is a signal where its record carries the symptom that is asked for. -/
theorem signals_iff (here : hit? args entry = some hit) :
    hit.signals = true ↔ ∃ symptom, given args.symptom = some symptom ∧ symptomMatch entry symptom = some .signal := by
  have matched := (hit?_spec here).2.2.2
  rw [Hit.signals, decide_eq_true_eq]
  rw [strength?] at matched
  split at matched
  · rename_i plain
    rw [← Option.some.inj matched, plain]
    simp
  · rename_i symptom asked
    obtain ⟨strength, same, some_strength⟩ := Option.map_eq_some_iff.mp matched
    rw [← some_strength, asked]
    simp [same]

theorem mem_ranked {pool : List (Entry × Reach)} : entry ∈ (ranked pool terms args).map Scored.entry ↔
    (∃ reach, (entry, reach) ∈ pool) ∧ textScore entry terms args.any ≠ 0 := by
  simp only [ranked, List.mem_map, List.mem_mergeSort, List.mem_filterMap]
  constructor
  · intro ⟨scored, ⟨⟨entry', reach⟩, member, made⟩, same⟩
    simp only [scored?] at made
    split at made
    · cases made
    · rename_i matched
      cases made
      cases same
      exact ⟨⟨reach, member⟩, matched⟩
  · intro ⟨⟨reach, member⟩, matched⟩
    exact ⟨_, ⟨(entry, reach), member, if_neg matched⟩, rfl⟩

/-- No record that passes carries the symptom, or this one does. -/
def Unbeaten (entries : List Entry) (args : Args) (entry : Entry) : Prop := ∀ symptom, given args.symptom = some symptom →
  symptomMatch entry symptom = some .signal ∨ ∀ other ∈ entries, passes args other = true → symptomMatch other symptom ≠ some .signal

theorem exists_hit (entries : List Entry) (args : Args) (entry : Entry) (p : Hit → Prop) : (∃ hit ∈ entries.filterMap (hit? args), hit.entry = entry ∧ p hit) ↔
    entry ∈ entries ∧ ∃ hit, hit? args entry = some hit ∧ p hit := by
  constructor
  · intro ⟨hit, member, same, holds⟩
    have here := mem_hits.mp member
    rw [same] at here
    exact ⟨here.1, hit, here.2, holds⟩
  · intro ⟨member, hit, here, holds⟩
    have same := (hit?_spec here).1
    refine ⟨hit, mem_hits.mpr ?_, same, holds⟩
    rw [same]
    exact ⟨member, here⟩

theorem any_signals : (entries.filterMap (hit? args)).any Hit.signals = true ↔ ∃ other ∈ entries, passes args other = true ∧
    ∃ symptom, given args.symptom = some symptom ∧ symptomMatch other symptom = some .signal := by
  rw [List.any_eq_true]
  constructor
  · intro ⟨hit, member, signals⟩
    obtain ⟨inside, here⟩ := mem_hits.mp member
    exact ⟨hit.entry, inside, by rw [passes, here, Option.isSome_some], (signals_iff here).mp signals⟩
  · intro ⟨other, inside, passed, carried⟩
    obtain ⟨hit, here⟩ := Option.isSome_iff_exists.mp passed
    have same := (hit?_spec here).1
    refine ⟨hit, mem_hits.mpr ?_, (signals_iff here).mpr carried⟩
    rw [same]
    exact ⟨inside, here⟩

theorem mem_scoped : (∃ reach, (entry, reach) ∈ scopedPool entries args) ↔
    entry ∈ entries ∧ passes args entry = true ∧ Unbeaten entries args entry := by
  have listed (kept : List Hit) : (∃ reach, (entry, reach) ∈ kept.map fun hit => (hit.entry, hit.reach)) ↔
      ∃ hit ∈ kept, hit.entry = entry := by simp
  have passed : passes args entry = true ↔ ∃ hit, hit? args entry = some hit := Option.isSome_iff_exists
  rw [scopedPool, listed, passed]
  by_cases beaten : ((given args.symptom).isSome && (entries.filterMap (hit? args)).any Hit.signals) = true
  · -- Only signals stay, so the record carries the symptom.
    rw [if_pos beaten]
    obtain ⟨other, inside, other_passes, symptom, asked, carried⟩ := any_signals.mp (Bool.and_eq_true_iff.mp beaten).2
    have unbeaten : Unbeaten entries args entry ↔ symptomMatch entry symptom = some .signal := by
      constructor
      · intro all
        exact (all symptom asked).resolve_right fun alone => alone other inside other_passes carried
      · intro carries symptom' asked'
        cases asked.symm.trans asked'
        exact .inl carries
    have signalled (hit : Hit) (here : hit? args entry = some hit) :
        hit.signals = true ↔ symptomMatch entry symptom = some .signal := by
      rw [signals_iff here]
      simp [asked]
    have both : (∃ hit ∈ (entries.filterMap (hit? args)).filter Hit.signals, hit.entry = entry) ↔
        ∃ hit ∈ entries.filterMap (hit? args), hit.entry = entry ∧ hit.signals = true := by
      constructor
      · intro ⟨hit, member, same⟩
        exact ⟨hit, (List.mem_filter.mp member).1, same, (List.mem_filter.mp member).2⟩
      · intro ⟨hit, member, same, signals⟩
        exact ⟨hit, List.mem_filter.mpr ⟨member, signals⟩, same⟩
    rw [both, exists_hit, unbeaten]
    refine and_congr_right fun _ => ?_
    constructor
    · intro ⟨hit, here, signals⟩
      exact ⟨⟨hit, here⟩, (signalled hit here).mp signals⟩
    · intro ⟨⟨hit, here⟩, carries⟩
      exact ⟨hit, here, (signalled hit here).mpr carries⟩
  · -- Nothing in the pool carries it, or none is asked for.
    rw [if_neg beaten]
    have unbeaten : Unbeaten entries args entry := by
      intro symptom asked
      refine .inr fun other inside other_passes carried => beaten ?_
      rw [asked, Option.isSome_some, Bool.true_and]
      exact any_signals.mpr ⟨other, inside, other_passes, symptom, asked, carried⟩
    have all := exists_hit entries args entry (fun _ => True)
    simpa [unbeaten] using all

/-- A record is in a result where it passes the filters, its text matches, and no signal beats it. -/
theorem mem_found : entry ∈ found entries terms args ↔
    entry ∈ entries ∧ passes args entry = true ∧ Unbeaten entries args entry ∧ textScore entry terms args.any ≠ 0 := by
  rw [found, mem_ranked, mem_scoped]
  simp only [and_assoc]

end AtrexAgent.WikiQuery
