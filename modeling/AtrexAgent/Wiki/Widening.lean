import AtrexAgent.Wiki.Query

/-! What a query finds when its scope is widened, and that no scope crosses the line between vendors. -/

namespace AtrexAgent.WikiQuery

/-- A filter that is kept or taken away. -/
def Loosened (wide filter : Option String) : Prop := wide = none ∨ wide = filter

/-- The same query, with scope filters removed, without `--strict-arch` or with `--cross-arch`. -/
structure Wider (wide args : Args) : Prop where
  arch : Loosened wide.arch args.arch
  vendor : Loosened wide.vendor args.vendor
  dsl : Loosened wide.dsl args.dsl
  family : Loosened wide.family args.family
  operator : Loosened wide.operator args.operator
  type : Loosened wide.type args.type
  level : Loosened wide.level args.level
  status : Loosened wide.status args.status
  tier : Loosened wide.tier args.tier
  strictArch : wide.strictArch = true → args.strictArch = true
  crossArch : args.crossArch = true → wide.crossArch = true
  symptom : wide.symptom = args.symptom
  minImportance : wide.minImportance = args.minImportance
  minGain : wide.minGain = args.minGain
  minSpeedup : wide.minSpeedup = args.minSpeedup
  exclude : wide.exclude = args.exclude
  any : wide.any = args.any

variable {wide args : Args} {entry : Entry} {entries : List Entry} {terms : List String}

theorem Loosened.all {wide filter : Option String} (loosened : Loosened wide filter) {p : String → Bool}
    (passed : (given filter).all p = true) : (given wide).all p = true := by
  rcases loosened with none_given | same
  · rw [none_given]
    rfl
  · rw [same]
    exact passed

theorem archReach_wider {scope : Scope} {arch : String} {strict cross strict' cross' : Bool}
    (strict_kept : strict' = true → strict = true) (cross_kept : cross = true → cross' = true)
    (reaches : (archReach scope arch strict cross).isSome = true) :
    (archReach scope arch strict' cross').isSome = true := by
  unfold archReach at reaches ⊢
  split
  · rfl
  · rename_i not_exact
    rw [if_neg not_exact] at reaches
    have lenient : ¬ strict = true := by
      intro strictly
      rw [if_pos strictly] at reaches
      cases reaches
    rw [if_neg lenient] at reaches
    rw [if_neg fun strictly => lenient (strict_kept strictly)]
    split
    · rename_i neutral
      rw [if_pos neutral] at reaches
      exact reaches
    · rename_i specific
      rw [if_neg specific] at reaches
      split at reaches
      · rename_i crossing
        rw [if_pos ⟨cross_kept crossing.1, crossing.2⟩]
        rfl
      · cases reaches

theorem reached_wider (wider : Wider wide args) (reaches : (reached args entry).isSome = true) :
    (reached wide entry).isSome = true := by
  unfold reached at reaches ⊢
  rcases wider.arch with none_given | same
  · rw [none_given]
    rfl
  · rw [same]
    split
    · rfl
    · rename_i arch asked
      rw [asked] at reaches
      exact archReach_wider wider.strictArch wider.crossArch reaches

theorem admits_wider (wider : Wider wide args) (admitted : admits args entry = true) : admits wide entry = true := by
  simp only [admits, Bool.and_eq_true, wider.minImportance, wider.minGain, wider.minSpeedup, wider.exclude] at admitted ⊢
  obtain ⟨⟨⟨⟨⟨⟨⟨⟨⟨⟨⟨vendor, dsl⟩, family⟩, operator⟩, type⟩, level⟩, status⟩, tier⟩, importance⟩, gain⟩, speedup⟩, kept⟩ := admitted
  exact ⟨⟨⟨⟨⟨⟨⟨⟨⟨⟨⟨wider.vendor.all vendor, wider.dsl.all dsl⟩, wider.family.all family⟩, wider.operator.all operator⟩,
    wider.type.all type⟩, wider.level.all level⟩, wider.status.all status⟩, wider.tier.all tier⟩, importance⟩, gain⟩,
    speedup⟩, kept⟩

theorem passes_wider (wider : Wider wide args) (passed : passes args entry = true) : passes wide entry = true := by
  obtain ⟨reaches, admitted, matched⟩ := passes_iff.mp passed
  refine passes_iff.mpr ⟨reached_wider wider reaches, admits_wider wider admitted, ?_⟩
  rw [strength?, wider.symptom]
  exact matched

/-! ### Vendors -/

/-- Every architecture of a record is one of its own vendor's. -/
def NoConflict (entries : List Entry) : Prop := ∀ entry ∈ entries, ∀ arch,
  entry.scope.arch = some arch ∨ arch ∈ entry.scope.architectures →
    ∀ vendor, ARCH_VENDOR.lookup arch = some vendor → Vendored (some vendor) entry.scope.vendor

theorem archReach_vendor {scope : Scope} {arch : String} {strict cross : Bool} {reach : Reach} (specific : arch ≠ NEUTRAL_ARCH)
    (reaches : archReach scope arch strict cross = some reach) :
    (scope.arch = some arch ∨ arch ∈ scope.architectures) ∨ Vendored (ARCH_VENDOR.lookup arch) scope.vendor := by
  unfold archReach at reaches
  split at reaches
  · rename_i exactly
    exact .inl exactly
  · right
    split at reaches
    · cases reaches
    · split at reaches
      · split at reaches
        · rename_i neutral
          exact neutral.resolve_left specific
        · cases reaches
      · split at reaches
        · rename_i crossing
          exact crossing.2
        · cases reaches

theorem found_vendor {arch vendor : String} (asked : given args.arch = some arch) (known : ARCH_VENDOR.lookup arch = some vendor)
    (consistent : NoConflict entries) (member : entry ∈ entries) (passed : passes args entry = true) :
    Vendored (some vendor) entry.scope.vendor := by
  obtain ⟨reaches, -⟩ := passes_iff.mp passed
  rw [reached, asked] at reaches
  obtain ⟨reach, here⟩ := Option.isSome_iff_exists.mp reaches
  have specific : arch ≠ NEUTRAL_ARCH := by
    intro neutral
    rw [neutral] at known
    cases known
  rcases archReach_vendor specific here with exactly | vendored
  · exact consistent entry member arch exactly vendor known
  · rw [known] at vendored
    exact vendored

/-- A wider query keeps a record of a narrower one, but for one that only mentions the symptom where the wider scope has a
signal; and with an architecture of a known vendor no record of another vendor is found. -/
theorem widening_keeps (wider : Wider wide args) :
    (∀ entry ∈ found entries terms args, entry ∈ found entries terms wide ↔ ∀ symptom, given args.symptom = some symptom →
      symptomMatch entry symptom = some .signal ∨
        ∀ other ∈ entries, passes wide other = true → symptomMatch other symptom ≠ some .signal) ∧
    ∀ arch vendor, given args.arch = some arch → ARCH_VENDOR.lookup arch = some vendor → NoConflict entries →
      ∀ entry ∈ found entries terms args, Vendored (some vendor) entry.scope.vendor := by
  refine ⟨fun entry inside => ?_, fun arch vendor asked known consistent entry inside => ?_⟩
  · obtain ⟨member, passed, -, matched⟩ := mem_found.mp inside
    have same : given wide.symptom = given args.symptom := by rw [wider.symptom]
    rw [mem_found, wider.any, Unbeaten, same]
    simp only [member, passes_wider wider passed, matched, ne_eq, not_false_eq_true, and_true, true_and]
  · obtain ⟨member, passed, -⟩ := mem_found.mp inside
    exact found_vendor asked known consistent member passed

/-! ### A symptom that is only mentioned -/

/-- A query for a symptom, on an architecture. -/
def asking (arch : Option String) : Args where
  arch := arch
  vendor := none
  dsl := none
  family := none
  operator := none
  type := none
  level := none
  status := none
  tier := none
  symptom := some "spill"
  strictArch := false
  crossArch := false
  minImportance := none
  minGain := none
  minSpeedup := none
  exclude := []
  any := false
  rank := .blend
  weightImportance := 1

def noted (id arch : String) (symptoms : List String) : Entry :=
  ⟨id, id, "technique-card", "kernel", none, none, ⟨some "nvidia", some arch, [], none, none, []⟩, none, symptoms,
    "registers spill", none, none, none⟩

def noteStore : List Entry := [noted "mentions" "hopper" [], noted "carries" "ampere" ["spill"]]

theorem asking_wider : Wider (asking none) (asking (some "hopper")) :=
  ⟨.inl rfl, .inl rfl, .inl rfl, .inl rfl, .inl rfl, .inl rfl, .inl rfl, .inl rfl, .inl rfl, id, id, rfl, rfl, rfl, rfl, rfl, rfl⟩

/-- On its own architecture a record that only mentions the symptom is found. -/
theorem asking_found : noted "mentions" "hopper" [] ∈ found noteStore [] (asking (some "hopper")) := by
  refine mem_found.mpr ⟨by decide, by decide, ?_, by decide⟩
  intro symptom asked
  cases asked
  decide

/-- Where the architecture is dropped, it is kept only if it carries the symptom or nothing does. -/
theorem widening_keeps_asking : noted "mentions" "hopper" [] ∈ found noteStore [] (asking none) ↔
    ∀ symptom, given (some "spill") = some symptom → symptomMatch (noted "mentions" "hopper" []) symptom = some .signal ∨
      ∀ other ∈ noteStore, passes (asking none) other = true → symptomMatch other symptom ≠ some .signal :=
  (widening_keeps asking_wider).1 _ asking_found

/-- Without its architecture the query loses a record. -/
theorem widening_loses : ¬ ∀ (entries : List Entry) (terms : List String) (wide args : Args), Wider wide args →
    ∀ entry ∈ found entries terms args, entry ∈ found entries terms wide := by
  intro always
  have kept := always noteStore [] (asking none) (asking (some "hopper")) asking_wider _ asking_found
  obtain ⟨-, -, unbeaten, -⟩ := mem_found.mp kept
  have all := unbeaten "spill" rfl
  revert all
  decide

end AtrexAgent.WikiQuery
