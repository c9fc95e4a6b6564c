import AtrexAgent.Agent.PhaseAccounting

/-! When a measurement that is called exact is exact: the label depends on a coverage that is rounded, so a part of the
terminal total that vanishes in the rounding is not attributed to any phase. -/

namespace AtrexAgent.PhaseTokens

open AtrexAgent.Tokens
open AtrexAgent.Binary64

variable {usages : List TokenUsage} {tally : Tally} {turn : Turn} {turns : List Turn}

/-! ### Which deltas count -/

/-- The next delta or marker starts a phase. -/
def startsNext : List Turn → Bool
  | [] => false
  | .skip :: rest => startsNext rest
  | .mark _ .start :: _ => true
  | _ :: _ => false

/-- The next marker ends a phase. -/
def finishesNext : List Turn → Bool
  | [] => false
  | .skip :: rest => finishesNext rest
  | .delta _ :: rest => finishesNext rest
  | .mark _ .finish :: _ => true
  | _ :: _ => false

/-- The deltas inside of a phase, or right before one. -/
def attributedDeltas : List Turn → List TokenUsage
  | [] => []
  | .delta usage :: rest =>
      if startsNext rest ∨ finishesNext rest then usage :: attributedDeltas rest else attributedDeltas rest
  | _ :: rest => attributedDeltas rest

/-- Every marker is valid, and every phase that starts ends before the next one. -/
def Closes : Option Phase → List Turn → Prop
  | none, [] => True
  | none, .mark phase .start :: rest => Closes (some phase) rest
  | some phase, .mark ended .finish :: rest => phase = ended ∧ Closes none rest
  | current, .skip :: rest => Closes current rest
  | current, .delta _ :: rest => Closes current rest
  | _, _ => False

theorem finishes_open {phase : Phase} (closes : Closes (some phase) turns) : finishesNext turns = true := by
  induction turns with
  | nil => cases closes
  | cons turn rest ih =>
      cases turn with
      | skip => exact ih closes
      | delta => exact ih closes
      | invalid => cases closes
      | mark ended action =>
          cases action with
          | start => cases closes
          | finish => rfl

theorem not_finishes (closes : Closes none turns) : finishesNext turns = false := by
  induction turns with
  | nil => rfl
  | cons turn rest ih =>
      cases turn with
      | skip => exact ih closes
      | delta => exact ih closes
      | invalid => cases closes
      | mark ended action =>
          cases action with
          | start => rfl
          | finish => cases closes

/-! ### Reasons -/

theorem take_reasons (tally : Tally) (turn : Turn) : tally.reasons.IsPrefix (tally.take turn).reasons := by
  cases turn with
  | skip => exact List.prefix_rfl
  | invalid => exact List.prefix_append _ _
  | delta usage =>
      simp only [Tally.take, Tally.observe]
      split
      · exact List.prefix_rfl
      · split <;> exact List.prefix_rfl
  | mark phase action =>
      simp only [Tally.take, Tally.mark, Tally.markInvalid, Tally.note]
      repeat' split
      all_goals first | exact List.prefix_rfl | exact List.prefix_append _ _

theorem run_reasons (turns : List Turn) (tally : Tally) :
    tally.reasons.IsPrefix (turns.foldl Tally.take tally).reasons := by
  induction turns generalizing tally with
  | nil => exact List.prefix_rfl
  | cons turn rest ih => exact (take_reasons tally turn).trans (ih _)

theorem allReasons_nil : tally.allReasons = [] ↔ tally.reasons = [] ∧ tally.active = none ∧ tally.invalid = [] := by
  unfold Tally.allReasons
  split
  · rename_i unclosed
    exact iff_of_false (by simp) fun parts => unclosed.elim (· parts.2.1) (· parts.2.2)
  · rename_i closed
    simp only [not_or, not_not] at closed
    exact (and_iff_left closed).symm

/-- A reason stays. -/
theorem noted_not_closed (turns : List Turn) (noted : tally.reasons ≠ []) :
    (turns.foldl Tally.take tally).allReasons ≠ [] := by
  intro none_left
  have kept := run_reasons turns tally
  rw [(allReasons_nil.mp none_left).1] at kept
  exact noted (List.prefix_nil.mp kept)

/-! ### What a run attributes -/

/-- No phases overlap, and no delta waits for a phase while one is active. -/
structure Orderly (tally : Tally) : Prop where
  valid : tally.invalid = []
  alone : tally.active.isSome = true → tally.pending = none

/-- What is attributed to the phase that is active, or to the one that starts next. -/
def Tally.spent (tally : Tally) (turns : List Turn) : List TokenUsage :=
  match tally.active with
  | some (_, spent) => spent
  | none => if startsNext turns then tally.pending.toList else []

/-- A turn that keeps to the order leaves an orderly tally and no reason; any other leaves a reason. -/
theorem take_step (orderly : Orderly tally) (unnoted : tally.reasons = []) (turn : Turn) (rest : List Turn) :
    (¬ Closes (tally.active.map Prod.fst) (turn :: rest) ∧ (tally.take turn).reasons ≠ []) ∨
      (Orderly (tally.take turn) ∧ (tally.take turn).reasons = [] ∧
        (Closes (tally.active.map Prod.fst) (turn :: rest) ↔ Closes ((tally.take turn).active.map Prod.fst) rest) ∧
          (Closes (tally.active.map Prod.fst) (turn :: rest) →
            ((tally.take turn).attributed ++ (tally.take turn).spent rest ++ attributedDeltas rest).Perm
              (tally.attributed ++ tally.spent (turn :: rest) ++ attributedDeltas (turn :: rest)))) := by
  cases turn with
  | skip =>
      right
      refine ⟨orderly, unnoted, ?_, fun _ => ?_⟩
      · rw [Tally.take]
        cases tally.active <;> rfl
      · exact List.Perm.refl _
  | invalid =>
      left
      refine ⟨?_, by simp [Tally.take, Tally.note]⟩
      cases tally.active <;> exact id
  | delta usage =>
      right
      cases active : tally.active with
      | none =>
          have step : tally.take (.delta usage) =
              { tally with deltas := tally.deltas ++ [usage], pending := some usage } := by
            simp [Tally.take, Tally.observe, orderly.valid, active]
          rw [step]
          refine ⟨⟨orderly.valid, by simp [active]⟩, unnoted, by rw [active]; rfl, fun closes => ?_⟩
          have outside : finishesNext rest = false := not_finishes closes
          have waiting : startsNext (.delta usage :: rest) = false := rfl
          simp only [Tally.attributed, Tally.spent, active, attributedDeltas, outside, waiting]
          split <;> simp_all
      | some current =>
          obtain ⟨phase, spent⟩ := current
          have step : tally.take (.delta usage) = { tally with
              deltas := tally.deltas ++ [usage], active := some (phase, spent ++ [usage]), pending := none } := by
            simp [Tally.take, Tally.observe, orderly.valid, active]
          rw [step]
          refine ⟨⟨orderly.valid, fun _ => rfl⟩, unnoted, by rfl, fun closes => ?_⟩
          have inside : finishesNext rest = true := finishes_open closes
          simp [Tally.attributed, Tally.spent, active, attributedDeltas, inside]
  | mark phase action =>
      cases action with
      | start =>
          cases active : tally.active with
          | none =>
              right
              have step : tally.take (.mark phase .start) =
                  { tally with active := some (phase, tally.pending.toList), pending := none } := by
                simp [Tally.take, Tally.mark, orderly.valid, active]
              rw [step]
              refine ⟨⟨orderly.valid, fun _ => rfl⟩, unnoted, by rfl, fun _ => ?_⟩
              simp [Tally.attributed, Tally.spent, active, attributedDeltas, startsNext]
          | some current =>
              left
              refine ⟨id, ?_⟩
              simp [Tally.take, Tally.mark, orderly.valid, active, Tally.note]
      | finish =>
          cases active : tally.active with
          | none =>
              left
              refine ⟨id, ?_⟩
              simp [Tally.take, Tally.mark, orderly.valid, active, Tally.note]
          | some current =>
              obtain ⟨started, spent⟩ := current
              by_cases same : started = phase
              · right
                have step : tally.take (.mark phase .finish) = { tally with
                    intervals := Function.update tally.intervals phase (tally.intervals phase ++ [spent])
                    active := none } := by
                  simp [Tally.take, Tally.mark, orderly.valid, active, same]
                have idle : tally.pending = none := orderly.alone (by simp [active])
                rw [step]
                refine ⟨⟨orderly.valid, by simp⟩, unnoted, and_iff_right same, fun _ => ?_⟩
                refine List.Perm.append_right (attributedDeltas rest) ?_
                simpa [Tally.spent, active, idle] using attributed_closed rfl
              · left
                refine ⟨fun closes => same closes.1, ?_⟩
                simp [Tally.take, Tally.mark, orderly.valid, active, same, Tally.note]

theorem run_closes (orderly : Orderly tally) (unnoted : tally.reasons = []) (turns : List Turn) :
    (turns.foldl Tally.take tally).allReasons = [] ↔ Closes (tally.active.map Prod.fst) turns := by
  induction turns generalizing tally with
  | nil =>
      rw [List.foldl_nil, allReasons_nil, and_iff_right unnoted, and_iff_left orderly.valid]
      cases tally.active <;> simp [Closes]
  | cons turn rest ih =>
      rcases take_step orderly unnoted turn rest with ⟨broken, noted⟩ | ⟨orderly', unnoted', same, -⟩
      · exact iff_of_false (noted_not_closed rest noted) broken
      · exact (ih orderly' unnoted').trans same.symm

theorem run_attributes (orderly : Orderly tally) (unnoted : tally.reasons = []) (turns : List Turn)
    (closes : Closes (tally.active.map Prod.fst) turns) :
    (turns.foldl Tally.take tally).attributed.Perm (tally.attributed ++ tally.spent turns ++ attributedDeltas turns) := by
  induction turns generalizing tally with
  | nil =>
      have idle : tally.active = none := by
        cases active : tally.active with
        | none => rfl
        | some _ => simp [active, Closes] at closes
      simp [Tally.spent, idle, attributedDeltas, startsNext]
  | cons turn rest ih =>
      rcases take_step orderly unnoted turn rest with ⟨broken, -⟩ | ⟨orderly', unnoted', same, perm⟩
      · exact absurd closes broken
      · exact (ih orderly' unnoted' (same.mp closes)).trans (perm closes)

/-! ### Measured usages -/

/-- A usage that is known, and exactly. -/
def Measured (usage : TokenUsage) : Prop := usage.totalTokens.isSome = true ∧ usage.measurement = .exact

theorem sumPhaseUsages_measured : Measured (sumPhaseUsages usages) ↔ ∀ usage ∈ usages, Measured usage := by
  constructor
  · intro measured
    exact sumPhaseUsages_exact_iff.mp measured.2
  · intro each
    refine ⟨sumPhaseUsages_known.mpr ?_, sumPhaseUsages_exact_iff.mpr each⟩
    cases usages with
    | nil => exact .inl rfl
    | cons usage rest => exact .inr ⟨usage, List.mem_cons_self, (each usage List.mem_cons_self).1⟩

theorem groups_measured (groups : List (List TokenUsage)) :
    (∀ usage ∈ groups.map sumPhaseUsages, Measured usage) ↔ ∀ usage ∈ groups.flatten, Measured usage := by
  simp only [List.forall_mem_map, sumPhaseUsages_measured, List.mem_flatten]
  constructor
  · intro each usage ⟨group, inside, member⟩
    exact each group inside usage member
  · intro all group inside usage member
    exact all usage ⟨group, inside, member⟩

theorem phaseUsages_groups (tally : Tally) (phases : List Phase) : ∃ groups : List (List TokenUsage),
    (phases.filterMap fun phase => (entryOf (tally.intervals phase)).usage) = groups.map sumPhaseUsages ∧
      groups.flatten = (phases.flatMap tally.intervals).map sumPhaseUsages := by
  induction phases with
  | nil => exact ⟨[], rfl, rfl⟩
  | cons phase rest ih =>
      obtain ⟨groups, usages, flat⟩ := ih
      by_cases unclosed : tally.intervals phase = []
      · have unobserved : (entryOf (tally.intervals phase)).usage = none := by simp [entryOf, PhaseEntry.unobserved, unclosed]
        exact ⟨groups, by simp [unobserved, usages], by simp [unclosed, flat]⟩
      · have observed : (entryOf (tally.intervals phase)).usage =
            some (sumPhaseUsages ((tally.intervals phase).map sumPhaseUsages)) := by simp [entryOf, unclosed]
        exact ⟨(tally.intervals phase).map sumPhaseUsages :: groups, by simp [observed, usages], by simp [flat]⟩

theorem attributed_flatten (tally : Tally) : tally.attributed = (PHASES.flatMap tally.intervals).flatten := by
  simp [Tally.attributed, PHASES]

theorem phaseUsages_measured (tally : Tally) :
    (∀ usage ∈ tally.phaseUsages, Measured usage) ↔ ∀ usage ∈ tally.attributed, Measured usage := by
  obtain ⟨groups, usages, flat⟩ := phaseUsages_groups tally PHASES
  rw [Tally.phaseUsages, usages, groups_measured, flat, groups_measured, attributed_flatten]

theorem component_phaseUsages (measured : ∀ usage ∈ tally.attributed, Measured usage) (name : Component) :
    (sumPhaseUsages tally.phaseUsages).component name = (sumPhaseUsages tally.attributed).component name := by
  obtain ⟨groups, usages, flat⟩ := phaseUsages_groups tally PHASES
  have sums : ∀ usage ∈ groups.flatten, Measured usage := by
    rwa [flat, groups_measured, ← attributed_flatten]
  calc (sumPhaseUsages tally.phaseUsages).component name
      = (sumPhaseUsages groups.flatten).component name := by
        rw [Tally.phaseUsages, usages]
        exact component_groups (fun group inside usage member => (sums usage (List.mem_flatten_of_mem inside member)).1) name
    _ = (sumPhaseUsages tally.attributed).component name := by
        rw [attributed_flatten] at measured ⊢
        rw [flat]
        exact component_groups
          (fun group inside usage member => (measured usage (List.mem_flatten_of_mem inside member)).1) name

theorem component_perm {usages usages' : List TokenUsage} (perm : usages.Perm usages')
    (measured : ∀ usage ∈ usages, Measured usage) (name : Component) :
    (sumPhaseUsages usages).component name = (sumPhaseUsages usages').component name := by
  have known : ∀ usage ∈ usages, usage.totalTokens.isSome = true := fun usage member => (measured usage member).1
  have known' : ∀ usage ∈ usages', usage.totalTokens.isSome = true := fun usage member =>
    known usage (perm.mem_iff.mpr member)
  rw [component_sumPhaseUsages known, component_sumPhaseUsages known', sumKnown_perm (perm.map _)]

theorem exceeds_congr {observed observed' terminal : TokenUsage}
    (same : ∀ name, observed.component name = observed'.component name) :
    tokenUsageExceeds observed terminal = tokenUsageExceeds observed' terminal := by
  simp only [tokenUsageExceeds, same]

/-! ### One attempt -/

/-- Where the measurement is called exact, every terminal token is attributed to a phase. -/
def ExactlyAttributed (summary : Summary) : Prop := summary.measurement = .exact →
  tokens summary.orchestration = some 0 ∧ tokens summary.unattributed = some 0 ∧
    summary.terminalUsage.totalTokens = some (phaseTotal summary)

/-- A part that is less than the whole, though its share is shown as 1. -/
def LostInRounding (part whole : Int) : Prop := part < whole ∧ 18014389502282729 * whole < 2 ^ 54 * part

theorem share_one_iff {part whole : Int} (less : part < whole) : share part whole = some 1 ↔ LostInRounding part whole := by
  unfold share LostInRounding
  rw [and_iff_right less]
  split
  · rename_i positive
    rw [Option.some_inj]
    exact share_is_one_iff positive less.le
  · split
    · omega
    · exact iff_of_false nofun (by omega)

def Attempt.eventTurns (attempt : Attempt) : List Turn := attempt.events.map Event.turn

/-- The deltas of an attempt inside of its phases. -/
def Attempt.attributed (attempt : Attempt) : List TokenUsage := attributedDeltas attempt.eventTurns

/-- Everything is measured exactly and in order, and what the phases lack of the terminal total is lost in rounding. -/
structure Attempt.RoundedUp (attempt : Attempt) : Prop where
  observed : attempt.Observed
  unnoted : attempt.observationErrors = []
  closes : Closes none attempt.eventTurns
  measured : ∀ usage ∈ attempt.attributed, Measured usage
  settled : attempt.terminal.measurement = .exact
  fits : tokenUsageExceeds (sumPhaseUsages attempt.attributed) attempt.terminal = false
  deltas_fit : tokenUsageExceeds (sumPhaseUsages attempt.deltas) attempt.terminal = false
  lost : ∃ whole, attempt.terminal.totalTokens = some whole ∧ LostInRounding (totalOf attempt.attributed) whole

theorem Attempt.tallied_turns (attempt : Attempt) :
    attempt.tallied = attempt.eventTurns.foldl Tally.take (.new attempt.observationErrors) := foldl_turns _ _

theorem Attempt.tallied_deltas (attempt : Attempt) : attempt.tallied.deltas = attempt.deltas := by
  rw [tallied_turns, run_deltas]
  rfl

theorem new_orderly (observationErrors : List String) : Orderly (.new observationErrors) := ⟨rfl, nofun⟩

theorem Attempt.allReasons_iff (attempt : Attempt) :
    attempt.tallied.allReasons = [] ↔ attempt.observationErrors = [] ∧ Closes none attempt.eventTurns := by
  rw [tallied_turns]
  by_cases unnoted : attempt.observationErrors = []
  · rw [and_iff_right unnoted]
    exact run_closes (new_orderly _) unnoted attempt.eventTurns
  · exact iff_of_false (noted_not_closed attempt.eventTurns unnoted) fun parts => unnoted parts.1

theorem Attempt.attributed_perm {attempt : Attempt} (unnoted : attempt.observationErrors = [])
    (closes : Closes none attempt.eventTurns) : attempt.tallied.attributed.Perm attempt.attributed := by
  have run := run_attributes (new_orderly attempt.observationErrors) unnoted attempt.eventTurns closes
  rw [← tallied_turns] at run
  simpa [Tally.new, Tally.attributed, Tally.spent, PHASES, Attempt.attributed] using run

theorem total_le_of_fits {observed terminal : TokenUsage} {part whole : Int}
    (fits : tokenUsageExceeds observed terminal = false) (known : observed.totalTokens = some part)
    (settled : terminal.totalTokens = some whole) : part ≤ whole := by
  by_contra more
  have exceeds := tokenUsageExceeds_iff.mpr ⟨.total, part, whole, known, settled, not_le.mp more⟩
  rw [fits] at exceeds
  cases exceeds

/-- The deltas of an attempt are known where some of them count. -/
theorem Attempt.RoundedUp.deltas_known {attempt : Attempt} (rounded : attempt.RoundedUp) :
    (sumPhaseUsages attempt.deltas).totalTokens.isSome = true := by
  rw [sumPhaseUsages_known]
  obtain ⟨whole, -, less, near⟩ := rounded.lost
  cases counted : attempt.attributed with
  | nil =>
      rw [counted, totalOf_nil] at less near
      omega
  | cons usage rest =>
      have listed : usage ∈ attempt.attributed := by simp [counted]
      have inside := (attributed_perm rounded.unnoted rounded.closes).mem_iff.mpr listed
      exact .inr ⟨usage, attempt.attributed_subperm.subset inside, (rounded.measured usage listed).1⟩

/-- The sums that a summary compares with the terminal usage. -/
theorem Attempt.exceeds_attributed {attempt : Attempt} (unnoted : attempt.observationErrors = [])
    (closes : Closes none attempt.eventTurns) (measured : ∀ usage ∈ attempt.attributed, Measured usage) :
    tokenUsageExceeds (sumPhaseUsages attempt.tallied.phaseUsages) attempt.terminal =
      tokenUsageExceeds (sumPhaseUsages attempt.attributed) attempt.terminal := by
  have perm := attributed_perm unnoted closes
  have measured' : ∀ usage ∈ attempt.tallied.attributed, Measured usage := fun usage member =>
    measured usage (perm.mem_iff.mp member)
  exact exceeds_congr fun name => (component_phaseUsages measured' name).trans (component_perm perm measured' name)

theorem Attempt.summary_exact {attempt : Attempt} {summary : Summary} (observed : attempt.Observed)
    (same : summary.terminalUsage = attempt.terminal)
    (entries : ∀ phase, summary.phases phase = entryOf (attempt.tallied.intervals phase))
    (summarized : Summarized attempt.tallied attempt.terminal summary) : ExactlyAttributed summary ↔ ¬ attempt.RoundedUp := by
  have phases_measured (rounded : attempt.RoundedUp) : ∀ usage ∈ attempt.tallied.phaseUsages, Measured usage := by
    rw [phaseUsages_measured]
    intro usage member
    exact rounded.measured usage ((attributed_perm rounded.unnoted rounded.closes).mem_iff.mp member)
  cases summarized with
  | unavailable unknown _ _ inexact =>
      refine iff_of_true (fun exact_measurement => absurd exact_measurement inexact) fun rounded => ?_
      obtain ⟨whole, known, -⟩ := rounded.lost
      rw [unknown] at known
      cases known
  | inconsistent _ _ inexact found =>
      refine iff_of_true (fun exact_measurement => absurd exact_measurement inexact) fun rounded => ?_
      rcases found with unknown | unknown | exceeds | exceeds
      · have known := (sumPhaseUsages_measured.mpr (phases_measured rounded)).1
        simp [unknown] at known
      · have known := rounded.deltas_known
        rw [← tallied_deltas, unknown] at known
        cases known
      · rw [exceeds_attributed rounded.unnoted rounded.closes rounded.measured, rounded.fits] at exceeds
        cases exceeds
      · rw [tallied_deltas, rounded.deltas_fit] at exceeds
        cases exceeds
  | @reconciled whole known _ attributed _ within observed_within orchestration unattributed _ exact_iff =>
      have total := phaseTotal_entries entries
      have at_most := total_le_of_fits within attributed known
      constructor
      · intro exactly rounded
        have perm := attributed_perm rounded.unnoted rounded.closes
        obtain ⟨whole', known', lost⟩ := rounded.lost
        cases known.symm.trans known'
        rw [← totalOf_perm perm] at lost
        have exact_measurement := exact_iff.mpr ⟨(share_one_iff lost.1).mpr lost,
          (allReasons_iff attempt).mpr ⟨rounded.unnoted, rounded.closes⟩, rounded.settled,
          (sumPhaseUsages_measured.mpr (phases_measured rounded)).2⟩
        have all := (exactly exact_measurement).2.2
        rw [same, known, total, Option.some_inj] at all
        exact lost.1.ne' all
      · intro not_rounded exact_measurement
        obtain ⟨shown, unnoted, settled, measured⟩ := exact_iff.mp exact_measurement
        obtain ⟨unnoted, closes⟩ := (allReasons_iff attempt).mp unnoted
        have perm := attributed_perm unnoted closes
        have measured : ∀ usage ∈ attempt.attributed, Measured usage := by
          have inside := (phaseUsages_measured attempt.tallied).mp (sumPhaseUsages_exact_iff.mp measured)
          exact fun usage member => inside usage (perm.mem_iff.mpr member)
        have all : totalOf attempt.tallied.attributed = whole := by
          by_contra differ
          have lost := (share_one_iff (lt_of_le_of_ne at_most differ)).mp shown
          rw [totalOf_perm perm] at lost
          rw [exceeds_attributed unnoted closes measured] at within
          rw [tallied_deltas] at observed_within
          exact not_rounded ⟨observed, unnoted, closes, measured, settled, within, observed_within, whole, known, lost⟩
        rw [same, known, total, orchestration, unattributed, all, sub_self]
        exact ⟨rfl, rfl, rfl⟩

theorem Attempt.exact_iff (attempt : Attempt) :
    (∀ summary, attempt.summary? = some summary → ExactlyAttributed summary) ↔ ¬ attempt.RoundedUp := by
  by_cases observed : attempt.Observed
  · obtain ⟨summary, made, same, entries, summarized⟩ := summarizeTally_spec attempt.tallied attempt.terminal
    rw [summary?_observed observed, made, ← summary_exact observed same entries summarized]
    simp only [Option.some_inj, forall_eq']
  · rw [summary?_unobserved observed]
    refine iff_of_true (fun summary made => ?_) fun rounded => observed rounded.observed
    cases made
    nofun

/-! ### Aggregates -/

/-- The summaries that are made of attempts, and of other summaries. -/
inductive Made : Summary → Prop
  | attempt (attempt : Attempt) (summary : Summary) (made : attempt.summary? = some summary) : Made summary
  | aggregate (attempts : List (Option Summary)) (made : ∀ summary ∈ attempts.reduceOption, Made summary) :
      Made (aggregateAttemptTokens attempts).toSummary

/-- A summary without reasons, of a known total, splits it into phases and orchestration. -/
def Settled (summary : Summary) : Prop := summary.reasonCodes = [] →
  ∀ whole, summary.terminalUsage.totalTokens = some whole → summary.reconciliationStatus = .reconciled ∧
    tokens summary.orchestration = some (whole - phaseTotal summary) ∧ tokens summary.unattributed = some 0

theorem Attempt.settled {attempt : Attempt} {summary : Summary} (made : attempt.summary? = some summary) :
    Settled summary := by
  intro unnoted whole known
  by_cases observed : attempt.Observed
  · obtain ⟨other, made', same, entries, summarized⟩ := summarizeTally_spec attempt.tallied attempt.terminal
    rw [summary?_observed observed, made', Option.some_inj] at made
    subst made
    cases summarized with
    | unavailable _ _ noted => exact absurd unnoted noted
    | inconsistent _ noted => exact absurd unnoted noted
    | reconciled known' status _ _ _ _ orchestration unattributed =>
        rw [same] at known
        cases known.symm.trans known'
        exact ⟨status, by rw [orchestration, phaseTotal_entries entries], unattributed⟩
  · rw [summary?_unobserved observed, Option.some_inj] at made
    subst made
    simp [summarizeUnobserved, sortedSet_nil] at unnoted

/-- Every attempt has a summary with a known terminal total. -/
def AllSettled (attempts : List (Option Summary)) : Prop :=
  ∀ attempt ∈ attempts, ∃ summary, attempt = some summary ∧ summary.terminalUsage.totalTokens.isSome = true

theorem allSettled_iff {attempts : List (Option Summary)} :
    (settledOf attempts).length = attempts.length ↔ AllSettled attempts := by
  have filtered : settledOf attempts = attempts.filterMap fun attempt =>
      attempt.filter fun summary => summary.terminalUsage.totalTokens.isSome := by
    rw [settledOf, List.reduceOption, List.filter_filterMap]
    rfl
  rw [filtered, List.filterMap_length_eq_length, AllSettled]
  refine forall₂_congr fun attempt _ => ?_
  cases attempt <;> simp [Option.isSome_filter]

theorem AllSettled.settledOf_eq {attempts : List (Option Summary)} (all : AllSettled attempts) :
    settledOf attempts = attempts.reduceOption := by
  apply List.filter_sublist.eq_of_length_le
  rw [show (attempts.reduceOption.filter _).length = attempts.length from allSettled_iff.mpr all]
  exact List.reduceOption_length_le attempts

/-- The sum over the phases of the attempts that report a total. -/
def attributedOf (attempts : List (Option Summary)) : TokenUsage := sumPhaseUsages ((settledOf attempts).flatMap knownPhases)

theorem attributedOf_total (attempts : List (Option Summary)) :
    (attributedOf attempts).totalTokens = some ((settledOf attempts).map phaseTotal).sum := by
  have known : (attributedOf attempts).totalTokens.isSome = true := by
    rw [attributedOf, sumPhaseUsages_known]
    cases listed : (settledOf attempts).flatMap knownPhases with
    | nil => exact .inl rfl
    | cons first rest =>
        have member : first ∈ (settledOf attempts).flatMap knownPhases := by simp [listed]
        obtain ⟨summary, -, inside⟩ := List.mem_flatMap.mp member
        obtain ⟨phase, -, here⟩ := List.mem_filterMap.mp inside
        exact .inr ⟨first, List.mem_cons_self, (Option.filter_eq_some_iff.mp here).2⟩
  obtain ⟨total, known⟩ := Option.isSome_iff_exists.mp known
  have sum := known_total known
  rw [totalOf_flatMap] at sum
  simp only [knownPhases_total] at sum
  rw [known, sum]

/-- An aggregate has no reason where no summary has one, every attempt is settled, and the phases do not exceed the total. -/
theorem aggregate_unnoted {attempts : List (Option Summary)} : (aggregateAttemptTokens attempts).reasonCodes = [] ↔
    (∀ summary ∈ attempts.reduceOption, summary.reasonCodes = []) ∧ AllSettled attempts ∧
      ¬ ((∀ summary ∈ settledOf attempts, summary.reconciliationStatus ≠ .inconsistent) ∧
        (aggregateAttemptTokens attempts).terminalUsage.totalTokens.isSome = true ∧
          tokenUsageExceeds (attributedOf attempts) (aggregateAttemptTokens attempts).terminalUsage = true) := by
  have conflict : ((settledOf attempts).any fun summary => summary.reconciliationStatus = .inconsistent) = true ↔
      ¬ ∀ summary ∈ settledOf attempts, summary.reconciliationStatus ≠ .inconsistent := by
    simp
  change sortedSet (if ¬ ((settledOf attempts).any fun summary => summary.reconciliationStatus = .inconsistent) = true ∧
    (aggregateAttemptTokens attempts).terminalUsage.totalTokens.isSome = true ∧
      tokenUsageExceeds (attributedOf attempts) (aggregateAttemptTokens attempts).terminalUsage = true then
        attempts.reduceOption.flatMap (fun summary => summary.reasonCodes) ++
          (if (settledOf attempts).length ≠ attempts.length then ["attempt_terminal_usage_unavailable"] else []) ++
            ["usage_delta_exceeds_terminal"]
    else attempts.reduceOption.flatMap (fun summary => summary.reasonCodes) ++
      if (settledOf attempts).length ≠ attempts.length then ["attempt_terminal_usage_unavailable"] else []) = [] ↔ _
  rw [sortedSet_nil, ← allSettled_iff]
  split
  · rename_i exceeds
    rw [conflict, not_not] at exceeds
    exact iff_of_false (by simp) fun parts => parts.2.2 exceeds
  · rename_i within
    rw [conflict, not_not] at within
    rw [and_iff_left within, List.append_eq_nil_iff, List.flatMap_eq_nil_iff]
    exact and_congr_right fun _ => by split <;> simp_all

theorem aggregate_settled {attempts : List (Option Summary)} (settled : ∀ summary ∈ attempts.reduceOption, Settled summary) :
    Settled (aggregateAttemptTokens attempts).toSummary := by
  intro unnoted whole known
  obtain ⟨each_unnoted, all, within⟩ := aggregate_unnoted.mp unnoted
  have each : ∀ summary ∈ settledOf attempts, summary.reconciliationStatus = .reconciled ∧
      amount summary.orchestration = summary.terminalUsage.totalTokens.getD 0 - phaseTotal summary ∧
        amount summary.unattributed = 0 := by
    intro summary member
    obtain ⟨listed, total⟩ := List.mem_filter.mp member
    obtain ⟨part, total⟩ := Option.isSome_iff_exists.mp total
    obtain ⟨status, orchestration, unattributed⟩ := settled summary listed (each_unnoted summary listed) part total
    rw [amount, amount, orchestration, unattributed, total]
    exact ⟨status, rfl, rfl⟩
  have consistent : ∀ summary ∈ settledOf attempts, summary.reconciliationStatus ≠ .inconsistent := fun summary member => by
    simp [(each summary member).1]
  have some_settled : settledOf attempts ≠ [] := fun none_settled => by
    rw [aggregate_terminal, if_pos none_settled] at known
    cases known
  have reconciled : (aggregateAttemptTokens attempts).reconciliationStatus = .reconciled := by
    refine aggregate_reconciled_iff attempts |>.mpr ⟨some_settled, consistent, ?_⟩
    rw [← Bool.not_eq_true]
    exact fun exceeds => within ⟨consistent, by simp [known], exceeds⟩
  have total : whole = wholeOf attempts := by
    rw [aggregate_terminal, if_neg some_settled, Option.some_inj] at known
    exact known.symm
  obtain ⟨orchestration, unattributed⟩ := aggregate_parts attempts reconciled
  have parts (summaries : List Summary) (settled : ∀ summary ∈ summaries, summary ∈ settledOf attempts) :
      (summaries.map fun summary => amount summary.orchestration).sum =
          totalOf (summaries.map fun summary => summary.terminalUsage) - (summaries.map phaseTotal).sum ∧
        (summaries.map fun summary => amount summary.unattributed).sum = 0 := by
    induction summaries with
    | nil => exact ⟨rfl, rfl⟩
    | cons summary rest ih =>
        obtain ⟨-, here, nothing⟩ := each summary (settled summary List.mem_cons_self)
        obtain ⟨later, nothing'⟩ := ih fun other member => settled other (List.mem_cons_of_mem _ member)
        simp only [List.map_cons, List.sum_cons, totalOf_cons, here, later, nothing, nothing']
        exact ⟨by ring, rfl⟩
  obtain ⟨sum, nothing⟩ := parts (settledOf attempts) fun _ => id
  refine ⟨reconciled, ?_, by rw [unattributed, nothing]⟩
  rw [orchestration, sum, total, aggregate_phaseTotal, all.settledOf_eq, wholeOf, all.settledOf_eq]

theorem Made.settled {summary : Summary} (made : Made summary) : Settled summary := by
  induction made with
  | attempt attempt summary made => exact Attempt.settled made
  | aggregate attempts _ ih => exact aggregate_settled ih

/-- The terminal usages of attempts. -/
def terminalsOf (attempts : List (Option Summary)) : List TokenUsage :=
  attempts.reduceOption.map fun summary => summary.terminalUsage

theorem AllSettled.terminal {attempts : List (Option Summary)} (all : AllSettled attempts) (some_attempt : terminalsOf attempts ≠ []) :
    (aggregateAttemptTokens attempts).terminalUsage = sumPhaseUsages (terminalsOf attempts) := by
  have listed : (settledOf attempts).map (fun summary => summary.terminalUsage) = terminalsOf attempts := by
    rw [all.settledOf_eq, terminalsOf]
  change aggregateTerminal ((settledOf attempts).map fun summary => summary.terminalUsage) attempts.length = _
  unfold aggregateTerminal
  rw [List.length_map, allSettled_iff.mpr all, listed, if_neg some_attempt, if_neg (fun differ => differ.1 rfl)]

theorem aggregate_exact_iff (attempts : List (Option Summary)) : (aggregateAttemptTokens attempts).measurement = .exact ↔
    (aggregateAttemptTokens attempts).coverage = some 1 ∧ AllSettled attempts ∧
      (aggregateAttemptTokens attempts).terminalUsage.measurement = .exact ∧
        (aggregateAttemptTokens attempts).reasonCodes = [] := by
  have label {p q : Prop} [Decidable p] [Decidable q] :
      (if p then Measurement.exact else if q then .partially else .unavailable) = .exact ↔ p := by
    split
    · exact iff_of_true rfl ‹p›
    · exact iff_of_false (by split <;> nofun) ‹¬ p›
  rw [← allSettled_iff]
  refine (label : (aggregateAttemptTokens attempts).measurement = .exact ↔ _).trans ?_
  exact and_congr_right fun _ => and_congr_right fun _ => and_congr_right fun _ => sortedSet_nil.symm

theorem aggregate_coverage (attempts : List (Option Summary)) : (aggregateAttemptTokens attempts).coverage =
    if (aggregateAttemptTokens attempts).reconciliationStatus = .reconciled then
      share ((settledOf attempts).map phaseTotal).sum ((aggregateAttemptTokens attempts).terminalUsage.totalTokens.getD 0)
    else none := by
  have attributed : (attributedOf attempts).totalTokens.getD 0 = ((settledOf attempts).map phaseTotal).sum := by
    rw [attributedOf_total, Option.getD_some]
  rw [← attributed]
  rfl

/-- The phase totals of attempts. -/
def phasesOf (attempts : List (Option Summary)) : Int := (attempts.reduceOption.map phaseTotal).sum

/-- Every attempt is measured exactly and has no reason, and what the phases lack of the totals is lost in rounding. -/
structure RoundedUp (attempts : List (Option Summary)) : Prop where
  settled : ∀ attempt ∈ attempts, ∃ summary, attempt = some summary ∧ summary.reasonCodes = [] ∧ Measured summary.terminalUsage
  fits : tokenUsageExceeds (sumPhaseUsages (attempts.reduceOption.flatMap knownPhases)) (sumPhaseUsages (terminalsOf attempts)) = false
  lost : LostInRounding (phasesOf attempts) (totalOf (terminalsOf attempts))

theorem RoundedUp.allSettled {attempts : List (Option Summary)} (rounded : RoundedUp attempts) : AllSettled attempts := by
  intro attempt member
  obtain ⟨summary, here, -, measured⟩ := rounded.settled attempt member
  exact ⟨summary, here, measured.1⟩

theorem terminals_some {attempts : List (Option Summary)} (lost : LostInRounding (phasesOf attempts) (totalOf (terminalsOf attempts))) :
    terminalsOf attempts ≠ [] := by
  intro none_left
  have no_summary : attempts.reduceOption = [] := List.map_eq_nil_iff.mp none_left
  obtain ⟨less, -⟩ := lost
  simp [phasesOf, none_left, no_summary] at less

theorem RoundedUp.exact {attempts : List (Option Summary)} (made : ∀ summary ∈ attempts.reduceOption, Made summary)
    (rounded : RoundedUp attempts) : (aggregateAttemptTokens attempts).measurement = .exact := by
  have all := rounded.allSettled
  have some_terminal := terminals_some rounded.lost
  have terminal := all.terminal some_terminal
  have each : ∀ summary ∈ attempts.reduceOption, summary.reasonCodes = [] ∧ Measured summary.terminalUsage := by
    intro summary member
    obtain ⟨other, same, parts⟩ := rounded.settled _ (List.reduceOption_mem_iff.mp member)
    cases same
    exact parts
  have measured : Measured (sumPhaseUsages (terminalsOf attempts)) := by
    rw [sumPhaseUsages_measured, terminalsOf, List.forall_mem_map]
    exact fun summary member => (each summary member).2
  have consistent : ∀ summary ∈ settledOf attempts, summary.reconciliationStatus ≠ .inconsistent := by
    intro summary member
    rw [all.settledOf_eq] at member
    obtain ⟨unnoted, known, -⟩ := each summary member
    obtain ⟨whole, known⟩ := Option.isSome_iff_exists.mp known
    simp [((made summary member).settled unnoted whole known).1]
  have fits : tokenUsageExceeds (attributedOf attempts) (aggregateAttemptTokens attempts).terminalUsage = false := by
    rw [attributedOf, terminal, all.settledOf_eq]
    exact rounded.fits
  have reconciled := (aggregate_reconciled_iff attempts).mpr
    ⟨fun none_settled => some_terminal (by rw [terminalsOf, ← all.settledOf_eq, none_settled]; rfl), consistent, fits⟩
  have total : (aggregateAttemptTokens attempts).terminalUsage.totalTokens.getD 0 = totalOf (terminalsOf attempts) := by
    rw [terminal, sumPhaseUsages_total]
  refine (aggregate_exact_iff attempts).mpr ⟨?_, all, ?_, aggregate_unnoted.mpr ⟨fun summary member => (each summary member).1, all, ?_⟩⟩
  · rw [aggregate_coverage, if_pos reconciled, total, all.settledOf_eq]
    exact (share_one_iff rounded.lost.1).mpr rounded.lost
  · rw [terminal]
    exact measured.2
  · simp [fits]

theorem aggregate_attributed_iff {attempts : List (Option Summary)} (made : ∀ summary ∈ attempts.reduceOption, Made summary) :
    ExactlyAttributed (aggregateAttemptTokens attempts).toSummary ↔ ¬ RoundedUp attempts := by
  constructor
  · intro exactly rounded
    have total := (exactly (rounded.exact made)).2.2
    have some_terminal := terminals_some rounded.lost
    have same : totalOf (terminalsOf attempts) = phasesOf attempts := by
      rw [← sumPhaseUsages_total, ← rounded.allSettled.terminal some_terminal, total, aggregate_phaseTotal]
      rfl
    exact rounded.lost.1.ne' same
  · intro not_rounded exact_measurement
    obtain ⟨covered, all, measured, unnoted⟩ := (aggregate_exact_iff attempts).mp exact_measurement
    have reconciled : (aggregateAttemptTokens attempts).reconciliationStatus = .reconciled := by
      by_contra other
      rw [aggregate_coverage, if_neg other] at covered
      cases covered
    obtain ⟨some_settled, -, fits⟩ := (aggregate_reconciled_iff attempts).mp reconciled
    have some_terminal : terminalsOf attempts ≠ [] := by
      rw [terminalsOf, ← all.settledOf_eq]
      exact fun none_left => some_settled (List.map_eq_nil_iff.mp none_left)
    have terminal := all.terminal some_terminal
    obtain ⟨whole, known⟩ : ∃ whole, (aggregateAttemptTokens attempts).terminalUsage.totalTokens = some whole := by
      rw [aggregate_terminal, if_neg some_settled]
      exact ⟨_, rfl⟩
    obtain ⟨-, orchestration, unattributed⟩ := aggregate_settled (fun summary member => (made summary member).settled)
      unnoted whole known
    have phases : phaseTotal (aggregateAttemptTokens attempts).toSummary = phasesOf attempts := aggregate_phaseTotal attempts
    have total : totalOf (terminalsOf attempts) = whole := by
      rw [← sumPhaseUsages_total, ← terminal, known, Option.getD_some]
    have part := attributedOf_total attempts
    rw [all.settledOf_eq] at part
    have same : phasesOf attempts = whole := by
      by_contra differ
      have less : phasesOf attempts < whole := lt_of_le_of_ne (total_le_of_fits fits part known) differ
      rw [aggregate_coverage, if_pos reconciled, known, all.settledOf_eq] at covered
      rw [all.settledOf_eq, terminal] at fits
      rw [terminal] at measured
      refine not_rounded ⟨fun attempt member => ?_, fits, ?_⟩
      · obtain ⟨summary, rfl, -⟩ := all attempt member
        have inside := List.reduceOption_mem_iff.mpr member
        exact ⟨summary, rfl, (aggregate_unnoted.mp unnoted).1 summary inside,
          sumPhaseUsages_exact_iff.mp measured _ (List.mem_map_of_mem inside)⟩
      · rw [total]
        exact (share_one_iff less).mp covered
    rw [orchestration, unattributed, known, phases, same, sub_self]
    exact ⟨rfl, rfl, rfl⟩

/-- A measurement that is called exact, of an attempt or an aggregate, misses terminal tokens exactly where the coverage is
rounded up to 1. -/
theorem exact_measurement_iff (attempt : Attempt) (attempts : List (Option Summary)) :
    ((∀ summary, attempt.summary? = some summary → ExactlyAttributed summary) ↔ ¬ attempt.RoundedUp) ∧
      ((∀ summary ∈ attempts.reduceOption, Made summary) →
        (ExactlyAttributed (aggregateAttemptTokens attempts).toSummary ↔ ¬ RoundedUp attempts)) :=
  ⟨attempt.exact_iff, aggregate_attributed_iff⟩

/-- An attempt with one token outside of its phase. -/
def oneOutside (inside : Nat) : Attempt where
  events := [⟨.phaseMarker, none, some "profile", some .start⟩, ⟨.usageDelta, some (inputOnly inside), none, none⟩,
    ⟨.phaseMarker, none, some "profile", some .finish⟩]
  terminal := inputOnly (inside + 1)
  capabilities := ⟨true, true⟩
  observationErrors := []
  nonneg := by
    intro event listed usage given name n known
    simp only [List.mem_cons, List.not_mem_nil, or_false] at listed
    rcases listed with rfl | rfl | rfl
    · cases given
    · cases given
      cases name <;> cases known <;> simp
    · cases given

theorem exact_measurement_iff_outside :
    ExactlyAttributed (aggregateAttemptTokens [(oneOutside 9999999).summary?]).toSummary ↔
      ¬ RoundedUp [(oneOutside 9999999).summary?] := by
  apply (exact_measurement_iff (oneOutside 9999999) _).2
  intro summary member
  have here := List.reduceOption_mem_iff.mp member
  rw [List.mem_singleton] at here
  exact .attempt (oneOutside 9999999) summary here.symm

/-- One token of ten million is not attributed, and the measurement is called exact. -/
theorem rounded_label_inexact : ¬ ∀ (attempt : Attempt) (summary : Summary), attempt.summary? = some summary →
    ExactlyAttributed summary ∧ ExactlyAttributed (aggregateAttemptTokens [some summary]).toSummary := by
  intro exactly
  have called : ((oneOutside 9999999).summary?.map fun summary => (summary.measurement, tokens summary.orchestration)) =
      some (.exact, some 1) := by
    decide +kernel
  obtain ⟨summary, made, shown⟩ := Option.map_eq_some_iff.mp called
  obtain ⟨label, outside⟩ := Prod.mk.inj shown
  have none_left := ((exactly _ summary made).1 label).1
  rw [outside] at none_left
  cases none_left

end AtrexAgent.PhaseTokens
