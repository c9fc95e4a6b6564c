import AtrexAgent.Agent.PhaseTokens

/-! What the summaries of token usage account for: each delta at most once, the totals of a reconciled summary, and when
an exact measurement is exact. -/

namespace AtrexAgent.PhaseTokens

open AtrexAgent.Tokens
open AtrexAgent.Binary64

variable {usages : List TokenUsage} {tally : Tally} {terminal : TokenUsage}

/-! ### Sums -/

theorem sumPhaseUsages_total (usages : List TokenUsage) :
    (sumPhaseUsages usages).totalTokens.getD 0 = totalOf usages := by
  unfold sumPhaseUsages
  split
  · rename_i none_left
    rw [none_left]
    rfl
  · exact sumTokenUsages_total usages

theorem sumPhaseUsages_known : (sumPhaseUsages usages).totalTokens.isSome = true ↔
    usages = [] ∨ ∃ usage ∈ usages, usage.totalTokens.isSome = true := by
  unfold sumPhaseUsages
  split
  · rename_i none_left
    simp [none_left, TokenUsage.zero]
  · rename_i some_usage
    rw [sumTokenUsages_known, or_iff_right some_usage]

theorem sumPhaseUsages_exact_iff : (sumPhaseUsages usages).measurement = .exact ↔
    ∀ usage ∈ usages, usage.totalTokens.isSome = true ∧ usage.measurement = .exact := by
  unfold sumPhaseUsages
  split
  · rename_i none_left
    simp [none_left, TokenUsage.zero]
  · rename_i some_usage
    rw [sumTokenUsages_exact_iff, and_iff_right some_usage]

theorem component_sumPhaseUsages (known : ∀ usage ∈ usages, usage.totalTokens.isSome = true) (name : Component) :
    (sumPhaseUsages usages).component name = sumKnown (usages.map fun usage => usage.component name) := by
  unfold sumPhaseUsages
  split
  · rename_i none_left
    rw [none_left]
    cases name <;> rfl
  · rename_i some_usage
    exact component_sumTokenUsages some_usage known name

/-- Sums of groups are summed to the sum of all, where every total is known. -/
theorem component_groups {groups : List (List TokenUsage)}
    (known : ∀ group ∈ groups, ∀ usage ∈ group, usage.totalTokens.isSome = true) (name : Component) :
    (sumPhaseUsages (groups.map sumPhaseUsages)).component name = (sumPhaseUsages groups.flatten).component name := by
  have sums : ∀ usage ∈ groups.map sumPhaseUsages, usage.totalTokens.isSome = true := by
    intro usage member
    obtain ⟨group, inside, rfl⟩ := List.mem_map.mp member
    rw [sumPhaseUsages_known]
    rcases List.eq_nil_or_concat' group with rfl | ⟨before, last, rfl⟩
    · exact .inl rfl
    · exact .inr ⟨last, by simp, known _ inside last (by simp)⟩
  have all : ∀ usage ∈ groups.flatten, usage.totalTokens.isSome = true := by
    intro usage member
    obtain ⟨group, inside, here⟩ := List.mem_flatten.mp member
    exact known group inside usage here
  have each : groups.map (fun group => (sumPhaseUsages group).component name) =
      groups.map fun group => sumKnown (group.map fun usage => usage.component name) :=
    List.map_congr_left fun group member => component_sumPhaseUsages (known group member) name
  calc (sumPhaseUsages (groups.map sumPhaseUsages)).component name
      = sumKnown (groups.map fun group => (sumPhaseUsages group).component name) := by
        rw [component_sumPhaseUsages sums, List.map_map]
        rfl
    _ = sumKnown ((groups.map fun group => group.map fun usage => usage.component name).map sumKnown) := by
        rw [each, List.map_map]
        rfl
    _ = sumKnown (groups.flatten.map fun usage => usage.component name) := by
        rw [sumKnown_flatten, List.map_flatten]
    _ = (sumPhaseUsages groups.flatten).component name := (component_sumPhaseUsages all name).symm

/-! ### What an event does -/

inductive Turn where
  | skip
  | delta (usage : TokenUsage)
  | invalid
  | mark (phase : Phase) (action : Action)

def Event.turn (event : Event) : Turn :=
  match event.kind, event.usage with
  | .usageDelta, some usage => .delta usage
  | .phaseMarker, _ =>
      match event.phase.bind phaseOf, event.action with
      | some phase, some action => .mark phase action
      | _, _ => .invalid
  | _, _ => .skip

def Tally.take (tally : Tally) : Turn → Tally
  | .skip => tally
  | .delta usage => tally.observe usage
  | .invalid => { tally.note "invalid_phase_marker" with pending := none }
  | .mark phase action => tally.mark phase action

theorem add_turn (tally : Tally) (event : Event) : tally.add event = tally.take event.turn := by
  obtain ⟨kind, usage, phase, action⟩ := event
  cases kind with
  | usageDelta => cases usage <;> rfl
  | terminalUsage => rfl
  | phaseMarker =>
      simp only [Tally.add, Event.turn]
      cases phase.bind phaseOf with
      | none => rfl
      | some phase => cases action <;> rfl

theorem foldl_turns (tally : Tally) (events : List Event) :
    events.foldl Tally.add tally = (events.map Event.turn).foldl Tally.take tally := by
  rw [List.foldl_map]
  congr 1
  funext tally event
  exact add_turn tally event

/-- The usage deltas among the events. -/
def deltasOf : List Turn → List TokenUsage
  | [] => []
  | .delta usage :: rest => usage :: deltasOf rest
  | _ :: rest => deltasOf rest

theorem take_deltas (tally : Tally) (turn : Turn) : (tally.take turn).deltas = tally.deltas ++ deltasOf [turn] := by
  cases turn with
  | delta usage =>
      simp only [Tally.take, Tally.observe]
      split
      · rfl
      · split <;> rfl
  | mark phase action =>
      simp only [Tally.take, Tally.mark, Tally.markInvalid, deltasOf, List.append_nil]
      repeat' split
      all_goals rfl
  | _ => simp [Tally.take, Tally.note, deltasOf]

theorem run_deltas (turns : List Turn) (tally : Tally) :
    (turns.foldl Tally.take tally).deltas = tally.deltas ++ deltasOf turns := by
  induction turns generalizing tally with
  | nil => simp [deltasOf]
  | cons turn rest ih =>
      rw [List.foldl_cons, ih, take_deltas, List.append_assoc]
      cases turn <;> rfl

/-! ### Each delta at most once -/

/-- The deltas in the intervals that are closed. -/
def Tally.attributed (tally : Tally) : List TokenUsage := PHASES.flatMap fun phase => (tally.intervals phase).flatten

theorem attributed_closed {closed : Tally} {phase : Phase} {spent : List TokenUsage}
    (ended : closed.intervals = Function.update tally.intervals phase (tally.intervals phase ++ [spent])) :
    closed.attributed.Perm (tally.attributed ++ spent) := by
  rw [← Multiset.coe_eq_coe]
  cases phase <;> simp [Tally.attributed, ended, PHASES, Function.update, ← Multiset.coe_add] <;> abel

/-- The deltas of the phase that is active, and the one that a phase may begin with. -/
def Tally.held (tally : Tally) : List TokenUsage := (tally.active.elim [] Prod.snd) ++ tally.pending.toList

/-- No delta is attributed, or held for a phase, twice. -/
def Accounted (tally : Tally) : Prop := (tally.attributed ++ tally.held).Subperm tally.deltas

theorem take_accounted (accounted : Accounted tally) (turn : Turn) : Accounted (tally.take turn) := by
  have fewer {held : List TokenUsage} (sub : held.Sublist tally.held) : (tally.attributed ++ held).Subperm tally.deltas :=
    (sub.append_left _).subperm.trans accounted
  cases turn with
  | skip => exact accounted
  | invalid => exact fewer (by simp [Tally.take, Tally.held, Tally.note])
  | delta usage =>
      simp only [Tally.take, Tally.observe]
      split
      · exact accounted.trans (List.sublist_append_left _ _).subperm
      · cases active : tally.active with
        | none =>
            have alone : tally.attributed.Subperm tally.deltas := by simpa using fewer (List.nil_sublist _)
            simpa [Accounted, Tally.held, Tally.attributed] using alone.append (List.Subperm.refl [usage])
        | some current =>
            have begun : (tally.attributed ++ current.2).Subperm tally.deltas := fewer (by simp [Tally.held, active])
            simpa [Accounted, Tally.held, Tally.attributed] using begun.append (List.Subperm.refl [usage])
  | mark phase action =>
      have alone : tally.attributed.Subperm tally.deltas := by simpa using fewer (List.nil_sublist _)
      simp only [Tally.take, Tally.mark]
      split
      · have dropped : (tally.attributed ++ (tally.active.elim [] Prod.snd ++ [])).Subperm tally.deltas :=
          fewer (by simp [Tally.held])
        cases action with
        | start => exact dropped
        | finish =>
            simp only [Tally.markInvalid]
            split
            · exact dropped
            · split <;> exact dropped
      · cases action with
        | start =>
            cases active : tally.active with
            | none =>
                have begun : (tally.attributed ++ tally.pending.toList).Subperm tally.deltas :=
                  fewer (by simp [Tally.held, active])
                simpa [Accounted, Tally.held, Tally.attributed] using begun
            | some current => simpa [Accounted, Tally.held, Tally.attributed, Tally.note] using alone
        | finish =>
            cases active : tally.active with
            | none => simpa [Accounted, Tally.held, Tally.attributed, Tally.note, active] using alone
            | some current =>
                obtain ⟨open_phase, spent⟩ := current
                dsimp only
                split
                · have counted : (tally.attributed ++ spent ++ tally.pending.toList).Subperm tally.deltas := by
                    rw [List.append_assoc]
                    exact fewer (by simp [Tally.held, active])
                  exact ((attributed_closed rfl).append_right _).subperm.trans counted
                · have kept : (tally.attributed ++ tally.pending.toList).Subperm tally.deltas :=
                    fewer (by simp [Tally.held])
                  simpa [Accounted, Tally.held, Tally.attributed, Tally.note] using kept

theorem run_accounted (accounted : Accounted tally) (turns : List Turn) : Accounted (turns.foldl Tally.take tally) := by
  induction turns generalizing tally with
  | nil => exact accounted
  | cons turn rest ih => exact ih (take_accounted accounted turn)

theorem new_accounted (observationErrors : List String) : Accounted (.new observationErrors) := by
  simp [Accounted, Tally.attributed, Tally.held, Tally.new, PHASES]

/-- The intervals of the phases hold each delta of the events at most once. -/
theorem attributed_subperm (turns : List Turn) (observationErrors : List String) :
    (turns.foldl Tally.take (.new observationErrors)).attributed.Subperm (deltasOf turns) := by
  have accounted := run_accounted (new_accounted observationErrors) turns
  rw [Accounted, run_deltas] at accounted
  exact (List.sublist_append_left _ _).subperm.trans accounted

/-! ### The totals of a summary -/

/-- The total of a usage that may be missing. -/
def tokens (usage : Option TokenUsage) : Option Int := usage.bind fun usage => usage.totalTokens

def amount (usage : Option TokenUsage) : Int := (tokens usage).getD 0

def phaseTotal (summary : Summary) : Int := totalOf (PHASES.filterMap fun phase => (summary.phases phase).usage)

/-- The parts of a reconciled summary add up to the terminal total. -/
def Balanced (summary : Summary) : Prop := summary.reconciliationStatus = .reconciled →
  summary.terminalUsage.totalTokens = some (phaseTotal summary + amount summary.orchestration + amount summary.unattributed)

@[simp] theorem amount_none : amount none = 0 := rfl

@[simp] theorem amount_some (usage : TokenUsage) : amount (some usage) = usage.totalTokens.getD 0 := rfl

theorem totalOf_filterMap {α : Type*} (values : List α) (usage : α → Option TokenUsage) :
    totalOf (values.filterMap usage) = (values.map fun value => amount (usage value)).sum := by
  induction values with
  | nil => rfl
  | cons value rest ih =>
      rw [List.filterMap_cons, List.map_cons, List.sum_cons, ← ih]
      cases usage value <;> simp

theorem totalOf_groups (groups : List (List TokenUsage)) :
    totalOf (groups.map sumPhaseUsages) = totalOf groups.flatten := by
  induction groups with
  | nil => rfl
  | cons group rest ih => simp [ih, sumPhaseUsages_total]

theorem entry_amount (intervals : List (List TokenUsage)) : amount (entryOf intervals).usage = totalOf intervals.flatten := by
  unfold entryOf
  split
  · rename_i none_closed
    rw [none_closed]
    rfl
  · rw [amount_some, sumPhaseUsages_total, totalOf_groups]

/-- The usages of the phases that were closed. -/
def Tally.phaseUsages (tally : Tally) : List TokenUsage :=
  PHASES.filterMap fun phase => (entryOf (tally.intervals phase)).usage

theorem phaseUsages_total (tally : Tally) : totalOf tally.phaseUsages = totalOf tally.attributed := by
  have flat (phases : List Phase) : totalOf (phases.flatMap fun phase => (tally.intervals phase).flatten) =
      (phases.map fun phase => totalOf (tally.intervals phase).flatten).sum := by
    induction phases with
    | nil => rfl
    | cons phase rest ih => simp [ih]
  rw [Tally.phaseUsages, totalOf_filterMap, Tally.attributed, flat]
  simp only [entry_amount]

/-- What a summary of a tally says. -/
inductive Summarized (tally : Tally) (terminal : TokenUsage) (summary : Summary) : Prop where
  | unavailable (unknown : terminal.totalTokens = none) (status : summary.reconciliationStatus = .unavailable)
      (reasons : summary.reasonCodes ≠ []) (inexact : summary.measurement ≠ .exact)
  | inconsistent (status : summary.reconciliationStatus = .inconsistent) (reasons : summary.reasonCodes ≠ [])
      (inexact : summary.measurement ≠ .exact)
      (found : (sumPhaseUsages tally.phaseUsages).totalTokens = none ∨ (sumPhaseUsages tally.deltas).totalTokens = none ∨
        tokenUsageExceeds (sumPhaseUsages tally.phaseUsages) terminal = true ∨
        tokenUsageExceeds (sumPhaseUsages tally.deltas) terminal = true)
  | reconciled {whole : Int} (known : terminal.totalTokens = some whole) (status : summary.reconciliationStatus = .reconciled)
      (attributed : (sumPhaseUsages tally.phaseUsages).totalTokens = some (totalOf tally.attributed))
      (observed : (sumPhaseUsages tally.deltas).totalTokens.isSome = true)
      (within : tokenUsageExceeds (sumPhaseUsages tally.phaseUsages) terminal = false)
      (observed_within : tokenUsageExceeds (sumPhaseUsages tally.deltas) terminal = false)
      (orchestration : tokens summary.orchestration = some (whole - totalOf tally.attributed))
      (unattributed : tokens summary.unattributed = some 0)
      (reasons : summary.reasonCodes = sortedSet tally.allReasons)
      (exact_iff : summary.measurement = .exact ↔ share (totalOf tally.attributed) whole = some 1 ∧
        tally.allReasons = [] ∧ terminal.measurement = .exact ∧ (sumPhaseUsages tally.phaseUsages).measurement = .exact)

theorem sortedSet_nil {reasons : List String} : sortedSet reasons = [] ↔ reasons = [] := by
  rw [sortedSet, ← List.length_eq_zero_iff, List.length_mergeSort, List.length_eq_zero_iff]
  exact List.dedup_eq_nil reasons

theorem known_total {usages : List TokenUsage} {total : Int} (known : (sumPhaseUsages usages).totalTokens = some total) :
    total = totalOf usages := by
  rw [← sumPhaseUsages_total, known]
  rfl

/-- The summary is made, whatever the events. -/
theorem summarizeTally_spec (tally : Tally) (terminal : TokenUsage) : ∃ summary,
    summarizeTally tally terminal = some summary ∧ summary.terminalUsage = terminal ∧
      (∀ phase, summary.phases phase = entryOf (tally.intervals phase)) ∧ Summarized tally terminal summary := by
  have noted (reason : String) : sortedSet (tally.allReasons ++ [reason]) ≠ [] := by simp [sortedSet_nil]
  have seen (usages : List TokenUsage) : (if usages ≠ [] then Measurement.partially else .unavailable) ≠ .exact := by
    split <;> nofun
  unfold summarizeTally
  dsimp only
  rw [show (PHASES.filterMap fun phase => (entryOf (tally.intervals phase)).usage) = tally.phaseUsages from rfl]
  cases whole : terminal.totalTokens with
  | none =>
      dsimp only
      split
      · rename_i may
        obtain ⟨observed, known_observed⟩ := Option.isSome_iff_exists.mp may.1
        obtain ⟨attributed, known_attributed⟩ := Option.isSome_iff_exists.mp may.2.1
        obtain ⟨rest, subtracted, -⟩ := subtractTokenUsage_total (by simpa using may.2.2) known_observed known_attributed
        rw [subtracted]
        exact ⟨_, rfl, rfl, fun _ => rfl, .unavailable whole rfl (noted _) (seen _)⟩
      · exact ⟨_, rfl, rfl, fun _ => rfl, .unavailable whole rfl (noted _) (seen _)⟩
  | some terminalTotal =>
      have inconsistent := fun found => (⟨_, rfl, rfl, fun _ => rfl,
        .inconsistent rfl (noted "usage_delta_exceeds_terminal") nofun found⟩ : ∃ summary,
          some (summarizeTally.inconsistent tally terminal fun phase => entryOf (tally.intervals phase)) = some summary ∧
            summary.terminalUsage = terminal ∧ (∀ phase, summary.phases phase = entryOf (tally.intervals phase)) ∧
              Summarized tally terminal summary)
      cases attributed : (sumPhaseUsages tally.phaseUsages).totalTokens with
      | none => exact inconsistent (.inl attributed)
      | some attributedTotal =>
          have total : attributedTotal = totalOf tally.attributed := by
            rw [known_total attributed, phaseUsages_total]
          subst total
          cases observed : (sumPhaseUsages tally.deltas).totalTokens with
          | none => exact inconsistent (.inr (.inl observed))
          | some observedTotal =>
              dsimp only
              split
              · rename_i exceeds
                exact inconsistent (.inr (.inr exceeds))
              · rename_i within
                simp only [not_or, Bool.not_eq_true] at within
                obtain ⟨rest, subtracted, total⟩ := subtractTokenUsage_total within.1 whole attributed
                rw [subtracted]
                refine ⟨_, rfl, rfl, fun _ => rfl, .reconciled whole rfl attributed (by simp [observed]) within.1 within.2
                  total rfl rfl ?_⟩
                dsimp only
                split
                · rename_i exact_measurement
                  exact iff_of_true rfl exact_measurement
                · rename_i inexact
                  exact iff_of_false (seen _) inexact

/-! ### Attempts -/

/-- What the summary of an attempt is made from. The adapters read a counter only where it is not negative. -/
structure Attempt where
  events : List Event
  terminal : TokenUsage
  capabilities : Capabilities
  observationErrors : List String
  nonneg : ∀ event ∈ events, ∀ usage ∈ event.usage, ∀ name, ∀ n ∈ usage.component name, 0 ≤ n

def Attempt.summary? (attempt : Attempt) : Option Summary :=
  summarizePhaseTokens attempt.events attempt.terminal attempt.capabilities attempt.observationErrors

/-- The deltas that an attempt observed. -/
def Attempt.deltas (attempt : Attempt) : List TokenUsage := deltasOf (attempt.events.map Event.turn)

def Attempt.tallied (attempt : Attempt) : Tally := attempt.events.foldl Tally.add (.new attempt.observationErrors)

def Attempt.Observed (attempt : Attempt) : Prop :=
  attempt.capabilities.usageDelta = true ∧ attempt.capabilities.usageDeltaObserved = true

theorem Attempt.summary?_observed {attempt : Attempt} (observed : attempt.Observed) :
    attempt.summary? = summarizeTally attempt.tallied attempt.terminal := by
  rw [Attempt.summary?, summarizePhaseTokens, if_neg]
  · rfl
  · simp [observed.1, observed.2]

theorem Attempt.summary?_unobserved {attempt : Attempt} (unobserved : ¬ attempt.Observed) : attempt.summary? =
    some (summarizeUnobserved attempt.terminal attempt.capabilities attempt.observationErrors) := by
  rw [Attempt.summary?, summarizePhaseTokens, if_pos]
  by_contra both
  simp only [not_or, not_not] at both
  exact unobserved both

theorem mem_deltas {turns : List Turn} {usage : TokenUsage} (member : usage ∈ deltasOf turns) : .delta usage ∈ turns := by
  induction turns with
  | nil => cases member
  | cons turn rest ih =>
      cases turn with
      | delta first =>
          rcases List.mem_cons.mp member with rfl | later
          · exact List.mem_cons_self
          · exact List.mem_cons_of_mem _ (ih later)
      | _ => exact List.mem_cons_of_mem _ (ih member)

theorem Attempt.deltas_nonneg (attempt : Attempt) : ∀ usage ∈ attempt.deltas, 0 ≤ usage.totalTokens.getD 0 := by
  intro usage member
  obtain ⟨event, inside, turned⟩ := List.mem_map.mp (mem_deltas member)
  have here : event.usage = some usage := by
    obtain ⟨kind, given, phase, action⟩ := event
    cases kind with
    | usageDelta =>
        cases given with
        | none => cases turned
        | some other =>
            cases turned
            rfl
    | terminalUsage => cases turned
    | phaseMarker =>
        simp only [Event.turn] at turned
        split at turned <;> cases turned
  cases total : usage.totalTokens with
  | none => exact le_rfl
  | some n => exact attempt.nonneg event inside usage here .total n total

theorem Attempt.attributed_subperm (attempt : Attempt) : attempt.tallied.attributed.Subperm attempt.deltas := by
  rw [Attempt.tallied, foldl_turns]
  exact PhaseTokens.attributed_subperm _ _

theorem Attempt.phase_nonneg (attempt : Attempt) (phase : Phase) :
    0 ≤ amount (entryOf (attempt.tallied.intervals phase)).usage := by
  rw [entry_amount]
  apply totalOf_nonneg
  intro usage member
  have attributed : usage ∈ attempt.tallied.attributed :=
    List.mem_flatMap.mpr ⟨phase, by cases phase <;> decide, member⟩
  exact attempt.deltas_nonneg usage (attempt.attributed_subperm.subset attributed)

/-- A settled attempt is reconciled or inconsistent, and its parts add up where it is reconciled. -/
structure Consistent (summary : Summary) : Prop where
  settled : summary.terminalUsage.totalTokens.isSome = true → summary.reconciliationStatus ≠ .inconsistent →
    summary.reconciliationStatus = .reconciled
  balanced : Balanced summary

/-- What the summary of an attempt says. -/
structure Accounts (attempt : Attempt) (summary : Summary) : Prop extends Consistent summary where
  attributed : ∃ intervals : Phase → List (List TokenUsage),
    (PHASES.flatMap fun phase => (intervals phase).flatten).Subperm attempt.deltas ∧
      ∀ phase, summary.phases phase = entryOf (intervals phase)
  nonneg : ∀ phase, 0 ≤ amount (summary.phases phase).usage

theorem phaseTotal_entries {summary : Summary} (entries : ∀ phase, summary.phases phase = entryOf (tally.intervals phase)) :
    phaseTotal summary = totalOf tally.attributed := by
  rw [phaseTotal, ← phaseUsages_total, Tally.phaseUsages]
  simp only [entries]

theorem Summarized.consistent {summary : Summary} (summarized : Summarized tally terminal summary)
    (same : summary.terminalUsage = terminal)
    (entries : ∀ phase, summary.phases phase = entryOf (tally.intervals phase)) : Consistent summary := by
  cases summarized with
  | unavailable unknown status =>
      exact ⟨fun known => by simp [same, unknown] at known, fun reconciled => by simp [status] at reconciled⟩
  | inconsistent status => exact ⟨fun _ other => absurd status other, fun reconciled => by simp [status] at reconciled⟩
  | reconciled known status _ _ _ _ orchestration unattributed =>
      refine ⟨fun _ _ => status, fun _ => ?_⟩
      rw [same, known, phaseTotal_entries entries, amount, amount, orchestration, unattributed]
      simp

theorem Attempt.accounts (attempt : Attempt) : ∃ summary, attempt.summary? = some summary ∧ Accounts attempt summary := by
  by_cases observed : attempt.Observed
  · obtain ⟨summary, made, same, entries, summarized⟩ := summarizeTally_spec attempt.tallied attempt.terminal
    refine ⟨summary, (summary?_observed observed).trans made, summarized.consistent same entries, ?_, fun phase => ?_⟩
    · exact ⟨attempt.tallied.intervals, attempt.attributed_subperm, entries⟩
    · rw [entries]
      exact attempt.phase_nonneg phase
  · refine ⟨_, summary?_unobserved observed, ⟨fun known other => ?_, fun reconciled => ?_⟩,
      ⟨fun _ => [], ?_, fun _ => rfl⟩, fun _ => le_rfl⟩
    · simp only [summarizeUnobserved] at known ⊢
      rw [if_pos known]
    · simp only [summarizeUnobserved] at reconciled ⊢
      cases total : attempt.terminal.totalTokens with
      | none => simp [total] at reconciled
      | some whole => simp [phaseTotal, PHASES, PhaseEntry.unobserved, total]
    · simp [PHASES]

/-! ### Aggregates -/

theorem known_amount (usage : Option TokenUsage) : amount (known usage) = amount usage := by
  cases usage with
  | none => rfl
  | some usage => cases total : usage.totalTokens <;> simp [known, Option.filter, total]

theorem aggregateEntry_amount (phase : Phase) (summaries : List Summary) :
    amount (aggregateEntry phase summaries).usage = totalOf (usagesOf phase summaries) := by
  unfold aggregateEntry
  dsimp only
  split
  · rename_i none_known
    rw [none_known]
    rfl
  · rw [amount_some, ← sumPhaseUsages_total]
    split <;> rfl

/-- The usages by phase and by summary are the same. -/
theorem usages_perm (summaries : List Summary) :
    (PHASES.flatMap fun phase => usagesOf phase summaries).Perm (summaries.flatMap knownPhases) := by
  induction summaries with
  | nil => simp [usagesOf, PHASES]
  | cons summary rest ih =>
      have split_first : (fun phase => usagesOf phase (summary :: rest)) = fun phase =>
          (known (summary.phases phase).usage).toList ++ usagesOf phase rest := by
        funext phase
        rw [usagesOf, List.filterMap_cons]
        cases known (summary.phases phase).usage <;> rfl
      have first : (PHASES.flatMap fun phase => (known (summary.phases phase).usage).toList) = knownPhases summary := by
        rw [knownPhases, List.filterMap_eq_flatMap_toList]
      rw [split_first, List.flatMap_cons, ← first]
      exact (List.flatMap_append_perm _ _ _).symm.trans (ih.append_left _)

theorem totalOf_flatMap {α : Type*} (values : List α) (usages : α → List TokenUsage) :
    totalOf (values.flatMap usages) = (values.map fun value => totalOf (usages value)).sum := by
  induction values with
  | nil => rfl
  | cons value rest ih => simp [ih]

theorem knownPhases_total (summary : Summary) : totalOf (knownPhases summary) = phaseTotal summary := by
  rw [knownPhases, phaseTotal, totalOf_filterMap, totalOf_filterMap]
  simp only [known_amount]

theorem aggregate_phaseTotal (attempts : List (Option Summary)) :
    phaseTotal (aggregateAttemptTokens attempts).toSummary = (attempts.reduceOption.map phaseTotal).sum :=
  calc phaseTotal (aggregateAttemptTokens attempts).toSummary
      = (PHASES.map fun phase => totalOf (usagesOf phase attempts.reduceOption)).sum := by
        rw [phaseTotal, totalOf_filterMap]
        exact congrArg List.sum (List.map_congr_left fun phase _ => aggregateEntry_amount phase _)
    _ = totalOf (attempts.reduceOption.flatMap knownPhases) := by
        rw [← totalOf_perm (usages_perm _), totalOf_flatMap]
    _ = (attempts.reduceOption.map phaseTotal).sum := by
        rw [totalOf_flatMap]
        simp only [knownPhases_total]

/-- The attempts that report a terminal total. -/
def settledOf (attempts : List (Option Summary)) : List Summary :=
  attempts.reduceOption.filter fun summary => summary.terminalUsage.totalTokens.isSome

/-- The phase totals of the attempts that report no terminal total. -/
def unmatched (attempts : List (Option Summary)) : Int :=
  ((attempts.reduceOption.filter fun summary => ¬ summary.terminalUsage.totalTokens.isSome).map phaseTotal).sum

theorem phaseTotal_split (summaries : List Summary) : (summaries.map phaseTotal).sum =
    ((summaries.filter fun summary => summary.terminalUsage.totalTokens.isSome).map phaseTotal).sum +
      ((summaries.filter fun summary => ¬ summary.terminalUsage.totalTokens.isSome).map phaseTotal).sum := by
  induction summaries with
  | nil => rfl
  | cons summary rest ih => cases total : summary.terminalUsage.totalTokens <;> simp [total, ih] <;> ring

/-- The terminal totals of the attempts. -/
def wholeOf (attempts : List (Option Summary)) : Int :=
  totalOf ((settledOf attempts).map fun summary => summary.terminalUsage)

theorem aggregateTerminal_total (observed : List TokenUsage) (attempts : Nat)
    (known : ∀ usage ∈ observed, usage.totalTokens.isSome = true) :
    (aggregateTerminal observed attempts).totalTokens = if observed = [] then none else some (totalOf observed) := by
  have labelled (usage : TokenUsage) (missing : Prop) [Decidable missing] :
      (if missing then { usage with measurement := .partially } else usage).totalTokens = usage.totalTokens := by
    split <;> rfl
  rw [aggregateTerminal, labelled]
  split
  · rfl
  · rename_i some_usage
    obtain ⟨usage, member⟩ := List.exists_mem_of_ne_nil _ some_usage
    obtain ⟨whole, total⟩ := Option.isSome_iff_exists.mp (sumPhaseUsages_known.mpr (.inr ⟨usage, member, known usage member⟩))
    rw [total, ← sumPhaseUsages_total, total, Option.getD_some]

theorem aggregate_terminal (attempts : List (Option Summary)) :
    (aggregateAttemptTokens attempts).terminalUsage.totalTokens =
      if settledOf attempts = [] then none else some (wholeOf attempts) := by
  have known : ∀ usage ∈ (settledOf attempts).map fun summary => summary.terminalUsage, usage.totalTokens.isSome = true := by
    intro usage member
    obtain ⟨summary, inside, rfl⟩ := List.mem_map.mp member
    exact (List.mem_filter.mp inside).2
  have total := aggregateTerminal_total _ attempts.length known
  simp only [List.map_eq_nil_iff] at total
  exact total

/-- When an aggregate is reconciled. -/
theorem aggregate_reconciled_iff (attempts : List (Option Summary)) :
    (aggregateAttemptTokens attempts).reconciliationStatus = .reconciled ↔
      settledOf attempts ≠ [] ∧ (∀ summary ∈ settledOf attempts, summary.reconciliationStatus ≠ .inconsistent) ∧
        tokenUsageExceeds (sumPhaseUsages ((settledOf attempts).flatMap knownPhases))
          (aggregateAttemptTokens attempts).terminalUsage = false := by
  have known : (aggregateAttemptTokens attempts).terminalUsage.totalTokens = none ↔ settledOf attempts = [] := by
    rw [aggregate_terminal]
    split <;> simp_all
  have conflict : ((settledOf attempts).any fun summary => summary.reconciliationStatus = .inconsistent) = true ↔
      ¬ ∀ summary ∈ settledOf attempts, summary.reconciliationStatus ≠ .inconsistent := by
    simp
  change (if ((settledOf attempts).any fun summary => summary.reconciliationStatus = .inconsistent) = true then
    Reconciliation.inconsistent else if (aggregateAttemptTokens attempts).terminalUsage.totalTokens = none then .unavailable
      else if tokenUsageExceeds (sumPhaseUsages ((settledOf attempts).flatMap knownPhases))
        (aggregateAttemptTokens attempts).terminalUsage = true then .inconsistent else .reconciled) = _ ↔ _
  simp only [known, conflict]
  by_cases consistent : ∀ summary ∈ settledOf attempts, summary.reconciliationStatus ≠ .inconsistent
  · rw [if_neg (not_not.mpr consistent), and_iff_right consistent]
    by_cases settled : settledOf attempts = []
    · simp [settled]
    · rw [if_neg settled, and_iff_right settled]
      split <;> simp_all
  · simp [consistent]

theorem tokens_sum (values : List Summary) (usage : Summary → Option TokenUsage) :
    tokens (some (sumPhaseUsages (values.filterMap fun summary => known (usage summary)))) =
      some (values.map fun summary => amount (usage summary)).sum := by
  have some_known : (sumPhaseUsages (values.filterMap fun summary => known (usage summary))).totalTokens.isSome = true := by
    rw [sumPhaseUsages_known]
    cases listed : values.filterMap fun summary => known (usage summary) with
    | nil => exact .inl rfl
    | cons first rest =>
        have member : first ∈ values.filterMap fun summary => known (usage summary) := by simp [listed]
        obtain ⟨summary, -, here⟩ := List.mem_filterMap.mp member
        exact .inr ⟨first, List.mem_cons_self, (Option.filter_eq_some_iff.mp here).2⟩
  obtain ⟨whole, total⟩ := Option.isSome_iff_exists.mp some_known
  have sum := known_total total
  rw [totalOf_filterMap] at sum
  simp only [known_amount] at sum
  rw [← sum]
  exact total

theorem aggregate_parts (attempts : List (Option Summary))
    (reconciled : (aggregateAttemptTokens attempts).reconciliationStatus = .reconciled) :
    tokens (aggregateAttemptTokens attempts).orchestration =
        some ((settledOf attempts).map fun summary => amount summary.orchestration).sum ∧
      tokens (aggregateAttemptTokens attempts).unattributed =
        some ((settledOf attempts).map fun summary => amount summary.unattributed).sum := by
  constructor
  · rw [← tokens_sum]
    change tokens (if (aggregateAttemptTokens attempts).reconciliationStatus = .reconciled then _ else _) = _
    rw [if_pos reconciled]
    rfl
  · rw [← tokens_sum]
    change tokens (if (aggregateAttemptTokens attempts).reconciliationStatus = .reconciled then _ else _) = _
    rw [if_pos reconciled]
    rfl

/-- The parts of a reconciled aggregate add up to the terminal total and the phases of attempts that report none. -/
theorem aggregate_balanced {attempts : List (Option Summary)} (consistent : ∀ summary ∈ attempts.reduceOption, Consistent summary)
    (reconciled : (aggregateAttemptTokens attempts).reconciliationStatus = .reconciled) :
    (aggregateAttemptTokens attempts).terminalUsage.totalTokens =
      some (phaseTotal (aggregateAttemptTokens attempts).toSummary + amount (aggregateAttemptTokens attempts).orchestration +
        amount (aggregateAttemptTokens attempts).unattributed - unmatched attempts) := by
  obtain ⟨some_settled, no_conflict, -⟩ := (aggregate_reconciled_iff attempts).mp reconciled
  obtain ⟨orchestration, unattributed⟩ := aggregate_parts attempts reconciled
  have each (summaries : List Summary) (settled : ∀ summary ∈ summaries, summary ∈ settledOf attempts) :
      totalOf (summaries.map fun summary => summary.terminalUsage) = (summaries.map phaseTotal).sum +
        (summaries.map fun summary => amount summary.orchestration).sum +
          (summaries.map fun summary => amount summary.unattributed).sum := by
    induction summaries with
    | nil => rfl
    | cons summary rest ih =>
        have here := settled summary List.mem_cons_self
        obtain ⟨listed, known⟩ := List.mem_filter.mp here
        have balanced := (consistent summary listed).balanced ((consistent summary listed).settled known (no_conflict summary here))
        simp only [List.map_cons, totalOf_cons, List.sum_cons, balanced, Option.getD_some,
          ih fun other member => settled other (List.mem_cons_of_mem _ member)]
        ring
  have split_totals := phaseTotal_split attempts.reduceOption
  rw [aggregate_terminal, if_neg some_settled, aggregate_phaseTotal, amount, amount, orchestration, unattributed,
    split_totals, wholeOf, each _ fun _ => id]
  simp only [settledOf, unmatched, Option.getD_some, Option.some_inj]
  ring

/-! ### Conservation -/

/-- The summaries of attempts; an attempt may have none. -/
def summariesOf (attempts : List (Option Attempt)) : List (Option Summary) :=
  attempts.map fun attempt => attempt.bind Attempt.summary?

theorem mem_summariesOf {attempts : List (Option Attempt)} {summary : Summary}
    (member : summary ∈ (summariesOf attempts).reduceOption) : ∃ attempt : Attempt, Accounts attempt summary := by
  obtain ⟨some_attempt, -, here⟩ := List.mem_map.mp (List.reduceOption_mem_iff.mp member)
  obtain ⟨attempt, -, made⟩ := Option.bind_eq_some_iff.mp here
  obtain ⟨other, made', accounts⟩ := attempt.accounts
  cases made.symm.trans made'
  exact ⟨attempt, accounts⟩

theorem aggregate_nonneg {attempts : List (Option Summary)}
    (nonneg : ∀ summary ∈ attempts.reduceOption, ∀ phase, 0 ≤ amount (summary.phases phase).usage) (phase : Phase) :
    0 ≤ amount ((aggregateAttemptTokens attempts).phases phase).usage := by
  have entry : (aggregateAttemptTokens attempts).phases phase = aggregateEntry phase attempts.reduceOption := rfl
  rw [entry, aggregateEntry_amount, usagesOf, totalOf_filterMap]
  apply List.sum_nonneg
  intro total member
  obtain ⟨summary, inside, rfl⟩ := List.mem_map.mp member
  rw [known_amount]
  exact nonneg summary inside phase

/-- Every attempt is summarized, each of its deltas counts for one phase at most, and the parts of what is reconciled add
up; in an aggregate the phases of attempts without a terminal total are on top of it. -/
theorem usage_conserved :
    (∀ attempt : Attempt, ∃ summary, attempt.summary? = some summary ∧ Accounts attempt summary) ∧
      ∀ attempts : List (Option Attempt),
        (∀ phase, 0 ≤ amount ((aggregateAttemptTokens (summariesOf attempts)).phases phase).usage) ∧
          ((aggregateAttemptTokens (summariesOf attempts)).reconciliationStatus = .reconciled →
            (aggregateAttemptTokens (summariesOf attempts)).terminalUsage.totalTokens =
              some (phaseTotal (aggregateAttemptTokens (summariesOf attempts)).toSummary +
                amount (aggregateAttemptTokens (summariesOf attempts)).orchestration +
                  amount (aggregateAttemptTokens (summariesOf attempts)).unattributed - unmatched (summariesOf attempts))) := by
  refine ⟨Attempt.accounts, fun attempts => ⟨aggregate_nonneg fun summary member => ?_, aggregate_balanced fun summary member => ?_⟩⟩
  · obtain ⟨_, accounts⟩ := mem_summariesOf member
    exact accounts.nonneg
  · obtain ⟨_, accounts⟩ := mem_summariesOf member
    exact accounts.toConsistent

/-- A usage of which all is input. -/
def inputOnly (tokens : Int) : TokenUsage := ⟨some tokens, some 0, some 0, some 0, some tokens, .exact⟩

def settledAttempt : Attempt where
  events := []
  terminal := inputOnly 10
  capabilities := ⟨true, true⟩
  observationErrors := []
  nonneg := by simp

def interruptedAttempt : Attempt where
  events := [⟨.phaseMarker, none, some "profile", some .start⟩, ⟨.usageDelta, some (inputOnly 5), none, none⟩,
    ⟨.phaseMarker, none, some "profile", some .finish⟩]
  terminal := .unavailable
  capabilities := ⟨true, true⟩
  observationErrors := []
  nonneg := by
    intro event listed usage given name n known
    simp only [List.mem_cons, List.not_mem_nil, or_false] at listed
    rcases listed with rfl | rfl | rfl
    · cases given
    · cases given
      cases name <;> cases known <;> decide
    · cases given

theorem interrupted_phases_exceed :
    (aggregateAttemptTokens (summariesOf [some settledAttempt, some interruptedAttempt])).reconciliationStatus = .reconciled ∧
      ¬ Balanced (aggregateAttemptTokens (summariesOf [some settledAttempt, some interruptedAttempt])).toSummary := by
  have reconciled : (aggregateAttemptTokens
      (summariesOf [some settledAttempt, some interruptedAttempt])).reconciliationStatus = .reconciled := by
    decide +kernel
  refine ⟨reconciled, fun balanced => ?_⟩
  exact absurd (balanced reconciled) (by decide +kernel)

end AtrexAgent.PhaseTokens
