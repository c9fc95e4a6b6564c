import AtrexAgent.Library.Traversal
import AtrexAgent.Evaluation.NativeAbba

/-! The runs of a native A/B payload against the verification schedule, and what each of them says
of the requested shapes. -/

namespace AtrexAgent.Evaluation

open AtrexAgent.Json

noncomputable section

open scoped Classical

/-! ### The order of the runs -/

def slotStep (block : Nat) (slot : Slot) : Step := ⟨slot.revision, block * 2 + slot.repetition⟩

/-- The two loops name the same runs in the same order. -/
theorem blocks_are_schedule (blocks : Nat) (some_block : 0 < blocks) :
    (List.range blocks).flatMap (fun block => expectedSlots.map (slotStep block)) =
      verificationSchedule (blocks * 2) := by
  have even : ∀ n, (List.range (n * 2)).flatMap (fun repetition =>
      if repetition % 2 = 0 then [⟨.incumbent, repetition⟩, ⟨.candidate, repetition⟩]
      else [⟨.candidate, repetition⟩, ⟨.incumbent, repetition⟩]) =
      (List.range n).flatMap fun block => expectedSlots.map (slotStep block) := by
    intro n
    induction n with
    | zero => rfl
    | succ n ih =>
        rw [show (n + 1) * 2 = n * 2 + 1 + 1 by omega, List.range_succ, List.range_succ,
          List.range_succ, List.flatMap_append, List.flatMap_append, List.flatMap_append, ih,
          List.append_assoc]
        congr 1
        simp [expectedSlots, slotStep]
  unfold verificationSchedule
  rw [show max 1 (blocks * 2) = blocks * 2 by omega, even]

/-! ### The evidence of a shape -/

/-- The verdict of a stage on a shape, or on all of them. -/
def compileStatus (raw : Dict) (shapeId : String) : Option Value :=
  match get raw "passed" with
  | .obj passed =>
      match get passed "compile" with
      | .obj result =>
          (dictOf (if result.any fun item => item.1 = "status" then .obj result
            else getOrEmpty result shapeId)).map fun verdict => get verdict "status"
      | _ => none
  | _ => none

def correctnessStatus (raw : Dict) (shapeId : String) : Option Value :=
  match get raw "passed" with
  | .obj passed => do
      let correctness ← dictOf (orEmpty (get passed "correctness"))
      let verdict ← dictOf (getOrEmpty correctness shapeId)
      pure (get verdict "status")
  | _ => none

/-- The timings of a shape, where its samples can be read. -/
def shapeTimings (raw : Dict) (shapeId : String) : Option (List Value) := do
  let performance ← dictOf (orEmpty (get raw "performance"))
  let shapes ← dictOf (getOrEmpty performance "shapes")
  let shape ← dictOf (getOrEmpty shapes shapeId)
  let samples ← (samplesOf shape).toOption
  pure (timings samples)

/-- The evaluator came to an end with the shape: it did not compile, it is not correct, or it was
timed. -/
inductive Judged (raw : Dict) (shapeId : String) : Prop
  | uncompiled : compileStatus raw shapeId = some (.str "failed") → Judged raw shapeId
  | incorrect : compileStatus raw shapeId = some (.str "passed") →
      correctnessStatus raw shapeId = some (.str "failed") → Judged raw shapeId
  | timed {values : List Value} : compileStatus raw shapeId = some (.str "passed") →
      correctnessStatus raw shapeId = some (.str "passed") →
      shapeTimings raw shapeId = some values → values ≠ [] →
      (∀ value ∈ values, (positiveNumber value).isSome) → Judged raw shapeId

theorem asDict_ok {value : Value} {d : Dict} (read : asDict value = .ok d) : value = .obj d := by
  cases value <;> cases read
  rfl

section Evidence

variable {compileResult : Dict} {correctness performance : Value} {shapes : List String}

theorem completeShapes_ok
    (complete : completeShapes compileResult correctness performance shapes = .ok true) :
    ∀ shapeId ∈ shapes, completeShape compileResult correctness performance shapeId = .ok true := by
  induction shapes with
  | nil => simp
  | cons shapeId rest ih =>
      obtain ⟨found, here, later⟩ := (bind_ok_iff _ _ _).mp complete
      cases found with
      | false => cases later
      | true => exact List.forall_mem_cons.mpr ⟨here, ih later⟩

theorem completeEvaluation_judged {raw : Dict}
    (complete : completeEvaluation raw shapes = .ok true) : ∀ shapeId ∈ shapes, Judged raw shapeId := by
  unfold completeEvaluation at complete
  split at complete
  · cases complete
  split at complete
  swap
  · cases complete
  next passed isPassed =>
  split at complete
  swap
  · cases complete
  next compileResult isCompile =>
  obtain ⟨performance, read, complete⟩ := (bind_ok_iff _ _ _).mp complete
  intro shapeId member
  have shape := completeShapes_ok complete shapeId member
  unfold completeShape at shape
  obtain ⟨compilation, here, shape⟩ := (bind_ok_iff _ _ _).mp shape
  have compiled : compileStatus raw shapeId = some (get compilation "status") := by
    unfold compileStatus
    simp only [isPassed, isCompile]
    rw [asDict_ok here]
    rfl
  split at shape
  · next failed => exact .uncompiled (failed ▸ compiled)
  split at shape
  · cases shape
  next passes =>
  rw [not_not.mp passes] at compiled
  obtain ⟨statuses, statusesRead, shape⟩ := (bind_ok_iff _ _ _).mp shape
  obtain ⟨verdict, verdictRead, shape⟩ := (bind_ok_iff _ _ _).mp shape
  have correct : correctnessStatus raw shapeId = some (get verdict "status") := by
    unfold correctnessStatus
    simp only [isPassed]
    rw [asDict_ok statusesRead]
    change (dictOf (getOrEmpty statuses shapeId)).bind _ = _
    rw [asDict_ok verdictRead]
    rfl
  split at shape
  · next failed => exact .incorrect compiled (failed ▸ correct)
  split at shape
  · cases shape
  next passes =>
  rw [not_not.mp passes] at correct
  obtain ⟨table, tableRead, shape⟩ := (bind_ok_iff _ _ _).mp shape
  obtain ⟨timed, timedRead, shape⟩ := (bind_ok_iff _ _ _).mp shape
  obtain ⟨samples, samplesRead, shape⟩ := (bind_ok_iff _ _ _).mp shape
  have values : shapeTimings raw shapeId = some (timings samples) := by
    unfold shapeTimings
    rw [asDict_ok read]
    change (dictOf (getOrEmpty performance "shapes")).bind _ = _
    rw [asDict_ok tableRead]
    change (dictOf (getOrEmpty table shapeId)).bind _ = _
    rw [asDict_ok timedRead]
    change (samplesOf timed).toOption.bind _ = _
    rw [samplesRead]
    rfl
  have good : timings samples ≠ [] ∧ ∀ value ∈ timings samples, (positiveNumber value).isSome := by
    have decided := Except.ok.inj shape
    exact of_decide_eq_true decided
  exact .timed compiled correct values good.1 good.2

end Evidence

/-! ### The latencies of a run -/

/-- The latency that a run has of a shape. -/
def nativeLatency (raw : Dict) (shapeId : String) : Except Error (Option ℝ) := do
  let performance ← asDict (orEmpty (get raw "performance"))
  shapeLatency (orEmpty (get performance "shapes")) shapeId

/-- Every shape at most once, with its own latency. -/
structure Tabulated (performance : Value) (latencies : List (String × ℝ)) : Prop where
  distinct : (latencies.map Prod.fst).Nodup
  own : ∀ item ∈ latencies, shapeLatency performance item.1 = .ok (some item.2)

theorem latenciesOf_ok {performance : Value} {shapes : List String}
    {start latencies : List (String × ℝ)} (tabulated : Tabulated performance start)
    (done : latenciesOf performance shapes start = .ok latencies) :
    Tabulated performance latencies ∧ ∀ shapeId, shapeId ∈ latencies.map Prod.fst ↔
      shapeId ∈ start.map Prod.fst ∨
        shapeId ∈ shapes ∧ ∃ latency, shapeLatency performance shapeId = .ok (some latency) := by
  induction shapes generalizing start with
  | nil =>
      cases done
      exact ⟨tabulated, by simp⟩
  | cons first rest ih =>
      obtain ⟨found, here, done⟩ := (bind_ok_iff _ _ _).mp done
      cases found with
      | none =>
          obtain ⟨tabulated', keys⟩ := ih tabulated done
          refine ⟨tabulated', fun shapeId => (keys shapeId).trans (or_congr_right ?_)⟩
          constructor
          · rintro ⟨member, timed⟩
            exact ⟨List.mem_cons_of_mem _ member, timed⟩
          · rintro ⟨member, latency, timed⟩
            rcases List.mem_cons.mp member with rfl | later
            · rw [here] at timed
              cases timed
            · exact ⟨later, latency, timed⟩
      | some latency =>
          have added : ∀ table, Tabulated performance table →
              (∀ shapeId, shapeId ∈ table.map Prod.fst ↔
                shapeId ∈ start.map Prod.fst ∨ shapeId = first) →
              latenciesOf performance rest table = .ok latencies →
              Tabulated performance latencies ∧ ∀ shapeId, shapeId ∈ latencies.map Prod.fst ↔
                shapeId ∈ start.map Prod.fst ∨ shapeId ∈ first :: rest ∧
                  ∃ latency, shapeLatency performance shapeId = .ok (some latency) := by
            intro table tabulated grown done
            obtain ⟨tabulated', keys⟩ := ih tabulated done
            refine ⟨tabulated', fun shapeId => ?_⟩
            rw [keys, grown, List.mem_cons, or_assoc]
            refine or_congr_right ?_
            constructor
            · rintro (rfl | ⟨later, timed⟩)
              · exact ⟨Or.inl rfl, latency, here⟩
              · exact ⟨Or.inr later, timed⟩
            · rintro ⟨rfl | later, timed⟩
              · exact Or.inl rfl
              · exact Or.inr ⟨later, timed⟩
          dsimp only at done
          split at done
          · next listed =>
            have names : (start.map fun item => if item.1 = first then (first, latency) else item).map
                Prod.fst = start.map Prod.fst := by
              rw [List.map_map]
              refine List.map_congr_left fun item _ => ?_
              by_cases same : item.1 = first
              · simp [same]
              · simp [same]
            refine added _ ⟨names ▸ tabulated.distinct, ?_⟩ ?_ done
            · intro item member
              obtain ⟨old, given, rfl⟩ := List.mem_map.mp member
              split
              · exact here
              · exact tabulated.own old given
            · intro shapeId
              rw [names]
              refine (or_iff_left_of_imp ?_).symm
              rintro rfl
              obtain ⟨item, member, same⟩ := List.any_eq_true.mp listed
              exact List.mem_map.mpr ⟨item, member, of_decide_eq_true same⟩
          · next fresh =>
            refine added _ ⟨?_, ?_⟩ ?_ done
            · rw [List.map_append, List.nodup_append]
              refine ⟨tabulated.distinct, by simp, ?_⟩
              intro shapeId member other singleton same
              obtain rfl : other = first := by simpa using singleton
              subst same
              obtain ⟨item, given, named⟩ := List.mem_map.mp member
              exact fresh (List.any_eq_true.mpr ⟨item, given, decide_eq_true named⟩)
            · intro item member
              rcases List.mem_append.mp member with old | new
              · exact tabulated.own item old
              · obtain rfl := List.mem_singleton.mp new
                exact here
            · intro shapeId
              simp

/-- What a run says of the requested shapes: a verdict of each, at most one latency of each, and
one of every shape where it passes. -/
structure Covers (shapes : List String) (raw summary : Dict) : Prop where
  verdict : ∀ shapeId ∈ shapes, Judged raw shapeId
  latencies : ∃ latencies : List (String × ℝ),
    get summary "latency_us_by_shape" =
      .obj (latencies.map fun item => (item.1, .float (.finite item.2))) ∧
    (latencies.map Prod.fst).Nodup ∧
    (∀ item ∈ latencies, nativeLatency raw item.1 = .ok (some item.2)) ∧
    (∀ shapeId, shapeId ∈ latencies.map Prod.fst ↔
      shapeId ∈ shapes ∧ ∃ latency, nativeLatency raw shapeId = .ok (some latency)) ∧
    (get summary "all_pass" = .bool true → (latencies.map Prod.fst).Perm shapes)

theorem find?_summary (raw : Dict) (correct : Prop) (latencies : List (String × ℝ))
    (feedback : Feedback) :
    (get (summaryOf raw correct latencies feedback) "all_pass" = .bool true ↔ correct) ∧
      get (summaryOf raw correct latencies feedback) "latency_us_by_shape" =
        .obj (latencies.map fun item => (item.1, .float (.finite item.2))) := by
  simp [summaryOf, Json.get]

variable {feedback : Dict → List String → Except Error Feedback}

theorem summarizeRaw_covers {raw summary : Dict} {shapes : List String}
    (made : summarizeRaw feedback raw shapes = .ok summary) : Covers shapes raw summary := by
  unfold summarizeRaw at made
  obtain ⟨complete, evaluated, made⟩ := (bind_ok_iff _ _ _).mp made
  split at made
  · cases made
  next isComplete =>
  rw [Bool.not_eq_false] at isComplete
  subst isComplete
  obtain ⟨passed, -, made⟩ := (bind_ok_iff _ _ _).mp made
  obtain ⟨correctness, -, made⟩ := (bind_ok_iff _ _ _).mp made
  obtain ⟨pass, -, made⟩ := (bind_ok_iff _ _ _).mp made
  obtain ⟨performance, read, made⟩ := (bind_ok_iff _ _ _).mp made
  obtain ⟨latencies, timed, made⟩ := (bind_ok_iff _ _ _).mp made
  obtain ⟨details, -, made⟩ := (bind_ok_iff _ _ _).mp made
  cases made
  obtain ⟨tabulated, keys⟩ := latenciesOf_ok ⟨by simp, by simp⟩ timed
  have same : ∀ shapeId, nativeLatency raw shapeId =
      shapeLatency (orEmpty (get performance "shapes")) shapeId := by
    intro shapeId
    unfold nativeLatency
    rw [read]
    rfl
  obtain ⟨allPass, table⟩ := find?_summary raw
    (pass = true ∧ latencies.length = shapes.length ∧ shapes ≠ []) latencies details
  have covered : ∀ shapeId, shapeId ∈ latencies.map Prod.fst ↔
      shapeId ∈ shapes ∧ ∃ latency, nativeLatency raw shapeId = .ok (some latency) := by
    intro shapeId
    rw [keys, same]
    simp
  refine ⟨completeEvaluation_judged evaluated, latencies, table, tabulated.distinct, ?_, covered, ?_⟩
  · intro item member
    rw [same]
    exact tabulated.own item member
  · intro passes
    have correct := allPass.mp passes
    have within : latencies.map Prod.fst ⊆ shapes := fun shapeId member =>
      ((covered shapeId).mp member).1
    refine (tabulated.distinct.subperm within).perm_of_length_le ?_
    rw [List.length_map, correct.2.1]

/-! ### The runs of a payload -/

section Runs

variable {shapes : List String} {deviceFailure : Value → Prop}

/-- The run that the payload has of a run of the job, made for one step of the schedule. -/
structure Recorded (feedback : Dict → List String → Except Error Feedback) (shapes : List String)
    (raw : Value) (step : Step) (run : Dict) : Prop where
  executes : Executes run step
  source : ∃ row result summary, raw = .obj row ∧
    get row "revision" = .str step.revision.side ∧
    Equals (get row "repeat") (step.repetition % 2 : Nat) ∧ get row "result" = .obj result ∧
    summarizeRaw feedback result shapes = .ok summary ∧ get run "result" = .obj summary ∧
    Covers shapes result summary

theorem parseRow_ok {block index : Nat} {row : Value} {slot : Slot} {run : Dict}
    (binary : slot.repetition < 2)
    (parsed : parseRow feedback shapes block index row slot = .ok run) :
    Recorded feedback shapes row (slotStep block slot) run := by
  unfold parseRow at parsed
  split at parsed
  swap
  · cases parsed
  next row =>
  split at parsed
  · cases parsed
  next occupied =>
  rw [not_not] at occupied
  split at parsed
  swap
  · cases parsed
  next raw here =>
  obtain ⟨summary, made, parsed⟩ := (bind_ok_iff _ _ _).mp parsed
  cases parsed
  have parity : (block * 2 + slot.repetition) % 2 = slot.repetition := by omega
  refine ⟨⟨?_, ?_⟩, row, raw, summary, rfl, occupied.2.1, ?_, here, made, ?_, summarizeRaw_covers made⟩
  · simp [nativeRun, slotStep, Json.get]
  · simp [nativeRun, slotStep, Json.get, Equals]
  · change Equals _ ((block * 2 + slot.repetition) % 2 : Nat)
    rw [parity]
    exact occupied.2.2.2
  · simp [nativeRun, Json.get]

/-- Rows, steps and runs, position by position. -/
inductive Aligned (R : Value → Step → Dict → Prop) : List Value → List Step → List Dict → Prop
  | nil : Aligned R [] [] []
  | cons {raw : Value} {step : Step} {run : Dict} {raws : List Value} {steps : List Step}
      {runs : List Dict} : R raw step run → Aligned R raws steps runs →
      Aligned R (raw :: raws) (step :: steps) (run :: runs)

namespace Aligned

variable {R : Value → Step → Dict → Prop} {raws raws' : List Value} {steps steps' : List Step}
  {runs runs' : List Dict}

theorem append (first : Aligned R raws steps runs) (second : Aligned R raws' steps' runs') :
    Aligned R (raws ++ raws') (steps ++ steps') (runs ++ runs') := by
  induction first with
  | nil => exact second
  | cons here _ ih => exact .cons here ih

theorem lengths (aligned : Aligned R raws steps runs) :
    raws.length = steps.length ∧ runs.length = steps.length := by
  induction aligned with
  | nil => exact ⟨rfl, rfl⟩
  | cons _ _ ih => simp [ih]

theorem at_index (aligned : Aligned R raws steps runs) {i : Nat} {raw : Value} {step : Step}
    {run : Dict} (hasRaw : raws[i]? = some raw) (hasStep : steps[i]? = some step)
    (hasRun : runs[i]? = some run) : R raw step run := by
  induction aligned generalizing i with
  | nil => cases hasRaw
  | cons here _ ih =>
      cases i with
      | zero =>
          cases hasRaw
          cases hasStep
          cases hasRun
          exact here
      | succ i => exact ih hasRaw hasStep hasRun

end Aligned

theorem parseRows_ok {block index : Nat} {rows : List Value} {slots : List Slot} {runs : List Dict}
    (length : rows.length = slots.length) (binary : ∀ slot ∈ slots, slot.repetition < 2)
    (parsed : parseRows feedback shapes block index rows slots = .ok runs) :
    Aligned (Recorded feedback shapes) rows (slots.map (slotStep block)) runs := by
  induction rows generalizing index slots runs with
  | nil =>
      obtain rfl := List.length_eq_zero_iff.mp length.symm
      cases parsed
      exact .nil
  | cons row rows ih =>
      cases slots with
      | nil => cases length
      | cons slot slots =>
          obtain ⟨run, here, parsed⟩ := (bind_ok_iff _ _ _).mp parsed
          obtain ⟨later, rest, parsed⟩ := (bind_ok_iff _ _ _).mp parsed
          cases parsed
          rw [List.forall_mem_cons] at binary
          exact .cons (parseRow_ok binary.1 here) (ih (Nat.succ.inj length) binary.2 rest)

/-- The runs of the blocks of a job, one block after another. -/
def flatRuns : List Value → Option (List Value)
  | [] => some []
  | block :: blocks => do
      let rows ← (blockRuns block).toOption.join
      let later ← flatRuns blocks
      pure (rows ++ later)

def sdkRuns (job : Dict) : Option (List Value) :=
  match sdkResults job with
  | .ok (.arr blocks) => flatRuns blocks
  | _ => none

theorem parseBlocks_ok {start : Nat} {blocks : List Value} {runs : List Dict}
    (parsed : parseBlocks feedback shapes start blocks = .ok runs) :
    ∃ raws, flatRuns blocks = some raws ∧ Aligned (Recorded feedback shapes) raws
      ((List.range' start blocks.length).flatMap fun block => expectedSlots.map (slotStep block))
      runs := by
  induction blocks generalizing start runs with
  | nil =>
      cases parsed
      exact ⟨[], rfl, .nil⟩
  | cons block blocks ih =>
      obtain ⟨found, here, parsed⟩ := (bind_ok_iff _ _ _).mp parsed
      cases found with
      | none => cases parsed
      | some rows =>
          dsimp only at parsed
          split at parsed
          · cases parsed
          next four =>
          obtain ⟨first, parsedFirst, parsed⟩ := (bind_ok_iff _ _ _).mp parsed
          obtain ⟨later, parsedLater, parsed⟩ := (bind_ok_iff _ _ _).mp parsed
          cases parsed
          obtain ⟨raws, flat, aligned⟩ := ih parsedLater
          refine ⟨rows ++ raws, ?_, ?_⟩
          · unfold flatRuns
            rw [here, flat]
            rfl
          · rw [List.length_cons, List.range'_succ, List.flatMap_cons]
            have block : Aligned (Recorded feedback shapes) rows
                (expectedSlots.map (slotStep start)) first :=
              parseRows_ok (not_not.mp four) (by decide) parsedFirst
            exact block.append aligned

theorem validateBatch_returns {payload : Value} {schedule : List Step} {payload' : Dict}
    (valid : validateBatch deviceFailure payload schedule shapes = .ok payload') :
    payload = .obj payload' := by
  unfold validateBatch at valid
  split at valid
  swap
  · cases valid
  next d =>
  split at valid
  · cases valid
  split at valid
  · cases valid
  split at valid
  · cases valid
  split at valid
  · cases valid
  obtain ⟨-, -, same⟩ := (bind_ok_iff _ _ _).mp valid
  cases same
  rfl

theorem rowsOf_payload (runs : List Dict) : rowsOf (nativeAbbaPayload runs) = some runs := by
  have rows : ∀ runs : List Dict, (runs.map Json.obj).mapM dictOf = some runs := by
    intro runs
    induction runs with
    | nil => rfl
    | cons run rest ih => simp [ih, dictOf]
  unfold rowsOf
  simp only [nativeAbbaPayload, Json.get, find?_cons]
  exact rows runs

end Runs

/-- The runs of a parsed payload are the runs of the job, in their order, and the steps of the
schedule, in theirs; each covers the requested shapes. -/
theorem native_runs_are_the_schedule
    (feedback : Dict → List String → Except Error Feedback) (deviceFailure : Value → Prop)
    (job : Dict) (repeats : Nat) (shapes : List String) (payload : Dict)
    (parsed : parseNativeAbba feedback deviceFailure job repeats shapes = .ok payload) :
    ∃ (raws : List Value) (runs : List Dict), sdkRuns job = some raws ∧ rowsOf payload = some runs ∧
      raws.length = (verificationSchedule repeats).length ∧
      runs.length = (verificationSchedule repeats).length ∧
      ∀ (i : Nat) raw step run, raws[i]? = some raw → (verificationSchedule repeats)[i]? = some step →
        runs[i]? = some run → Recorded feedback shapes raw step run := by
  unfold parseNativeAbba at parsed
  obtain ⟨_, accepted, parsed⟩ := (bind_ok_iff _ _ _).mp parsed
  unfold validateAbbaRepeats at accepted
  split at accepted
  swap
  · cases accepted
  next bounds =>
  split at parsed
  · cases parsed
  obtain ⟨found, read, parsed⟩ := (bind_ok_iff _ _ _).mp parsed
  split at parsed
  swap
  · cases parsed
  next blocks =>
  split at parsed
  · cases parsed
  next count =>
  obtain ⟨runs, parsedRuns, valid⟩ := (bind_ok_iff _ _ _).mp parsed
  obtain ⟨raws, flat, aligned⟩ := parseBlocks_ok parsedRuns
  have order : (List.range' 0 blocks.length).flatMap
      (fun block => expectedSlots.map (slotStep block)) = verificationSchedule repeats := by
    rw [← List.range_eq_range', not_not.mp count, blocks_are_schedule _ (by omega)]
    congr 1
    omega
  rw [order] at aligned
  have same : payload = nativeAbbaPayload runs :=
    (Json.obj.inj (validateBatch_returns valid)).symm
  refine ⟨raws, runs, ?_, ?_, aligned.lengths.1, aligned.lengths.2, ?_⟩
  · unfold sdkRuns
    rw [read]
    exact flat
  · rw [same, rowsOf_payload]
  · intro i raw step run hasRaw hasStep hasRun
    exact aligned.at_index hasRaw hasStep hasRun

/-! One block whose four runs do not compile. -/

def uncompiled : Dict := [("passed", .obj [("compile", .obj [("status", .str "failed")])])]

def uncompiledRow (index : Nat) (slot : Slot) : Value :=
  .obj [("index", .int index), ("revision", .str slot.revision.side), ("label", .str slot.label),
    ("repeat", .int slot.repetition), ("result", .obj uncompiled)]

def uncompiledJob : Dict :=
  [("status", .str "succeeded"), ("result", .obj [("abba", .obj [("sdk_results", .arr
    [.obj [("abba", .obj [("runs", .arr
      [uncompiledRow 0 ⟨.incumbent, "A", 0⟩, uncompiledRow 1 ⟨.candidate, "B", 0⟩,
        uncompiledRow 2 ⟨.candidate, "B", 1⟩, uncompiledRow 3 ⟨.incumbent, "A", 1⟩])])]])])])]

def noFeedback : Dict → List String → Except Error Feedback := fun _ _ => pure ⟨[], [], none⟩

theorem uncompiled_summary : summarizeRaw noFeedback uncompiled ["0"] =
    .ok (summaryOf uncompiled False [] ⟨[], [], none⟩) := by
  simp [summarizeRaw, completeEvaluation, uncompiled, Json.get, completeShapes, completeShape,
    asDict, orEmpty, Truthy, stagesPass, compileFails, latenciesOf, shapeLatency, samplesOf,
    iterate, timings, noFeedback, bind, Except.bind, pure, Except.pure]

theorem uncompiled_row (index : Nat) (slot : Slot) :
    parseRow noFeedback ["0"] 0 index (uncompiledRow index slot) slot =
      .ok (nativeRun 0 slot (summaryOf uncompiled False [] ⟨[], [], none⟩)) := by
  simp [parseRow, uncompiledRow, Occupies, Json.get, Equals, uncompiled_summary, bind, Except.bind,
    pure, Except.pure]

theorem uncompiled_blocks (runs : List Value) (parsed : List Dict)
    (four : runs.length = 4)
    (here : parseRows noFeedback ["0"] 0 0 runs expectedSlots = .ok parsed) :
    parseBlocks noFeedback ["0"] 0 [.obj [("abba", .obj [("runs", .arr runs)])]] = .ok parsed := by
  simp [parseBlocks, blockRuns, asDict, orEmpty, Truthy, Json.get, four, here, bind, Except.bind,
    pure, Except.pure]

theorem uncompiled_valid : validateBatch (fun _ => False)
    (.obj (nativeAbbaPayload (expectedSlots.map fun slot =>
      nativeRun 0 slot (summaryOf uncompiled False [] ⟨[], [], none⟩)))) (verificationSchedule 2)
      ["0"] = .ok (nativeAbbaPayload (expectedSlots.map fun slot =>
      nativeRun 0 slot (summaryOf uncompiled False [] ⟨[], [], none⟩))) := by
  unfold validateBatch
  simp only [rowsOf_payload]
  rw [← blocks_are_schedule 1 (by decide)]
  simp [nativeAbbaPayload, Json.get, Equals, Truthy, Scheduled, expectedSlots, slotStep, Executes,
    nativeRun, validRow, summaryOf, bind, Except.bind, pure, Except.pure]

theorem uncompiled_parsed : ∃ payload,
    parseNativeAbba noFeedback (fun _ => False) uncompiledJob 2 ["0"] = .ok payload := by
  refine ⟨nativeAbbaPayload (expectedSlots.map fun slot =>
    nativeRun 0 slot (summaryOf uncompiled False [] ⟨[], [], none⟩)), ?_⟩
  have rows := uncompiled_blocks
    [uncompiledRow 0 ⟨.incumbent, "A", 0⟩, uncompiledRow 1 ⟨.candidate, "B", 0⟩,
      uncompiledRow 2 ⟨.candidate, "B", 1⟩, uncompiledRow 3 ⟨.incumbent, "A", 1⟩]
    (expectedSlots.map fun slot =>
      nativeRun 0 slot (summaryOf uncompiled False [] ⟨[], [], none⟩)) rfl (by
      simp [parseRows, expectedSlots, uncompiled_row, bind, Except.bind, pure, Except.pure])
  rw [← uncompiled_valid]
  simp [parseNativeAbba, validateAbbaRepeats, uncompiledJob, sdkResults, asDict, orEmpty, Truthy,
    Json.get, rows, bind, Except.bind, pure, Except.pure]

theorem uncompiled_runs_are_the_schedule :
    ∃ (raws : List Value) (runs : List Dict), sdkRuns uncompiledJob = some raws ∧
      raws.length = 4 ∧ runs.length = 4 := by
  obtain ⟨payload, parsed⟩ := uncompiled_parsed
  obtain ⟨raws, runs, flat, -, length, length', -⟩ :=
    native_runs_are_the_schedule noFeedback (fun _ => False) uncompiledJob 2 ["0"] payload parsed
  exact ⟨raws, runs, flat, length, length'⟩

end

end AtrexAgent.Evaluation
