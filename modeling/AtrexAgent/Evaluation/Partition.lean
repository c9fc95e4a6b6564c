import Mathlib
import AtrexAgent.Evaluation.Soundness

/-! Splitting the shapes of a verification into batches: the payload a batch of native
evaluations becomes, and when the merge of the batches is the payload of one batch. -/

namespace AtrexAgent.Evaluation

open AtrexAgent.Json

noncomputable section

open scoped Classical

/-! ### The worst of optional numbers -/

instance : Std.Commutative worstOption where
  comm a b := by cases a <;> cases b <;> simp [worstOption, max_comm]

instance : Std.Associative worstOption where
  assoc a b c := by cases a <;> cases b <;> cases c <;> simp [worstOption, max_assoc]

def worstList (values : List (Option ℝ)) : Option ℝ := values.foldr worstOption none

@[simp] theorem worstList_cons (value : Option ℝ) (rest : List (Option ℝ)) :
    worstList (value :: rest) = worstOption value (worstList rest) := rfl

theorem worstList_perm (values values' : List (Option ℝ)) (same : values.Perm values') :
    worstList values = worstList values' := same.foldr_eq none

theorem worstList_nonneg (values : List (Option ℝ))
    (nonneg : ∀ value ∈ values, ∀ x, value = some x → 0 ≤ x) :
    ∀ x, worstList values = some x → 0 ≤ x := by
  induction values with
  | nil =>
      intro x nothing
      cases nothing
  | cons value rest ih =>
      have later := ih fun value member => nonneg value (List.mem_cons_of_mem _ member)
      have here := nonneg value List.mem_cons_self
      intro x worst
      rw [worstList_cons] at worst
      cases first : value with
      | none =>
          rw [first] at worst
          exact later x worst
      | some y =>
          cases second : worstList rest with
          | none =>
              rw [first, second] at worst
              cases worst
              exact here x first
          | some z =>
              rw [first, second] at worst
              cases worst
              exact le_max_of_le_left (here y first)

theorem worstAll_eq (names : List String) (values : List Value) :
    worstAll names values = worstList (values.map (worst names)) := by
  induction values with
  | nil => simp [worstAll, worstList]
  | cons value rest ih => rw [worstAll, ih, List.map_cons, worstList_cons]

/-! ### Native evidence -/

inductive Metric where
  | relErr | maxAbsErr | maxRelErr
  deriving DecidableEq, Repr

/-- What a run of the evaluator has of one shape. -/
structure ShapeEvidence where
  passed : Bool
  latency : Option {x : ℝ // 0 < x}
  error : Metric → Option {x : ℝ // 0 ≤ x}

def ShapeEvidence.latencyUs (shape : ShapeEvidence) : Option ℝ := shape.latency.map Subtype.val

/-- The evidence of one run, by shape. -/
abbrev RunEvidence := String → ShapeEvidence

def Passing (run : RunEvidence) (shapes : List String) : Prop :=
  shapes ≠ [] ∧ ∀ shapeId ∈ shapes, (run shapeId).passed = true ∧ (run shapeId).latency.isSome

def measuredLatencies (run : RunEvidence) (shapes : List String) : List (String × ℝ) :=
  shapes.filterMap fun shapeId => (run shapeId).latencyUs.map (Prod.mk shapeId)

/-- `correctness_summary` of the evidence of a run: one metric. -/
def worstIn (run : RunEvidence) (metric : Metric) (shapes : List String) : Option ℝ :=
  worstList (shapes.map fun shapeId => ((run shapeId).error metric).map Subtype.val)

def correctnessValue (run : RunEvidence) (shapes : List String) : Value :=
  .obj [("status", .str (if Passing run shapes then "PASS" else "FAIL")),
    ("rel_err", optional (worstIn run .relErr shapes)),
    ("max_abs_err", optional (worstIn run .maxAbsErr shapes)),
    ("max_rel_err", optional (worstIn run .maxRelErr shapes))]

/-- `_summarize`, without its feedback. -/
def summarize (run : RunEvidence) (shapes : List String) : Dict :=
  [("all_pass", .bool (Passing run shapes)),
    ("latency_us_by_shape", .obj ((measuredLatencies run shapes).map fun item =>
      (item.1, .float (.finite item.2)))),
    ("latency_us_geomean", if Passing run shapes then
      .float (.finite (expMean ((measuredLatencies run shapes).map Prod.snd))) else .null),
    ("error", if Passing run shapes then .null
      else .str "compile, correctness, or performance did not pass"),
    ("correctness", correctnessValue run shapes)]

def nativeRow (step : Step) (run : RunEvidence) (shapes : List String) : Dict :=
  [("revision", .str step.revision.name), ("repeat", .int step.repetition),
    ("exit_code", .int 0), ("result", .obj (summarize run shapes))]

/-- `parse_native_abba` of a job that ran the schedule on these shapes. -/
def nativePayload (evidence : Step → RunEvidence) (schedule : List Step)
    (shapes : List String) : Dict :=
  [("schema_version", .int 1), ("transport", .str "agate_native_eval_abba"),
    ("runs", .arr (schedule.map fun step => .obj (nativeRow step (evidence step) shapes))),
    ("error", .null)]

theorem nativeRow_executes (step : Step) (run : RunEvidence) (shapes : List String) :
    Executes (nativeRow step run shapes) step := by
  simp [Executes, nativeRow, Equals]

theorem nativeRows_scheduled (evidence : Step → RunEvidence) (schedule : List Step)
    (shapes : List String) :
    Scheduled (schedule.map fun step => nativeRow step (evidence step) shapes) schedule := by
  unfold Scheduled
  rw [List.forall₂_map_left_iff, List.forall₂_same]
  intro step _
  exact nativeRow_executes step (evidence step) shapes

theorem nativePayload_rows (evidence : Step → RunEvidence) (schedule : List Step)
    (shapes : List String) : rowsOf (nativePayload evidence schedule shapes) =
      some (schedule.map fun step => nativeRow step (evidence step) shapes) := by
  have runs : get (nativePayload evidence schedule shapes) "runs" =
      .arr (schedule.map fun step => .obj (nativeRow step (evidence step) shapes)) := by
    simp [nativePayload]
  unfold rowsOf
  rw [runs]
  dsimp only
  rw [mapM_some_iff, List.forall₂_map_left_iff, List.forall₂_map_right_iff, List.forall₂_same]
  intro step _
  rfl

theorem nativePayload_batchRows (evidence : Step → RunEvidence) (schedule : List Step)
    (shapes : List String) : batchRows (nativePayload evidence schedule shapes) schedule =
      .ok (schedule.map fun step =>
        (nativeRow step (evidence step) shapes, summarize (evidence step) shapes)) := by
  have runs : get (nativePayload evidence schedule shapes) "runs" =
      .arr (schedule.map fun step => .obj (nativeRow step (evidence step) shapes)) := by
    simp [nativePayload]
  have complete : ¬ (¬ Equals (get (nativePayload evidence schedule shapes) "schema_version") 1 ∨
      Truthy (get (nativePayload evidence schedule shapes) "error") ∨
      (schedule.map fun step =>
        (.obj (nativeRow step (evidence step) shapes) : Value)).length ≠ schedule.length) := by
    simp [nativePayload, Equals, Truthy]
  have listed : (schedule.map fun step => (.obj (nativeRow step (evidence step) shapes) : Value)).mapM
      rowWithResult = some (schedule.map fun step =>
        (nativeRow step (evidence step) shapes, summarize (evidence step) shapes)) := by
    rw [mapM_some_iff, List.forall₂_map_left_iff, List.forall₂_map_right_iff, List.forall₂_same]
    intro step _
    simp [rowWithResult, dictOf, nativeRow]
  have scheduled : Scheduled ((schedule.map fun step =>
      (nativeRow step (evidence step) shapes, summarize (evidence step) shapes)).map Prod.fst)
      schedule := by
    rw [List.map_map]
    exact nativeRows_scheduled evidence schedule shapes
  unfold batchRows
  rw [runs]
  dsimp only
  rw [if_neg complete, listed]
  dsimp only
  rw [if_pos scheduled]
  rfl

theorem mem_measuredLatencies (run : RunEvidence) (shapes : List String) (item : String × ℝ) :
    item ∈ measuredLatencies run shapes ↔
      item.1 ∈ shapes ∧ (run item.1).latencyUs = some item.2 := by
  unfold measuredLatencies
  rw [List.mem_filterMap]
  constructor
  · rintro ⟨shapeId, inside, here⟩
    obtain ⟨x, latency, rfl⟩ := Option.map_eq_some_iff.mp here
    exact ⟨inside, latency⟩
  · rintro ⟨inside, latency⟩
    exact ⟨item.1, inside, by rw [latency]; rfl⟩

theorem validRow_native (step : Step) (run : RunEvidence) (shapes : List String) :
    validRow (nativeRow step run shapes) shapes = .ok () := by
  have result : get (nativeRow step run shapes) "result" = .obj (summarize run shapes) := by
    simp [nativeRow]
  have code : get (nativeRow step run shapes) "exit_code" = .int 0 := by simp [nativeRow]
  have allPass : get (summarize run shapes) "all_pass" = .bool (Passing run shapes) := by
    simp [summarize]
  have byShape : get (summarize run shapes) "latency_us_by_shape" =
      .obj ((measuredLatencies run shapes).map fun item => (item.1, .float (.finite item.2))) := by
    simp [summarize]
  unfold validRow
  rw [result]
  dsimp only
  rw [allPass]
  dsimp only
  rw [code]
  dsimp only
  rw [if_neg (by decide)]
  by_cases passing : Passing run shapes
  · have keys : ∀ key, key ∈ ((measuredLatencies run shapes).map fun item =>
        (item.1, (.float (.finite item.2) : Value))).map Prod.fst ↔ key ∈ shapes := by
      intro key
      rw [List.map_map, List.mem_map]
      constructor
      · rintro ⟨item, measured, rfl⟩
        exact ((mem_measuredLatencies run shapes item).mp measured).1
      · intro member
        obtain ⟨x, latency⟩ := Option.isSome_iff_exists.mp (passing.2 key member).2
        refine ⟨(key, x.val), (mem_measuredLatencies run shapes _).mpr ⟨member, ?_⟩, rfl⟩
        rw [ShapeEvidence.latencyUs, latency]
        rfl
    have positive : ∀ item ∈ measuredLatencies run shapes, 0 < item.2 := by
      intro item measured
      obtain ⟨_, latency⟩ := (mem_measuredLatencies run shapes item).mp measured
      obtain ⟨x, _, same⟩ := Option.map_eq_some_iff.mp latency
      rw [← same]
      exact x.property
    have geomean : get (summarize run shapes) "latency_us_geomean" =
        .float (.finite (expMean ((measuredLatencies run shapes).map Prod.snd))) := by
      simp [summarize, passing]
    rw [if_neg (by simp [passing]), byShape]
    dsimp only
    rw [if_neg (by simpa using keys), if_pos]
    · rfl
    · rw [geomean]
      intro value member
      rcases List.mem_cons.mp member with rfl | later
      · simp [positiveNumber, number, Number.positive, expMean, Real.exp_pos]
      · obtain ⟨item, listed, rfl⟩ := List.mem_map.mp later
        obtain ⟨item, measured, rfl⟩ := List.mem_map.mp listed
        simp [positiveNumber, number, Number.positive, positive item measured]
  · rw [if_pos (by simp [passing])]
    rfl

/-- The payload of a batch validates. -/
theorem nativePayload_valid (deviceFailure : Value → Prop) (evidence : Step → RunEvidence)
    (schedule : List Step) (shapes : List String)
    (available : ¬ deviceFailure (.obj (nativePayload evidence schedule shapes))) :
    validateBatch deviceFailure (.obj (nativePayload evidence schedule shapes)) schedule shapes =
      .ok (nativePayload evidence schedule shapes) := by
  have complete : ¬ (¬ Equals (get (nativePayload evidence schedule shapes) "schema_version") 1 ∨
      Truthy (get (nativePayload evidence schedule shapes) "error")) := by
    simp [nativePayload, Equals, Truthy]
  have rows : (schedule.map fun step => nativeRow step (evidence step) shapes).forM
      (fun row => validRow row shapes) = .ok () := by
    rw [forM_ok_iff]
    intro row member
    obtain ⟨step, _, rfl⟩ := List.mem_map.mp member
    exact validRow_native step (evidence step) shapes
  unfold validateBatch
  dsimp only
  rw [if_neg complete, if_neg available, nativePayload_rows]
  dsimp only
  rw [if_neg (not_not.mpr (nativeRows_scheduled evidence schedule shapes)), rows]
  rfl

/-! ### The merge of native results -/

section Merge

variable (readFloat : String → Option Number)

/-- The latencies the merge collects, batch by batch. -/
def nativeLatencies (run : RunEvidence) (batches : List (List String)) :
    List (String × Number) :=
  (batches.map fun batch => (measuredLatencies run batch).map fun item =>
    (item.1, Number.finite item.2)).flatten

theorem latencyItems_summarize (run : RunEvidence) (shapes : List String) :
    latencyItems (summarize run shapes) = .ok ((measuredLatencies run shapes).map fun item =>
      (item.1, .float (.finite item.2))) := by
  have shown : get (summarize run shapes) "latency_us_by_shape" =
      .obj ((measuredLatencies run shapes).map fun item => (item.1, .float (.finite item.2))) := by
    simp [summarize]
  unfold latencyItems
  rw [shown]
  split
  · rfl
  · rename_i empty
    have none_measured : (measuredLatencies run shapes).map (fun item =>
        (item.1, (.float (.finite item.2) : Value))) = [] := by
      simpa [Truthy] using empty
    rw [none_measured]
    rfl

theorem latencyByShape_native (run : RunEvidence) (batches : List (List String)) :
    latencyByShape readFloat (batches.map (summarize run)) =
      .ok (nativeLatencies run batches) := by
  unfold latencyByShape
  rw [bind_ok_iff]
  refine ⟨batches.map fun batch => (measuredLatencies run batch).map fun item =>
    (item.1, .float (.finite item.2)), ?_, ?_⟩
  · rw [mapM_ok_iff, List.forall₂_map_left_iff, List.forall₂_map_right_iff, List.forall₂_same]
    intro batch _
    exact latencyItems_summarize run batch
  · have floats : nativeLatencies run batches =
        ((batches.map fun batch => measuredLatencies run batch).flatten).map fun item =>
          (item.1, Number.finite item.2) := by
      simp [nativeLatencies, List.map_flatten, Function.comp_def]
    have values : (batches.map fun batch => (measuredLatencies run batch).map fun item =>
        (item.1, (.float (.finite item.2) : Value))).flatten =
          ((batches.map fun batch => measuredLatencies run batch).flatten).map fun item =>
            (item.1, .float (.finite item.2)) := by
      simp [List.map_flatten, Function.comp_def]
    rw [floats, values, mapM_ok_iff, List.forall₂_map_left_iff, List.forall₂_map_right_iff,
      List.forall₂_same]
    intro item _
    rfl

theorem mem_nativeLatencies (run : RunEvidence) (batches : List (List String))
    (item : String × Number) :
    item ∈ nativeLatencies run batches ↔ item.1 ∈ batches.flatten ∧
      (run item.1).latencyUs.map Number.finite = some item.2 := by
  unfold nativeLatencies
  rw [List.mem_flatten, List.mem_flatten]
  constructor
  · rintro ⟨_, listed, inside⟩
    obtain ⟨batch, given, rfl⟩ := List.mem_map.mp listed
    obtain ⟨entry, measured, rfl⟩ := List.mem_map.mp inside
    obtain ⟨here, latency⟩ := (mem_measuredLatencies run batch entry).mp measured
    exact ⟨⟨batch, given, here⟩, by rw [latency]; rfl⟩
  · rintro ⟨⟨batch, given, here⟩, latency⟩
    obtain ⟨x, latency, same⟩ := Option.map_eq_some_iff.mp latency
    refine ⟨_, List.mem_map.mpr ⟨batch, given, rfl⟩, List.mem_map.mpr ⟨(item.1, x), ?_, ?_⟩⟩
    · exact (mem_measuredLatencies run batch (item.1, x)).mpr ⟨here, latency⟩
    · rw [same]

theorem lookup_of_function (latencies : List (String × Number)) (f : String → Option Number)
    (each : ∀ item ∈ latencies, f item.1 = some item.2) (shapeId : String) :
    lookupLatency latencies shapeId =
      if ∃ x, (shapeId, x) ∈ latencies then f shapeId else none := by
  cases found : lookupLatency latencies shapeId with
  | some x =>
      have member := mem_of_lookup latencies shapeId x found
      rw [if_pos ⟨x, member⟩, each _ member]
  | none =>
      rw [if_neg]
      rintro ⟨x, member⟩
      have absent : latencies.reverse.find? (fun item => item.1 = shapeId) = none := by
        simpa [lookupLatency] using found
      rw [List.find?_eq_none] at absent
      exact absent (shapeId, x) (List.mem_reverse.mpr member) (by simp)

theorem lookup_native (run : RunEvidence) (batches : List (List String)) (shapeId : String) :
    lookupLatency (nativeLatencies run batches) shapeId =
      if shapeId ∈ batches.flatten then (run shapeId).latencyUs.map Number.finite else none := by
  rw [lookup_of_function _ (fun shapeId => (run shapeId).latencyUs.map Number.finite)
    fun item member => ((mem_nativeLatencies run batches item).mp member).2]
  by_cases inside : shapeId ∈ batches.flatten
  · rw [if_pos inside]
    split
    · rfl
    · rename_i absent
      cases latency : (run shapeId).latencyUs with
      | none => rfl
      | some x =>
          exact absurd ⟨_, (mem_nativeLatencies run batches (shapeId, .finite x)).mpr
            ⟨inside, by rw [latency]; rfl⟩⟩ absent
  · rw [if_neg inside, if_neg]
    rintro ⟨x, member⟩
    exact inside ((mem_nativeLatencies run batches _).mp member).1

theorem worstOf_zero (key : String) (results : List Dict) (some_result : results ≠ [])
    (absent : ∀ result ∈ results, ¬ Truthy (get result key)) :
    worstOf readFloat key results = .ok (.finite 0) := by
  unfold worstOf
  rw [bind_ok_iff]
  refine ⟨results.map fun _ => .finite 0, ?_, ?_⟩
  · rw [mapM_ok_iff, List.forall₂_map_right_iff, List.forall₂_same]
    intro result member
    rw [if_neg (absent result member)]
    rfl
  · cases results with
    | nil => exact absurd rfl some_result
    | cons first rest =>
        have zeros : ∀ n, (List.replicate n (Number.finite 0)).foldl Number.max (.finite 0) =
            .finite 0 := by
          intro n
          induction n with
          | zero => rfl
          | succ n ih =>
              rw [List.replicate_succ, List.foldl_cons]
              have keep : Number.max (.finite 0) (.finite 0) = .finite 0 := by
                simp [Number.max]
              rw [keep, ih]
        simp only [List.map_cons, List.map_const', zeros]
        rfl

theorem summarize_no_error (run : RunEvidence) (shapes : List String) (key : String)
    (member : key ∈ ["max_abs_err", "max_rel_err"]) : get (summarize run shapes) key = .null := by
  simp only [List.mem_cons, List.not_mem_nil, or_false] at member
  rcases member with rfl | rfl <;> simp [summarize, Json.get]

/-- The rows of one step, a batch each, with their results. -/
def nativeRows (step : Step) (run : RunEvidence) (batches : List (List String)) :
    List (Dict × Dict) :=
  batches.map fun batch => (nativeRow step run batch, summarize run batch)

theorem nativeRows_results (step : Step) (run : RunEvidence) (batches : List (List String)) :
    (nativeRows step run batches).map Prod.snd = batches.map (summarize run) := by
  simp [nativeRows, Function.comp_def]

theorem allExitZero_native (step : Step) (run : RunEvidence) (batches : List (List String)) :
    allExitZero (nativeRows step run batches) = .ok true := by
  induction batches with
  | nil => rfl
  | cons batch rest ih =>
      have code : find? (nativeRow step run batch) "exit_code" = some (.int 0) := by
        simp [nativeRow]
      unfold nativeRows at ih ⊢
      rw [List.map_cons, allExitZero]
      dsimp only
      rw [code]
      simp [Equals, ih]

theorem runExitCode_native (step : Step) (run : RunEvidence) (batches : List (List String))
    (merged : Dict) (shapeIds : List String) :
    runExitCode merged (nativeRows step run batches) shapeIds =
      .ok (if RunPasses merged (nativeRows step run batches) shapeIds then 0 else 1) := by
  unfold runExitCode
  split
  · rw [allExitZero_native]
    rfl
  · rfl

theorem mergeBatchResults_native (run : RunEvidence) (batches : List (List String))
    (shapeIds : List String) (some_batch : batches ≠ []) :
    ∃ merged, mergeBatchResults readFloat (batches.map (summarize run)) shapeIds = .ok merged := by
  have last : (batches.map (summarize run)).getLast? =
      some (summarize run (batches.getLast some_batch)) := by
    rw [List.getLast?_map, List.getLast?_eq_some_getLast some_batch]
    rfl
  have some_result : batches.map (summarize run) ≠ [] := by simpa using some_batch
  have zero : ∀ key ∈ ["max_abs_err", "max_rel_err"],
      worstOf readFloat key (batches.map (summarize run)) = .ok (.finite 0) := by
    intro key member
    apply worstOf_zero readFloat key _ some_result
    intro result given
    obtain ⟨batch, _, rfl⟩ := List.mem_map.mp given
    rw [summarize_no_error run batch key member]
    exact id
  unfold mergeBatchResults
  rw [latencyByShape_native, last]
  dsimp only
  rw [zero "max_abs_err" (by simp), zero "max_rel_err" (by simp)]
  exact ⟨_, rfl⟩

theorem mergeRun_native (step : Step) (run : RunEvidence) (batches : List (List String))
    (shapeIds : List String) (some_batch : batches ≠ []) :
    ∃ value, mergeRun readFloat step (nativeRows step run batches) shapeIds = .ok value := by
  obtain ⟨merged, done⟩ := mergeBatchResults_native readFloat run batches shapeIds some_batch
  unfold mergeRun
  rw [nativeRows_results, done]
  refine ⟨_, (bind_ok_iff _ _ _).mpr ⟨merged, rfl, (bind_ok_iff _ _ _).mpr ⟨_,
    runExitCode_native step run batches merged shapeIds, rfl⟩⟩⟩

/-- A splitting of the shapes into batches. -/
structure Split (batches : List (List String)) (shapeIds : List String) : Prop where
  shapes : shapeIds ≠ []
  nodup : shapeIds.Nodup
  nonempty : ∀ batch ∈ batches, batch ≠ []
  covers : batches.flatten.Perm shapeIds

theorem Split.ne_nil {batches : List (List String)} {shapeIds : List String}
    (split : Split batches shapeIds) : batches ≠ [] := by
  rintro rfl
  exact split.shapes (List.nil_perm.mp split.covers)

theorem Split.perm {batches batches' : List (List String)} {shapeIds : List String}
    (split : Split batches shapeIds) (same : batches'.Perm batches) : Split batches' shapeIds where
  shapes := split.shapes
  nodup := split.nodup
  nonempty := fun batch member => split.nonempty batch (same.mem_iff.mp member)
  covers := same.flatten.trans split.covers

theorem passing_batches (run : RunEvidence) (batches : List (List String))
    (shapeIds : List String) (split : Split batches shapeIds) :
    (∀ batch ∈ batches, Passing run batch) ↔ Passing run shapeIds := by
  constructor
  · intro each
    refine ⟨split.shapes, ?_⟩
    intro shapeId member
    obtain ⟨batch, given, inside⟩ := List.mem_flatten.mp (split.covers.mem_iff.mpr member)
    exact (each batch given).2 shapeId inside
  · intro passing batch given
    refine ⟨split.nonempty batch given, ?_⟩
    intro shapeId inside
    exact passing.2 shapeId
      (split.covers.mem_iff.mp (List.mem_flatten.mpr ⟨batch, given, inside⟩))

theorem native_runPasses (step : Step) (run : RunEvidence) (batches : List (List String))
    (shapeIds : List String) (merged : Dict) (split : Split batches shapeIds)
    (byShape : get merged "latency_us_by_shape" = .obj (latencyDict (nativeLatencies run batches))) :
    RunPasses merged (nativeRows step run batches) shapeIds ↔ Passing run shapeIds := by
  rw [runPasses_iff merged _ shapeIds _ byShape]
  have verdicts : (∀ row ∈ nativeRows step run batches, get row.2 "all_pass" = .bool true) ↔
      ∀ batch ∈ batches, Passing run batch := by
    simp [nativeRows, summarize]
  rw [verdicts, passing_batches run batches shapeIds split]
  constructor
  · exact fun here => here.2
  · intro passing
    refine ⟨?_, passing⟩
    intro key
    rw [lookup_native]
    by_cases member : key ∈ shapeIds
    · have latency := (passing.2 key member).2
      rw [if_pos (split.covers.mem_iff.mpr member)]
      simp [member, ShapeEvidence.latencyUs, Option.ne_none_iff_isSome, latency]
    · rw [if_neg fun inside => member (split.covers.mem_iff.mp inside)]
      simp [member]

/-- The GeoMean of the merge is the one of the whole shape set. -/
theorem native_geomean (run : RunEvidence) (batches : List (List String))
    (shapeIds : List String) (split : Split batches shapeIds) (passing : Passing run shapeIds) :
    ¬ Missing (nativeLatencies run batches) shapeIds ∧
      geomean (foundLatencies (nativeLatencies run batches) shapeIds) =
        some (expMean ((measuredLatencies run shapeIds).map Prod.snd)) := by
  have found : ∀ shapeId ∈ shapeIds, ∃ x, 0 < x ∧ (run shapeId).latencyUs = some x ∧
      lookupLatency (nativeLatencies run batches) shapeId = some (.finite x) := by
    intro shapeId member
    obtain ⟨x, latency⟩ := Option.isSome_iff_exists.mp (passing.2 shapeId member).2
    refine ⟨x.val, x.property, ?_, ?_⟩
    · rw [ShapeEvidence.latencyUs, latency]
      rfl
    · rw [lookup_native, if_pos (split.covers.mem_iff.mpr member), ShapeEvidence.latencyUs, latency]
      rfl
  constructor
  · rintro ⟨shapeId, member, absent⟩
    obtain ⟨x, _, _, here⟩ := found shapeId member
    rw [absent] at here
    cases here
  · have listed : foundLatencies (nativeLatencies run batches) shapeIds =
        ((measuredLatencies run shapeIds).map Prod.snd).map .finite := by
      unfold foundLatencies measuredLatencies
      rw [List.map_map, List.map_filterMap]
      apply List.filterMap_congr
      intro shapeId member
      obtain ⟨x, _, latency, here⟩ := found shapeId member
      rw [here, latency]
      rfl
    have positive : ∀ x ∈ (measuredLatencies run shapeIds).map Prod.snd, 0 < x := by
      intro x member
      obtain ⟨item, measured, rfl⟩ := List.mem_map.mp member
      obtain ⟨inside, latency⟩ := (mem_measuredLatencies run shapeIds item).mp measured
      obtain ⟨y, above, same, _⟩ := found item.1 inside
      rw [latency] at same
      cases same
      exact above
    have some_latency : (measuredLatencies run shapeIds).map Prod.snd ≠ [] := by
      obtain ⟨shapeId, member⟩ := List.exists_mem_of_ne_nil shapeIds split.shapes
      obtain ⟨x, _, latency, _⟩ := found shapeId member
      exact List.ne_nil_of_mem (List.mem_map_of_mem
        ((mem_measuredLatencies run shapeIds (shapeId, x)).mpr ⟨member, latency⟩))
    rw [listed, geomean_of_positive _ some_latency positive]

/-- A merged run of native batches beside the run of one batch of all shapes. -/
theorem native_run (step : Step) (run : RunEvidence) (batches : List (List String))
    (shapeIds : List String) (row result merged : Dict) (latencies : List (String × Number))
    (split : Split batches shapeIds)
    (facts : MergedRun readFloat step (nativeRows step run batches) shapeIds row result merged
      latencies) :
    get row "exit_code" = .int (if Passing run shapeIds then 0 else 1) ∧
    get result "all_pass" = .bool (Passing run shapeIds) ∧
    (Passing run shapeIds → get result "latency_us_geomean" =
      .float (.finite (expMean ((measuredLatencies run shapeIds).map Prod.snd)))) ∧
    (∃ last, batches.getLast? = some last ∧
      get result "correctness" = correctnessValue run last) ∧
    ∀ key ∈ ["max_abs_err", "max_rel_err"], get result key = .float (.finite 0) := by
  have collected := facts.merges.collected
  rw [nativeRows_results, latencyByShape_native] at collected
  cases collected
  have passes := native_runPasses step run batches shapeIds merged split facts.merges.byShape
  refine ⟨?_, ?_, ?_, ?_, ?_⟩
  · obtain ⟨code, exits, shown⟩ := facts.exitCode
    rw [runExitCode_native] at exits
    cases exits
    rw [shown]
    simp only [passes]
  · rw [facts.allPass]
    simp only [passes]
  · intro passing
    obtain ⟨complete, mean⟩ := native_geomean run batches shapeIds split passing
    rw [facts.other _ (by decide), facts.merges.geomean, if_neg complete, mean]
    rfl
  · obtain ⟨last, final, shown⟩ := facts.merges.correctness
    rw [nativeRows_results, List.getLast?_map] at final
    obtain ⟨batch, here, rfl⟩ := Option.map_eq_some_iff.mp final
    refine ⟨batch, here, ?_⟩
    rw [facts.other _ (by decide), shown]
    simp [summarize]
  · intro key member
    have zero : worstOf readFloat key (batches.map (summarize run)) = .ok (.finite 0) := by
      apply worstOf_zero readFloat key _ (by simpa using split.ne_nil)
      intro result given
      obtain ⟨batch, _, rfl⟩ := List.mem_map.mp given
      rw [summarize_no_error run batch key member]
      exact id
    obtain ⟨x, absolute, shownAbs⟩ := facts.merges.maxAbs
    obtain ⟨y, relative, shownRel⟩ := facts.merges.maxRel
    rw [nativeRows_results] at absolute relative
    simp only [List.mem_cons, List.not_mem_nil, or_false] at member
    rcases member with rfl | rfl
    · rw [zero] at absolute
      cases absolute
      rw [facts.other _ (by decide), shownAbs]
    · rw [zero] at relative
      cases relative
      rw [facts.other _ (by decide), shownRel]

theorem native_rows_at (evidence : Step → RunEvidence) (schedule : List Step)
    (batches : List (List String)) (item : Step × Nat) (member : item ∈ schedule.zipIdx) :
    (batches.map fun batch => schedule.map fun step =>
        (nativeRow step (evidence step) batch, summarize (evidence step) batch)).filterMap
      (fun rows => rows[item.2]?) = nativeRows item.1 (evidence item.1) batches := by
  have here : schedule[item.2]? = some item.1 := List.mk_mem_zipIdx_iff_getElem?.mp member
  unfold nativeRows
  rw [List.filterMap_map, ← List.filterMap_eq_map]
  apply List.filterMap_congr
  intro batch _
  simp [here]

/-- The merge of several native batches: its rows, step by step. -/
theorem merge_native (evidence : Step → RunEvidence) (schedule : List Step)
    (batches : List (List String)) (shapeIds : List String) (split : Split batches shapeIds)
    (several : ∀ batch, batches ≠ [batch]) :
    ∃ merged rows,
      mergeAbbaBatchPayloads readFloat (batches.map (nativePayload evidence schedule)) schedule
        shapeIds = .ok merged ∧ rowsOf merged = some rows ∧
      List.Forall₂ (fun step row => ∃ result parts latencies,
        MergedRun readFloat step (nativeRows step (evidence step) batches) shapeIds row result
          parts latencies) schedule rows := by
  have read : (batches.map (nativePayload evidence schedule)).mapM
      (fun payload => batchRows payload schedule) =
        .ok (batches.map fun batch => schedule.map fun step =>
          (nativeRow step (evidence step) batch, summarize (evidence step) batch)) := by
    rw [mapM_ok_iff, List.forall₂_map_left_iff, List.forall₂_map_right_iff, List.forall₂_same]
    intro batch _
    exact nativePayload_batchRows evidence schedule batch
  have several' : ∀ payload, batches.map (nativePayload evidence schedule) ≠ [payload] := by
    intro payload single
    obtain ⟨batch, rest, rfl, _, nothing⟩ := List.map_eq_cons_iff.mp single
    rw [List.map_eq_nil_iff] at nothing
    subst nothing
    exact several batch rfl
  obtain ⟨runs, done⟩ := mapM_of_ok (fun item => mergeRun readFloat item.1
      ((batches.map fun batch => schedule.map fun step =>
        (nativeRow step (evidence step) batch, summarize (evidence step) batch)).filterMap
          fun rows => rows[item.2]?) shapeIds) schedule.zipIdx (by
    intro item member
    rw [native_rows_at evidence schedule batches item member]
    exact mergeRun_native readFloat item.1 (evidence item.1) batches shapeIds split.ne_nil)
  have total : ∃ merged, mergeAbbaBatchPayloads readFloat
      (batches.map (nativePayload evidence schedule)) schedule shapeIds = .ok merged := by
    unfold mergeAbbaBatchPayloads
    split
    · rename_i payload single
      exact absurd single (several' payload)
    · rw [read]
      refine ⟨_, (bind_ok_iff _ _ _).mpr ⟨_, rfl, (bind_ok_iff _ _ _).mpr ⟨runs, done, rfl⟩⟩⟩
  obtain ⟨merged, total⟩ := total
  obtain ⟨pairs, rows, entered, here, _, each⟩ := mergeAbba_ok _ schedule shapeIds merged several'
    total
  rw [← mapM_ok_iff, read] at entered
  cases entered
  refine ⟨merged, rows, total, here, ?_⟩
  rw [← List.zipIdx_map_fst 0 schedule, List.forall₂_map_left_iff]
  apply forall₂_imp_mem each
  rintro item member row ⟨result, parts, latencies, facts⟩
  rw [native_rows_at evidence schedule batches item member] at facts
  exact ⟨result, parts, latencies, facts⟩

end Merge

/-! ### The sides -/

section Sides

variable (compare : Value → Value → Except Error Bool)

def sideWorst (evidence : Step → RunEvidence) (schedule : List Step) (side : Revision)
    (metric : Metric) (shapes : List String) : Option ℝ :=
  worstList ((schedule.filter fun step => step.revision = side).map fun step =>
    worstIn (evidence step) metric shapes)

/-- A row of a step that shows the correctness of its evidence on `shapes`. -/
structure Shows (step : Step) (run : RunEvidence) (shapes : List String) (row : Dict) : Prop where
  executes : Executes row step
  result : ∃ result, get row "result" = .obj result ∧
    get result "correctness" = correctnessValue run shapes ∧
    ∀ key ∈ ["max_abs_err", "max_rel_err"], ¬ Truthy (get result key)

theorem worstIn_nonneg (run : RunEvidence) (metric : Metric) (shapes : List String) :
    ∀ x, worstIn run metric shapes = some x → 0 ≤ x := by
  apply worstList_nonneg
  intro value member x same
  obtain ⟨shapeId, _, rfl⟩ := List.mem_map.mp member
  obtain ⟨y, _, rfl⟩ := Option.map_eq_some_iff.mp same
  exact y.property

theorem worst_of_correctness (names : List String) (result correctness : Dict)
    (shown : get result "correctness" = .obj correctness) :
    worst names (.obj result) = worst names (.obj correctness) := by
  have inner : ∀ items : Dict, find? items "correctness" = some (.obj correctness) →
      worstCorrectness names items = worst names (.obj correctness) := by
    intro items found
    induction items with
    | nil => cases found
    | cons item rest ih =>
        rw [find?_cons] at found
        rw [worstCorrectness]
        split
        · rename_i same
          rw [if_pos same] at found
          rw [Option.some.inj found]
        · rename_i other
          rw [if_neg other] at found
          exact ih found
  have found : find? result "correctness" = some (.obj correctness) := by
    unfold Json.get at shown
    cases here : find? result "correctness" with
    | none =>
        rw [here] at shown
        cases shown
    | some value =>
        rw [here] at shown
        exact congrArg some shown
  have present : (result.any fun item => item.1 = "correctness") = true := by
    rw [List.any_eq_true]
    exact ⟨_, mem_of_find result _ _ found, by simp⟩
  rw [worst, if_pos present, inner result found]

theorem worstNumber_optional (names : List String) (key : String) (value : Option ℝ)
    (nonneg : ∀ x, value = some x → 0 ≤ x) :
    worstOption (worstNumber names key (optional value)) (worst names (optional value)) =
      if key ∈ names then value else none := by
  cases value with
  | none => simp [optional, worstNumber, worst, worstOption]
  | some x => by_cases member : key ∈ names <;>
      simp [optional, worstNumber, worst, worstOption, member, nonneg x rfl]

theorem worst_correctnessValue (run : RunEvidence) (shapes : List String) :
    worst ["rel_err", "relative_l2"] (correctnessValue run shapes) = worstIn run .relErr shapes ∧
    worst ["max_abs_err", "max_elementwise_abs_diff"] (correctnessValue run shapes) =
      worstIn run .maxAbsErr shapes ∧
    worst ["max_rel_err", "max_elementwise_rel_diff"] (correctnessValue run shapes) =
      worstIn run .maxRelErr shapes := by
  have each : ∀ names, "status" ∉ names → worst names (correctnessValue run shapes) =
      worstOption (if "rel_err" ∈ names then worstIn run .relErr shapes else none)
        (worstOption (if "max_abs_err" ∈ names then worstIn run .maxAbsErr shapes else none)
          (worstOption (if "max_rel_err" ∈ names then worstIn run .maxRelErr shapes else none)
            none)) := by
    intro names no_status
    unfold correctnessValue
    rw [worst, if_neg (by simp)]
    simp only [worstItems, worstNumber_optional names _ _ (worstIn_nonneg run _ shapes)]
    rfl
  rw [each _ (by simp), each _ (by simp), each _ (by simp)]
  refine ⟨?_, ?_, ?_⟩
  · cases worstIn run .relErr shapes <;> simp [worstOption]
  · cases worstIn run .maxAbsErr shapes <;> simp [worstOption]
  · cases worstIn run .maxRelErr shapes <;> simp [worstOption]

theorem worstError_zero (key : String) (results : List Dict)
    (absent : ∀ result ∈ results, ¬ Truthy (get result key)) :
    worstError compare key results = .ok (.int 0) := by
  have zeros : (results.map fun result =>
      if Truthy (get result key) then get result key else (.int 0 : Value)) =
        List.replicate results.length (.int 0) := by
    rw [List.eq_replicate_iff]
    refine ⟨by simp, ?_⟩
    intro value member
    obtain ⟨result, given, rfl⟩ := List.mem_map.mp member
    rw [if_neg (absent result given)]
  have fold : ∀ n, (List.replicate n (.int 0 : Value)).foldlM (fun best error => do
      if ← greater compare error best then pure error else pure best) (.int 0) =
        (.ok (.int 0) : Except Error Value) := by
    intro n
    induction n with
    | zero => rfl
    | succ n ih =>
        have keep : greater compare (.int 0) (.int 0) = .ok false := by
          simp [greater, number, Number.Less, pure, Except.pure]
        rw [List.replicate_succ, List.foldlM_cons, keep]
        exact ih
  unfold worstError
  rw [zeros]
  cases results with
  | nil => rfl
  | cons first rest => exact fold rest.length

theorem side_rows (evidence : Step → RunEvidence) (schedule : List Step) (shapes : List String)
    (rows : List Dict) (side : Revision)
    (shows : List.Forall₂ (fun step row => Shows step (evidence step) shapes row) schedule rows) :
    List.Forall₂ (fun step (value : Value) => ∃ result, value = .obj result ∧
        get result "correctness" = correctnessValue (evidence step) shapes)
      (schedule.filter fun step => step.revision = side)
      ((rowsOfSide rows side).filterMap fun row =>
        (dictOf (get row "result")).map (.obj : Dict → Value)) := by
  induction shows with
  | nil => exact .nil
  | @cons step row schedule rows here _ ih =>
      obtain ⟨result, shown, correctness, _⟩ := here.result
      have revision := here.executes.1
      unfold rowsOfSide at ih ⊢
      by_cases same : step.revision = side
      · have selected : get row "revision" = .str side.name := by rw [revision, same]
        rw [List.filter_cons_of_pos (by simpa using same),
          List.filter_cons_of_pos (by simpa using selected), List.filterMap_cons, shown]
        exact .cons ⟨result, rfl, correctness⟩ ih
      · have elsewhere : ¬ get row "revision" = .str side.name := by
          intro selected
          rw [revision] at selected
          injection selected with names
          exact same (name_injective _ _ names)
        rw [List.filter_cons_of_neg (by simpa using same),
          List.filter_cons_of_neg (by simpa using elsewhere)]
        exact ih

/-- The metrics of a side whose rows show the correctness of their evidence on `shapes`. -/
theorem side_metrics (evidence : Step → RunEvidence) (schedule : List Step)
    (shapes : List String) (rows : List Dict) (side : Revision) (repeats : Nat)
    (shapeIds : List String)
    (shows : List.Forall₂ (fun step row => Shows step (evidence step) shapes row) schedule rows) :
    ∃ metrics, abbaSideMetrics compare rows side repeats shapeIds = .ok metrics ∧
      metrics.maxAbsErr = .int 0 ∧ metrics.maxRelErr = .int 0 ∧
      metrics.correctness = ⟨sideWorst evidence schedule side .relErr shapes,
        sideWorst evidence schedule side .maxAbsErr shapes,
        sideWorst evidence schedule side .maxRelErr shapes⟩ := by
  have zero : ∀ key ∈ ["max_abs_err", "max_rel_err"],
      worstError compare key ((rowsOfSide rows side).filterMap successful) = .ok (.int 0) := by
    intro key member
    apply worstError_zero
    intro result given
    obtain ⟨row, present, ran⟩ := List.mem_filterMap.mp given
    obtain ⟨step, _, here⟩ :=
      forall₂_mem_right shows row ((mem_rowsOfSide rows side row).mp present).1
    obtain ⟨result', shown, _, absent⟩ := here.result
    obtain ⟨same, _, _⟩ := (successful_eq_some row result).mp ran
    rw [shown] at same
    cases same
    exact absent key member
  have values := side_rows evidence schedule shapes rows side shows
  have each : ∀ names metric, (∀ step, worst names (correctnessValue (evidence step) shapes) =
      worstIn (evidence step) metric shapes) →
      worstAll names ((rowsOfSide rows side).filterMap fun row =>
        (dictOf (get row "result")).map .obj) =
          sideWorst evidence schedule side metric shapes := by
    intro names metric computed
    rw [worstAll_eq]
    unfold sideWorst
    congr 1
    generalize (schedule.filter fun step => step.revision = side) = steps at values ⊢
    generalize ((rowsOfSide rows side).filterMap fun row =>
      (dictOf (get row "result")).map (.obj : Dict → Value)) = shown at values ⊢
    induction values with
    | nil => rfl
    | @cons step value steps values here _ ih =>
        obtain ⟨result, rfl, correctness⟩ := here
        rw [List.map_cons, List.map_cons, ih, ← computed step]
        congr 1
        exact worst_of_correctness names result _ correctness
  unfold abbaSideMetrics
  dsimp only
  rw [zero "max_abs_err" (by simp), zero "max_rel_err" (by simp)]
  refine ⟨_, rfl, rfl, rfl, ?_⟩
  unfold correctnessSummary
  rw [each _ .relErr fun step => (worst_correctnessValue (evidence step) shapes).1,
    each _ .maxAbsErr fun step => (worst_correctnessValue (evidence step) shapes).2.1,
    each _ .maxRelErr fun step => (worst_correctnessValue (evidence step) shapes).2.2]

end Sides

/-! ### Independence -/

/-- Two rows of one step have the same exit status, verdict and latency. -/
structure RunAgrees (row row' : Dict) : Prop where
  exitCode : get row "exit_code" = get row' "exit_code"
  result : ∃ result result', get row "result" = .obj result ∧ get row' "result" = .obj result' ∧
    get result "all_pass" = get result' "all_pass" ∧
    get result "latency_us_geomean" = get result' "latency_us_geomean"

/-- The metrics of a side are the same numbers. -/
def SideAgrees (compare : Value → Value → Except Error Bool) (rows rows' : List Dict)
    (side : Revision) (repeats : Nat) (shapeIds : List String) : Prop :=
  ∃ metrics metrics', abbaSideMetrics compare rows side repeats shapeIds = .ok metrics ∧
    abbaSideMetrics compare rows' side repeats shapeIds = .ok metrics' ∧
    number metrics.maxAbsErr = number metrics'.maxAbsErr ∧
    number metrics.maxRelErr = number metrics'.maxRelErr ∧
    metrics.correctness = metrics'.correctness

def Agrees (compare : Value → Value → Except Error Bool) (payload payload' : Dict)
    (repeats : Nat) (shapeIds : List String) : Prop :=
  ∃ rows rows', rowsOf payload = some rows ∧ rowsOf payload' = some rows' ∧
    List.Forall₂ RunAgrees rows rows' ∧
    ∀ side, SideAgrees compare rows rows' side repeats shapeIds

/-- In every order of the batches, their merge is the payload of one batch. -/
def PartitionIndependent (readFloat : String → Option Number)
    (compare : Value → Value → Except Error Bool) (evidence : Step → RunEvidence)
    (repeats : Nat) (batches : List (List String)) (shapeIds : List String) : Prop :=
  ∀ batches' : List (List String), batches'.Perm batches → ∃ merged,
    mergeAbbaBatchPayloads readFloat
      (batches'.map (nativePayload evidence (verificationSchedule repeats)))
      (verificationSchedule repeats) shapeIds = .ok merged ∧
    Agrees compare merged (nativePayload evidence (verificationSchedule repeats) shapeIds)
      repeats shapeIds

theorem native_shows (evidence : Step → RunEvidence) (schedule : List Step)
    (shapes : List String) :
    List.Forall₂ (fun step row => Shows step (evidence step) shapes row) schedule
      (schedule.map fun step => nativeRow step (evidence step) shapes) := by
  rw [List.forall₂_map_right_iff, List.forall₂_same]
  intro step _
  refine ⟨nativeRow_executes step (evidence step) shapes, summarize (evidence step) shapes, ?_,
    ?_, ?_⟩
  · simp [nativeRow]
  · simp [summarize]
  · intro key member
    rw [summarize_no_error (evidence step) shapes key member]
    exact id

theorem passing_perm (run : RunEvidence) (shapes shapes' : List String)
    (same : shapes.Perm shapes') : Passing run shapes ↔ Passing run shapes' := by
  have empty : shapes = [] ↔ shapes' = [] := by
    rw [← List.length_eq_zero_iff, same.length_eq, List.length_eq_zero_iff]
  simp only [Passing, Ne, empty, same.mem_iff]

theorem expMean_perm (values values' : List ℝ) (same : values.Perm values') :
    expMean values = expMean values' := by
  unfold expMean
  rw [(same.map Real.log).sum_eq, same.length_eq]

theorem measuredLatencies_perm (run : RunEvidence) (shapes shapes' : List String)
    (same : shapes.Perm shapes') :
    (measuredLatencies run shapes).Perm (measuredLatencies run shapes') :=
  same.filterMap _

theorem native_run_perm (step : Step) (run : RunEvidence) (shapes shapes' : List String)
    (same : shapes.Perm shapes') :
    RunAgrees (nativeRow step run shapes) (nativeRow step run shapes') := by
  constructor
  · simp [nativeRow]
  · refine ⟨summarize run shapes, summarize run shapes', by simp [nativeRow],
      by simp [nativeRow], ?_, ?_⟩
    · simp [summarize, passing_perm run shapes shapes' same]
    · have mean := expMean_perm _ _ ((measuredLatencies_perm run shapes shapes' same).map Prod.snd)
      simp [summarize, passing_perm run shapes shapes' same, mean]

theorem sideWorst_perm (evidence : Step → RunEvidence) (schedule : List Step) (side : Revision)
    (metric : Metric) (shapes shapes' : List String) (same : shapes.Perm shapes') :
    sideWorst evidence schedule side metric shapes =
      sideWorst evidence schedule side metric shapes' := by
  unfold sideWorst
  congr 1
  apply List.map_congr_left
  intro step _
  exact worstList_perm _ _ (same.map _)

section Independence

variable {readFloat : String → Option Number} {compare : Value → Value → Except Error Bool}

theorem sideAgrees_iff (evidence : Step → RunEvidence) (schedule : List Step)
    (shapes shapes' : List String) (rows rows' : List Dict) (side : Revision) (repeats : Nat)
    (shapeIds : List String)
    (shows : List.Forall₂ (fun step row => Shows step (evidence step) shapes row) schedule rows)
    (shows' : List.Forall₂ (fun step row => Shows step (evidence step) shapes' row) schedule
      rows') :
    SideAgrees compare rows rows' side repeats shapeIds ↔
      ∀ metric, sideWorst evidence schedule side metric shapes =
        sideWorst evidence schedule side metric shapes' := by
  obtain ⟨metrics, done, absolute, relative, correctness⟩ :=
    side_metrics compare evidence schedule shapes rows side repeats shapeIds shows
  obtain ⟨metrics', done', absolute', relative', correctness'⟩ :=
    side_metrics compare evidence schedule shapes' rows' side repeats shapeIds shows'
  constructor
  · rintro ⟨_, _, same, same', _, _, agree⟩ metric
    rw [done] at same
    rw [done'] at same'
    cases same
    cases same'
    rw [correctness, correctness'] at agree
    injection agree with rel abs relative
    cases metric with
    | relErr => exact rel
    | maxAbsErr => exact abs
    | maxRelErr => exact relative
  · intro agree
    refine ⟨metrics, metrics', done, done', ?_, ?_, ?_⟩
    · rw [absolute, absolute']
    · rw [relative, relative']
    · rw [correctness, correctness', agree .relErr, agree .maxAbsErr, agree .maxRelErr]

/-- The merge of several batches shows the correctness of the last one. -/
theorem merged_shows (evidence : Step → RunEvidence) (schedule : List Step)
    (batches : List (List String)) (last : List String) (shapeIds : List String)
    (rows : List Dict) (split : Split (batches ++ [last]) shapeIds)
    (runs : List.Forall₂ (fun step row => ∃ result parts latencies,
      MergedRun readFloat step (nativeRows step (evidence step) (batches ++ [last])) shapeIds row
        result parts latencies) schedule rows) :
    List.Forall₂ (fun step row => Shows step (evidence step) last row) schedule rows := by
  refine runs.imp ?_
  rintro step row ⟨result, parts, latencies, facts⟩
  obtain ⟨_, _, _, ⟨final, here, correctness⟩, zero⟩ :=
    native_run readFloat step (evidence step) _ shapeIds row result parts latencies split facts
  rw [List.getLast?_concat] at here
  cases here
  refine ⟨facts.executes, result, facts.holds, correctness, ?_⟩
  intro key member
  rw [zero key member]
  simp [Truthy]

theorem merged_run_agrees_iff (step : Step) (run : RunEvidence) (batches : List (List String))
    (shapeIds : List String) (row result merged : Dict) (latencies : List (String × Number))
    (split : Split batches shapeIds)
    (facts : MergedRun readFloat step (nativeRows step run batches) shapeIds row result merged
      latencies) :
    RunAgrees row (nativeRow step run shapeIds) ↔ Passing run shapeIds := by
  obtain ⟨code, passes, latency, _⟩ :=
    native_run readFloat step run batches shapeIds row result merged latencies split facts
  constructor
  · intro agrees
    have same := agrees.exitCode
    rw [code] at same
    by_contra failing
    rw [if_neg failing] at same
    simp [nativeRow] at same
  · intro passing
    constructor
    · rw [code, if_pos passing]
      simp [nativeRow]
    · refine ⟨result, summarize run shapeIds, facts.holds, by simp [nativeRow], ?_, ?_⟩
      · rw [passes]
        simp [summarize]
      · rw [latency passing]
        simp [summarize, passing]

/-- Every order of several batches has its merge, whose sides are those of its last batch. -/
theorem merge_agrees_iff (evidence : Step → RunEvidence) (schedule : List Step) (repeats : Nat)
    (front : List (List String)) (last shapeIds : List String)
    (split : Split (front ++ [last]) shapeIds) (several : ∀ batch, front ++ [last] ≠ [batch]) :
    (∃ merged, mergeAbbaBatchPayloads readFloat
        ((front ++ [last]).map (nativePayload evidence schedule)) schedule shapeIds = .ok merged ∧
      Agrees compare merged (nativePayload evidence schedule shapeIds) repeats shapeIds) ↔
    ((∀ step ∈ schedule, Passing (evidence step) shapeIds) ∧
      ∀ side metric, sideWorst evidence schedule side metric last =
        sideWorst evidence schedule side metric shapeIds) := by
  obtain ⟨merged, rows, done, here, runs⟩ :=
    merge_native readFloat evidence schedule (front ++ [last]) shapeIds split several
  have whole := native_shows evidence schedule shapeIds
  have shows := merged_shows evidence schedule front last shapeIds rows split runs
  have sides := fun side => @sideAgrees_iff compare evidence schedule last shapeIds
    rows _ side repeats shapeIds shows whole
  have listed := nativePayload_rows evidence schedule shapeIds
  have each : ∀ step row, (∃ result parts latencies,
      MergedRun readFloat step (nativeRows step (evidence step) (front ++ [last])) shapeIds row
        result parts latencies) →
      (RunAgrees row (nativeRow step (evidence step) shapeIds) ↔
        Passing (evidence step) shapeIds) := by
    rintro step row ⟨result, parts, latencies, facts⟩
    exact merged_run_agrees_iff step (evidence step) _ shapeIds row result parts latencies split
      facts
  have agree : List.Forall₂ (fun step row =>
      RunAgrees row (nativeRow step (evidence step) shapeIds)) schedule rows ↔
        ∀ step ∈ schedule, Passing (evidence step) shapeIds := by
    constructor
    · intro agrees step member
      obtain ⟨row, _, run, same⟩ := forall₂_mem_left (forall₂_and runs agrees) step member
      exact (each step row run).mp same
    · intro passing
      apply forall₂_imp_mem runs
      intro step member row run
      exact (each step row run).mpr (passing step member)
  constructor
  · rintro ⟨merged', done', rows', rows'', first, second, same, agrees⟩
    rw [done] at done'
    cases done'
    rw [here] at first
    cases first
    rw [listed] at second
    cases second
    rw [List.forall₂_map_right_iff] at same
    exact ⟨agree.mp same.flip, fun side => (sides side).mp (agrees side)⟩
  · rintro ⟨passing, worst⟩
    refine ⟨merged, done, rows, _, here, listed, ?_, fun side => (sides side).mpr (worst side)⟩
    rw [List.forall₂_map_right_iff]
    exact (agree.mpr passing).flip

theorem single_batch_agrees (evidence : Step → RunEvidence) (schedule : List Step)
    (repeats : Nat) (batch shapeIds : List String) (same : batch.Perm shapeIds) :
    Agrees compare (nativePayload evidence schedule batch)
      (nativePayload evidence schedule shapeIds) repeats shapeIds := by
  refine ⟨_, _, nativePayload_rows evidence schedule batch,
    nativePayload_rows evidence schedule shapeIds, ?_, ?_⟩
  · rw [List.forall₂_map_left_iff, List.forall₂_map_right_iff, List.forall₂_same]
    intro step _
    exact native_run_perm step (evidence step) batch shapeIds same
  · intro side
    rw [sideAgrees_iff evidence schedule batch shapeIds _ _ side repeats shapeIds
      (native_shows evidence schedule batch) (native_shows evidence schedule shapeIds)]
    intro metric
    exact sideWorst_perm evidence schedule side metric batch shapeIds same

/-- Splitting a verification changes nothing exactly when there is one batch, or every run
passes and every batch has the worst error of each side. -/
theorem merge_is_partition_independent (readFloat : String → Option Number)
    (compare : Value → Value → Except Error Bool) (evidence : Step → RunEvidence) (repeats : Nat)
    (batches : List (List String)) (shapeIds : List String) (split : Split batches shapeIds) :
    PartitionIndependent readFloat compare evidence repeats batches shapeIds ↔
      (∃ batch, batches = [batch]) ∨
      ((∀ step ∈ verificationSchedule repeats, Passing (evidence step) shapeIds) ∧
        ∀ side metric, ∀ batch ∈ batches,
          sideWorst evidence (verificationSchedule repeats) side metric batch =
            sideWorst evidence (verificationSchedule repeats) side metric shapeIds) := by
  by_cases single : ∃ batch, batches = [batch]
  · refine iff_of_true ?_ (Or.inl single)
    obtain ⟨batch, rfl⟩ := single
    intro batches' order
    rw [List.perm_singleton] at order
    subst order
    refine ⟨_, rfl, single_batch_agrees evidence _ repeats batch shapeIds ?_⟩
    simpa using split.covers
  · rw [or_iff_right single]
    push Not at single
    have several : ∀ front last, (front ++ [last]).Perm batches →
        ∀ batch, front ++ [last] ≠ [batch] := by
      intro front last order batch same
      rw [same, List.perm_comm, List.perm_singleton] at order
      exact single batch order
    constructor
    · intro independent
      have with_last : ∀ batch ∈ batches,
          (∀ step ∈ verificationSchedule repeats, Passing (evidence step) shapeIds) ∧
            ∀ side metric, sideWorst evidence (verificationSchedule repeats) side metric batch =
              sideWorst evidence (verificationSchedule repeats) side metric shapeIds := by
        intro batch member
        have order : (batches.erase batch ++ [batch]).Perm batches :=
          (List.perm_append_comm.trans (List.perm_cons_erase member).symm)
        exact (merge_agrees_iff evidence _ repeats _ batch shapeIds (split.perm order)
          (several _ batch order)).mp (independent _ order)
      obtain ⟨batch, member⟩ := List.exists_mem_of_ne_nil batches split.ne_nil
      exact ⟨(with_last batch member).1,
        fun side metric batch member => (with_last batch member).2 side metric⟩
    · rintro ⟨passing, worst⟩ batches' order
      have split' := split.perm order
      obtain ⟨front, last, ends⟩ :=
        (List.eq_nil_or_concat batches').resolve_left split'.ne_nil
      rw [List.concat_eq_append] at ends
      subst ends
      have member : last ∈ batches := order.mem_iff.mp (by simp)
      exact (merge_agrees_iff evidence _ repeats front last shapeIds split'
        (several front last order)).mpr
          ⟨passing, fun side metric => worst side metric last member⟩

/-- A passing run whose every shape has the errors that `worst` gives it. -/
def passingEvidence (worst : String → {x : ℝ // 0 ≤ x}) : Step → RunEvidence :=
  fun _ shapeId => ⟨true, some ⟨1, one_pos⟩, fun _ => some (worst shapeId)⟩

theorem passingEvidence_passing (worst : String → {x : ℝ // 0 ≤ x}) (step : Step)
    (shapes : List String) (some_shape : shapes ≠ []) :
    Passing (passingEvidence worst step) shapes :=
  ⟨some_shape, fun _ _ => ⟨rfl, rfl⟩⟩

theorem split_two : Split [["0"], ["1"]] ["0", "1"] where
  shapes := by simp
  nodup := by simp
  nonempty := by simp
  covers := .refl _

theorem merge_is_partition_independent_even :
    PartitionIndependent (fun _ => none) (fun _ _ => .ok false)
      (passingEvidence fun _ => ⟨1 / 2, by norm_num⟩) 1 [["0"], ["1"]] ["0", "1"] := by
  rw [merge_is_partition_independent _ _ _ _ _ _ split_two]
  refine Or.inr ⟨fun step _ => passingEvidence_passing _ step _ (by simp), ?_⟩
  intro side metric batch member
  simp only [List.mem_cons, List.not_mem_nil, or_false] at member
  rw [verificationSchedule_one]
  rcases member with rfl | rfl <;> cases side <;>
    simp [sideWorst, worstIn, worstList, worstOption, passingEvidence]

/-- The first shape has the larger error. -/
def unevenWorst (shapeId : String) : {x : ℝ // 0 ≤ x} :=
  if shapeId = "0" then ⟨1 / (2 : ℕ), by norm_num⟩ else ⟨1 / (10 : ℕ), by norm_num⟩

theorem merge_keeps_last_correctness :
    ¬ PartitionIndependent (fun _ => none) (fun _ _ => .ok false)
      (passingEvidence unevenWorst) 1 [["0"], ["1"]] ["0", "1"] := by
  intro independent
  have merged := (merge_agrees_iff _ _ 1 [["0"]] ["1"] ["0", "1"] split_two
    (by simp)).mp (independent [["0"], ["1"]] (.refl _))
  have same := merged.2 .candidate .maxAbsErr
  have steps : ([⟨.incumbent, 0⟩, ⟨.candidate, 0⟩] : List Step).filter
      (fun step => step.revision = .candidate) = [⟨.candidate, 0⟩] := by simp
  have first : (unevenWorst "0").val = 1 / 2 := rfl
  have second : (unevenWorst "1").val = 1 / 10 := rfl
  unfold sideWorst at same
  rw [verificationSchedule_one, steps] at same
  norm_num [worstIn, worstList, worstOption, passingEvidence, first, second] at same

end Independence

end

end AtrexAgent.Evaluation
