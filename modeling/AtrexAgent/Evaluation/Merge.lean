import AtrexAgent.Evaluation.Abba
import AtrexAgent.Library.Traversal

/-! The merge of shape batches: what the latencies of a merged run are, and what a
merged run has when it passes. -/

namespace AtrexAgent.Evaluation

open AtrexAgent.Json

noncomputable section

open scoped Classical

/-! ### Latencies by shape -/

theorem lookupLatency_cons (item : String × Number) (rest : List (String × Number))
    (shapeId : String) :
    lookupLatency (item :: rest) shapeId =
      (lookupLatency rest shapeId).or (if item.1 = shapeId then some item.2 else none) := by
  unfold lookupLatency
  rw [List.reverse_cons, List.find?_append]
  cases List.find? (fun item => decide (item.1 = shapeId)) rest.reverse with
  | some found => rfl
  | none =>
      by_cases same : item.1 = shapeId
      · simp [same]
      · simp [same]

theorem mem_of_lookup (latencies : List (String × Number)) (shapeId : String) (x : Number)
    (found : lookupLatency latencies shapeId = some x) : (shapeId, x) ∈ latencies := by
  induction latencies with
  | nil => cases found
  | cons item rest ih =>
      rw [lookupLatency_cons, Option.or_eq_some_iff] at found
      rcases found with later | ⟨_, here⟩
      · exact List.mem_cons_of_mem _ (ih later)
      · split at here
        · rename_i same
          cases here
          subst same
          exact List.mem_cons_self
        · cases here

theorem find?_foldl_set (latencies : List (String × Number)) (d : Dict) (shapeId : String) :
    find? (latencies.foldl (fun d item => set d item.1 (.float item.2)) d) shapeId =
      ((lookupLatency latencies shapeId).map .float).or (find? d shapeId) := by
  induction latencies generalizing d with
  | nil => rfl
  | cons item rest ih =>
      rw [List.foldl_cons, ih, find?_set, lookupLatency_cons]
      cases lookupLatency rest shapeId with
      | some x => rfl
      | none =>
          by_cases same : item.1 = shapeId
          · simp [same]
          · have other : shapeId ≠ item.1 := fun h => same h.symm
            simp [same, other]

theorem find?_latencyDict (latencies : List (String × Number)) (shapeId : String) :
    find? (latencyDict latencies) shapeId =
      (lookupLatency latencies shapeId).map .float := by
  unfold latencyDict
  rw [find?_foldl_set]
  simp

theorem mem_keys_iff (d : Dict) (key : String) :
    key ∈ d.map Prod.fst ↔ find? d key ≠ none := by
  rw [Ne, find?_eq_none, List.mem_map]
  push Not
  rfl

theorem mem_of_find (d : Dict) (key : String) (value : Value)
    (found : find? d key = some value) : (key, value) ∈ d := by
  unfold find? at found
  obtain ⟨item, here, rfl⟩ := Option.map_eq_some_iff.mp found
  have same := List.find?_some here
  have member := List.mem_of_find?_eq_some here
  simp only [decide_eq_true_eq] at same
  subst same
  exact member

/-! ### Positive latencies -/

/-- All latencies of the result are positive numbers. -/
structure PositiveLatencies (result : Dict) : Prop where
  shapes : ∃ d, get result "latency_us_by_shape" = .obj d ∧
    ∀ item ∈ d, (positiveNumber item.2).isSome
  geomean : (positiveNumber (get result "latency_us_geomean")).isSome

/-- The result has a GeoMean, and a latency for every shape. -/
structure Measured (result : Dict) (shapeIds : List String) : Prop where
  shapes : ∃ d, get result "latency_us_by_shape" = .obj d ∧
    ∀ shapeId ∈ shapeIds, (positiveNumber (get d shapeId)).isSome
  geomean : (positiveNumber (get result "latency_us_geomean")).isSome

theorem validRow_passing (row result : Dict) (shapeIds : List String)
    (valid : validRow row shapeIds = .ok ()) (here : get row "result" = .obj result)
    (passes : get result "all_pass" = .bool true) :
    PositiveLatencies result ∧ Measured result shapeIds := by
  unfold validRow at valid
  rw [here] at valid
  dsimp only at valid
  rw [passes] at valid
  dsimp only at valid
  split at valid
  case h_2 => cases valid
  split at valid
  · cases valid
  rw [if_neg (by simp)] at valid
  split at valid
  case h_2 => cases valid
  rename_i d latencies
  split at valid
  · cases valid
  rename_i coverage
  push Not at coverage
  split at valid
  case isFalse => cases valid
  rename_i positive
  have geomean := positive _ List.mem_cons_self
  have each : ∀ item ∈ d, (positiveNumber item.2).isSome := by
    intro item member
    exact positive _ (List.mem_cons_of_mem _ (List.mem_map_of_mem member))
  refine ⟨⟨⟨d, latencies, each⟩, geomean⟩, ⟨d, latencies, ?_⟩, geomean⟩
  intro shapeId member
  have key := (coverage.2 shapeId).mpr member
  rw [mem_keys_iff] at key
  obtain ⟨value, found⟩ := Option.ne_none_iff_exists'.mp key
  have same : get d shapeId = value := by simp [Json.get, found]
  rw [same]
  exact each _ (mem_of_find d shapeId value found)

section Batches

variable {readFloat : String → Option Number}

theorem toFloat_positive (value : Value) (x : Number)
    (positive : (positiveNumber value).isSome) (read : toFloat readFloat value = .ok x) :
    x.positive.isSome := by
  cases value with
  | int n =>
      cases read
      exact positive
  | float y =>
      cases read
      exact positive
  | null => cases positive
  | bool b => cases positive
  | str s => cases positive
  | arr items => cases positive
  | obj d => cases positive

theorem mem_latencyByShape (results : List Dict) (latencies : List (String × Number))
    (read : latencyByShape readFloat results = .ok latencies)
    (positive : ∀ result ∈ results, PositiveLatencies result) :
    ∀ item ∈ latencies, item.2.positive.isSome := by
  unfold latencyByShape at read
  obtain ⟨items, listed, read⟩ := (bind_ok_iff _ _ _).mp read
  rw [mapM_ok_iff] at listed read
  intro item member
  obtain ⟨source, present, here⟩ := forall₂_mem_right read item member
  obtain ⟨x, read, here⟩ := (bind_ok_iff _ _ _).mp here
  cases here
  obtain ⟨entries, among, inside⟩ := List.mem_flatten.mp present
  obtain ⟨result, given, entered⟩ := forall₂_mem_right listed entries among
  obtain ⟨d, latencies, each⟩ := (positive result given).shapes
  unfold latencyItems at entered
  rw [latencies] at entered
  split at entered
  · cases entered
    exact toFloat_positive source.2 x (each source inside) read
  · cases entered
    cases inside

theorem geomean_isSome (values : List Number) (some_value : values ≠ [])
    (positive : ∀ x ∈ values, x.positive.isSome) :
    ∃ xs, values.mapM Number.positive = some xs ∧ geomean values = some (expMean xs) := by
  obtain ⟨xs, all⟩ := mapM_of_isSome Number.positive values positive
  refine ⟨xs, all, ?_⟩
  unfold geomean
  rw [all]
  cases xs with
  | cons x rest => rfl
  | nil =>
      rw [mapM_some_iff, List.forall₂_nil_right_iff] at all
      exact absurd all some_value

theorem foundLatencies_ne_nil (latencies : List (String × Number)) (shapeIds : List String)
    (some_shape : shapeIds ≠ []) (complete : ¬ Missing latencies shapeIds) :
    foundLatencies latencies shapeIds ≠ [] := by
  intro empty
  obtain ⟨shapeId, member⟩ := List.exists_mem_of_ne_nil shapeIds some_shape
  have absent := List.filterMap_eq_nil_iff.mp empty shapeId member
  exact complete ⟨shapeId, member, absent⟩

theorem found_positive (latencies : List (String × Number)) (shapeIds : List String)
    (positive : ∀ item ∈ latencies, item.2.positive.isSome) :
    ∀ x ∈ foundLatencies latencies shapeIds, x.positive.isSome := by
  intro x member
  obtain ⟨shapeId, _, found⟩ := List.mem_filterMap.mp member
  exact positive _ (mem_of_lookup latencies shapeId x found)

/-! ### The merged result -/

/-- What the merge of results computes, with the latencies it collects. -/
structure Merged (readFloat : String → Option Number) (results : List Dict)
    (shapeIds : List String) (merged : Dict) (latencies : List (String × Number)) : Prop where
  collected : latencyByShape readFloat results = .ok latencies
  geomean : get merged "latency_us_geomean" = if Missing latencies shapeIds then .null
    else optional (geomean (foundLatencies latencies shapeIds))
  byShape : get merged "latency_us_by_shape" = .obj (latencyDict latencies)
  maxAbs : ∃ x, worstOf readFloat "max_abs_err" results = .ok x ∧
    get merged "max_abs_err" = .float x
  maxRel : ∃ x, worstOf readFloat "max_rel_err" results = .ok x ∧
    get merged "max_rel_err" = .float x
  correctness : ∃ last, results.getLast? = some last ∧
    get merged "correctness" = get last "correctness"

theorem mergeBatchResults_ok (results : List Dict) (shapeIds : List String) (merged : Dict)
    (done : mergeBatchResults readFloat results shapeIds = .ok merged) :
    ∃ latencies, Merged readFloat results shapeIds merged latencies := by
  unfold mergeBatchResults at done
  obtain ⟨latencies, collected, done⟩ := (bind_ok_iff _ _ _).mp done
  dsimp only at done
  split at done
  · cases done
  rename_i last here
  obtain ⟨maxAbs, absolute, done⟩ := (bind_ok_iff _ _ _).mp done
  obtain ⟨maxRel, relative, done⟩ := (bind_ok_iff _ _ _).mp done
  cases done
  refine ⟨latencies, collected, ?_, ?_, ⟨maxAbs, absolute, ?_⟩, ⟨maxRel, relative, ?_⟩,
    ⟨last, here, ?_⟩⟩
  all_goals simp

/-- A merged run: its row, and its result among the fields the merge computes. -/
structure MergedRun (readFloat : String → Option Number) (step : Step)
    (rows : List (Dict × Dict)) (shapeIds : List String) (row result merged : Dict)
    (latencies : List (String × Number)) : Prop where
  executes : Executes row step
  holds : get row "result" = .obj result
  merges : Merged readFloat (rows.map Prod.snd) shapeIds merged latencies
  other : ∀ key, key ≠ "all_pass" → get result key = get merged key
  allPass : get result "all_pass" = .bool (RunPasses merged rows shapeIds)
  exitCode : ∃ code, runExitCode merged rows shapeIds = .ok code ∧ get row "exit_code" = .int code

theorem mergeRun_ok (step : Step) (rows : List (Dict × Dict)) (shapeIds : List String)
    (value : Value) (done : mergeRun readFloat step rows shapeIds = .ok value) :
    ∃ row result merged latencies, value = .obj row ∧
      MergedRun readFloat step rows shapeIds row result merged latencies := by
  unfold mergeRun at done
  obtain ⟨merged, here, done⟩ := (bind_ok_iff _ _ _).mp done
  obtain ⟨latencies, facts⟩ := mergeBatchResults_ok _ _ _ here
  obtain ⟨code, exits, done⟩ := (bind_ok_iff _ _ _).mp done
  cases done
  refine ⟨_, _, merged, latencies, rfl, ⟨?_, ?_⟩, rfl, facts, ?_, ?_, ⟨code, exits, ?_⟩⟩
  · simp
  · simp [Equals]
  · intro key other
    simp [other]
  · simp
  · simp

theorem runPasses_iff (merged : Dict) (rows : List (Dict × Dict)) (shapeIds : List String)
    (latencies : List (String × Number))
    (byShape : get merged "latency_us_by_shape" = .obj (latencyDict latencies)) :
    RunPasses merged rows shapeIds ↔
      (∀ key, lookupLatency latencies key ≠ none ↔ key ∈ shapeIds) ∧
        ∀ row ∈ rows, get row.2 "all_pass" = .bool true := by
  unfold RunPasses
  rw [byShape]
  simp only [Json.obj.injEq, exists_eq_left', mem_keys_iff, find?_latencyDict, Ne,
    Option.map_eq_none_iff]

/-- A merged run that passes has a latency for every shape and their GeoMean. -/
theorem mergedRun_measured (step : Step) (rows : List (Dict × Dict)) (shapeIds : List String)
    (row result merged : Dict) (latencies : List (String × Number))
    (run : MergedRun readFloat step rows shapeIds row result merged latencies)
    (some_shape : shapeIds ≠ [])
    (positive : ∀ pair ∈ rows, get pair.2 "all_pass" = .bool true → PositiveLatencies pair.2)
    (passes : get result "all_pass" = .bool true) : Measured result shapeIds := by
  rw [run.allPass] at passes
  injection passes with passes
  rw [decide_eq_true_eq, runPasses_iff merged rows shapeIds latencies run.merges.byShape]
    at passes
  obtain ⟨covered, all⟩ := passes
  have each : ∀ item ∈ latencies, item.2.positive.isSome := by
    apply mem_latencyByShape _ _ run.merges.collected
    intro result member
    obtain ⟨pair, given, rfl⟩ := List.mem_map.mp member
    exact positive pair given (all pair given)
  have complete : ¬ Missing latencies shapeIds := by
    rintro ⟨shapeId, member, absent⟩
    exact (covered shapeId).mpr member absent
  constructor
  · refine ⟨latencyDict latencies, ?_, ?_⟩
    · rw [run.other _ (by decide), run.merges.byShape]
    · intro shapeId member
      obtain ⟨x, found⟩ := Option.ne_none_iff_exists'.mp ((covered shapeId).mpr member)
      have same : get (latencyDict latencies) shapeId = .float x := by
        simp [Json.get, find?_latencyDict, found]
      rw [same]
      exact each _ (mem_of_lookup latencies shapeId x found)
  · obtain ⟨xs, _, mean⟩ := geomean_isSome (foundLatencies latencies shapeIds)
      (foundLatencies_ne_nil latencies shapeIds some_shape complete)
      (found_positive latencies shapeIds each)
    rw [run.other _ (by decide), run.merges.geomean, if_neg complete, mean]
    simp [optional, positiveNumber, number, Number.positive, expMean, Real.exp_pos]

/-! ### The merged payload -/

theorem batchRows_ok (payload : Dict) (schedule : List Step) (pairs : List (Dict × Dict))
    (done : batchRows payload schedule = .ok pairs) :
    rowsOf payload = some (pairs.map Prod.fst) ∧ Scheduled (pairs.map Prod.fst) schedule ∧
      ∀ pair ∈ pairs, get pair.1 "result" = .obj pair.2 := by
  unfold batchRows at done
  split at done
  case h_2 => cases done
  rename_i items runs
  split at done
  · cases done
  split at done
  · cases done
  rename_i listed
  split at done
  case isFalse => cases done
  rename_i scheduled
  cases done
  rw [mapM_some_iff] at listed
  have parts : List.Forall₂ (fun item pair => dictOf item = some pair.1 ∧
      get pair.1 "result" = .obj pair.2) items pairs := by
    refine listed.imp ?_
    intro item pair here
    obtain ⟨d, row, here⟩ := Option.bind_eq_some_iff.mp here
    obtain ⟨result, inner, here⟩ := Option.bind_eq_some_iff.mp here
    cases here
    refine ⟨row, ?_⟩
    unfold dictOf at inner
    split at inner
    · rename_i same
      cases inner
      exact same
    · cases inner
  refine ⟨?_, scheduled, ?_⟩
  · unfold rowsOf
    rw [runs]
    dsimp only
    rw [mapM_some_iff, List.forall₂_map_right_iff]
    exact parts.imp fun _ _ here => here.1
  · intro pair member
    obtain ⟨_, _, here⟩ := forall₂_mem_right parts pair member
    exact here.2

/-- The rows of a merge of several payloads, each merged from the batches' rows. -/
theorem mergeAbba_ok (payloads : List Dict) (schedule : List Step) (shapeIds : List String)
    (merged : Dict) (several : ∀ payload, payloads ≠ [payload])
    (done : mergeAbbaBatchPayloads readFloat payloads schedule shapeIds = .ok merged) :
    ∃ batches rows, List.Forall₂ (fun payload pairs => batchRows payload schedule = .ok pairs)
        payloads batches ∧
      rowsOf merged = some rows ∧ get merged "error" = .null ∧
      List.Forall₂ (fun item row => ∃ result parts latencies,
        MergedRun readFloat item.1 (batches.filterMap fun rows => rows[item.2]?) shapeIds
          row result parts latencies) schedule.zipIdx rows := by
  unfold mergeAbbaBatchPayloads at done
  split at done
  · rename_i payload
    exact absurd rfl (several payload)
  obtain ⟨batches, read, done⟩ := (bind_ok_iff _ _ _).mp done
  obtain ⟨runs, merges, done⟩ := (bind_ok_iff _ _ _).mp done
  cases done
  rw [mapM_ok_iff] at read merges
  have objects : ∃ rows, runs.mapM dictOf = some rows := by
    apply mapM_of_isSome
    intro value member
    obtain ⟨item, _, here⟩ := forall₂_mem_right merges value member
    obtain ⟨row, _, _, _, rfl, _⟩ := mergeRun_ok _ _ _ _ here
    rfl
  obtain ⟨rows, objects⟩ := objects
  refine ⟨batches, rows, read, ?_, by simp, ?_⟩
  · simp [rowsOf, objects]
  · rw [mapM_some_iff] at objects
    refine (forall₂_compose merges objects).imp ?_
    rintro item row ⟨value, done, object⟩
    obtain ⟨row', result, parts, latencies, rfl, run⟩ := mergeRun_ok _ _ _ _ done
    cases object
    exact ⟨result, parts, latencies, run⟩

end Batches

end

end AtrexAgent.Evaluation
