import AtrexAgent.Experiment.Header
import AtrexAgent.Library.JsonIndent

/-! The retry state of a stage: its two files, how they are written and how they are verified when a stage is resumed. -/

namespace AtrexAgent.RetryState

open AtrexAgent.Json
open AtrexAgent.Sources
open AtrexAgent.Records

/-- From here on an integer is too large for a float. -/
def FLOAT_LIMIT : Int := 2 ^ 1024 - 2 ^ 970

def POLL_SECONDS : Int := 60

def MAX_STATE_BYTES : Nat := 64 * 1024

/-- What is taken from floats: the number that a finite one is, and the sum with `POLL_SECONDS`. -/
class ClockFloat (F : Type) extends FloatText F where
  number : F → Option ℚ
  addPoll : F → F
  number_small : ∀ x q, number x = some q → q < FLOAT_LIMIT
  addPoll_later : ∀ x q, number x = some q → 0 ≤ q → ∃ q', number (addPoll x) = some q' ∧ q ≤ q'

variable {F : Type} [ClockFloat F]

/-- `time.time()`, a finite number that is not negative. -/
structure Instant (F : Type) [ClockFloat F] where
  time : F
  number : ℚ
  here : ClockFloat.number time = some number
  nonneg : 0 ≤ number

/-- The number of an integer or a finite float. -/
def value : Json F → Option ℚ
  | .int n => some n
  | .float x => ClockFloat.number x
  | _ => none

/-- `math.isfinite(value)`; it raises of an integer that is too large. -/
def isFinite : Json F → Bool
  | .int n => -FLOAT_LIMIT < n ∧ n < FLOAT_LIMIT
  | .float x => (ClockFloat.number x).isSome
  | _ => false

def validTime (v : Json F) : Bool := isFinite v && (value v).all fun q => 0 ≤ q

/-- `value + POLL_SECONDS` -/
def addPoll : Json F → Json F
  | .int n => .int (n + POLL_SECONDS)
  | .float x => .float (ClockFloat.addPoll x)
  | v => v

/-- `min(a, b)` -/
def minTime (a b : Json F) : Json F :=
  match value a, value b with
  | some x, some y => if y < x then b else a
  | _, _ => a

inductive Category where
  | reviewTimeouts | infrastructure
  deriving DecidableEq, Repr

def Category.countKey : Category → String
  | .reviewTimeouts => "timeout_count"
  | .infrastructure => "retry_count"

def WAITING : String := "waiting_for_infrastructure"

def STATUSES : List String := [WAITING, "recovered", "step_failed"]

def TIME_FIELDS : List String := ["next_retry_at", "last_failure_at", "last_timeout_at", "recovered_at", "finished_at"]

def intField (record : Dict F) (key : String) : Option Int :=
  match find? record key with
  | some (.int n) => some n
  | _ => none

def textField (record : Dict F) (key : String) : Option String :=
  match find? record key with
  | some (.str text) => some text
  | _ => none

def validCount (category : Category) (count : Int) : Bool := 0 ≤ count ∧ (category = .reviewTimeouts → count ≤ 2)

def validStatus (record : Dict F) : Bool :=
  (textField record "status").any STATUSES.contains &&
    (textField record "status" != some WAITING || (find? record "next_retry_at").isSome)

/-- What `_load_retry_state` requires of a record. -/
def isValid (stage : String) (category : Category) (record : Dict F) : Bool :=
  intField record "schema_version" == some 1 && textField record "stage" == some stage &&
    ((intField record category.countKey).any (validCount category) &&
      ((category != .infrastructure || validStatus record) &&
        TIME_FIELDS.all fun field => (find? record field).all validTime))

/-- `_load_retry_state`, or nothing where it raises `RetryStateError`; no file is an empty record. -/
def loadRetryState (file : Option Bytes) (stage : String) (category : Category) : Option (Dict F) :=
  match file with
  | none => some []
  | some data =>
      if MAX_STATE_BYTES < data.length then none
      else
        (decode data).bind fun text => (loads text.toList).bind fun document =>
          match document with
          | .obj record => if isValid stage category record then some record else none
          | _ => none

/-! ### The records that are written -/

/-- `durable_write_json(path, record, indent=2, ensure_ascii=False)` -/
def durableIndented (record : Dict F) : Bytes := encode (String.ofList (dumpsIndented 2 0 (.obj record) ++ ['\n']))

/-- `durable_write_json(path, record)` -/
def durableCompact (record : Dict F) : Bytes := encode (String.ofList (durableJson (.obj record)))

def waitingRecord (stage : String) (retries : Int) (now : Instant F) (reason : String) : Dict F :=
  [("schema_version", .int 1), ("stage", .str stage), ("status", .str WAITING), ("retry_count", .int retries),
    ("last_failure_at", .float now.time), ("next_retry_at", addPoll (.float now.time)),
    ("poll_seconds", .int POLL_SECONDS), ("reason", .str reason)]

def recoveredRecord (record : Dict F) (now : Instant F) : Dict F :=
  update record [("status", .str "recovered"), ("recovered_at", .float now.time)]

def stepFailedRecord (record : Dict F) (now : Instant F) : Dict F :=
  update record [("status", .str "step_failed"), ("finished_at", .float now.time)]

def timeoutRecord (stage : String) (count : Int) (now : Instant F) : Dict F :=
  [("schema_version", .int 1), ("stage", .str stage), ("timeout_count", .int count), ("last_timeout_at", .float now.time)]

def clearRecord (stage : String) : Dict F :=
  [("schema_version", .int 1), ("stage", .str stage), ("timeout_count", .int 0)]

/-- The deadline of a wait that is resumed. -/
def resumedDeadline (record : Dict F) (now : Instant F) : Json F :=
  minTime (get record "next_retry_at") (addPoll ((find? record "last_failure_at").getD (.float now.time)))

/-- `record.get("poll_seconds") == POLL_SECONDS` -/
def samePoll (record : Dict F) : Bool := ((find? record "poll_seconds").bind value) == some (POLL_SECONDS : ℚ)

/-- A wait that is resumed, with the policy's deadline; nothing where nothing changes. -/
def resumed? (record : Dict F) (now : Instant F) : Option (Dict F) :=
  if value (resumedDeadline record now) != value (get record "next_retry_at") || !samePoll record then
    some (update record [("next_retry_at", resumedDeadline record now), ("poll_seconds", .int POLL_SECONDS)])
  else none

/-! ### Reading back -/

variable {stage : String} {category : Category} {record : Dict F}

theorem load_obj {data : Bytes} {text : Text} {record : Dict F} (read : decode data = some (String.ofList text))
    (loaded : loads text = some (.obj record)) (valid : isValid stage category record = true) :
    loadRetryState (some data) stage category = if MAX_STATE_BYTES < data.length then none else some record := by
  rw [loadRetryState]
  split
  · rfl
  · rw [read, Option.bind_some, String.toList_ofList, loaded, Option.bind_some]
    exact if_pos valid

/-- A valid record is read back from the indented file as it is, unless the file is too large. -/
theorem load_indented (valid : isValid stage category record = true) (distinct : Distinct (.obj record : Json F)) :
    loadRetryState (some (durableIndented record)) stage category =
      if MAX_STATE_BYTES < (durableIndented record).length then none else some record :=
  load_obj (decode_encode _) (loads_dumpsIndented 2 (.obj record) distinct) valid

/-- What is verified of a record depends on what is found under its keys. -/
theorem isValid_congr {record' : Dict F} (same : ∀ key, find? record' key = find? record key) :
    isValid stage category record' = isValid stage category record := by
  simp only [isValid, validStatus, intField, textField, same]

theorem load_compact {sorted : Dict F} (order : sortKeys (.obj record : Json F) = .obj sorted)
    (distinct : Distinct (.obj record : Json F)) (valid : isValid stage category sorted = true) :
    loadRetryState (some (durableCompact record)) stage category =
      if MAX_STATE_BYTES < (durableCompact record).length then none else some sorted := by
  apply load_obj (decode_encode _) _ valid
  rw [loads_durableJson _ distinct, order]

/-! ### Valid records -/

omit [ClockFloat F] in
theorem intField_congr {record' : Dict F} {key : String} (same : find? record' key = find? record key) :
    intField record' key = intField record key := by
  rw [intField, intField, same]

omit [ClockFloat F] in
theorem textField_congr {record' : Dict F} {key : String} (same : find? record' key = find? record key) :
    textField record' key = textField record key := by
  rw [textField, textField, same]

/-- What a valid record says. -/
structure Valid (stage : String) (category : Category) (record : Dict F) : Prop where
  schema : intField record "schema_version" = some 1
  stage : textField record "stage" = some stage
  count : ∃ count, intField record category.countKey = some count ∧ 0 ≤ count ∧ (category = .reviewTimeouts → count ≤ 2)
  status : category = .infrastructure → ∃ status ∈ STATUSES, textField record "status" = some status ∧
    (status = WAITING → (find? record "next_retry_at").isSome = true)
  times : ∀ field ∈ TIME_FIELDS, ∀ v, find? record field = some v → validTime v = true

omit [ClockFloat F] in
theorem validStatus_iff : validStatus record = true ↔ ∃ status ∈ STATUSES, textField record "status" = some status ∧
    (status = WAITING → (find? record "next_retry_at").isSome = true) := by
  rw [validStatus, Bool.and_eq_true, Option.any_eq_true, Bool.or_eq_true, bne_iff_ne]
  constructor
  · intro ⟨⟨status, found, listed⟩, scheduled⟩
    refine ⟨status, by simpa using listed, found, fun waiting => ?_⟩
    rw [found, waiting] at scheduled
    exact scheduled.resolve_left fun other => other rfl
  · intro ⟨status, listed, found, scheduled⟩
    refine ⟨⟨status, found, by simpa using listed⟩, ?_⟩
    by_cases waiting : status = WAITING
    · exact .inr (scheduled waiting)
    · exact .inl (by simpa [found] using waiting)

theorem isValid_iff : isValid stage category record = true ↔ Valid stage category record := by
  simp only [isValid, Bool.and_eq_true, beq_iff_eq, Option.any_eq_true, validCount, decide_eq_true_eq, Bool.or_eq_true,
    bne_iff_ne, validStatus_iff, List.all_eq_true, Option.all_eq_true]
  constructor
  · intro ⟨⟨schema, named⟩, counted, status, times⟩
    refine ⟨schema, named, counted, fun infrastructure => ?_, fun field listed v found => times field listed v found⟩
    exact status.resolve_left fun other => other infrastructure
  · intro valid
    refine ⟨⟨valid.schema, valid.stage⟩, valid.count, ?_, fun field listed v found => valid.times field listed v found⟩
    by_cases infrastructure : category = .infrastructure
    · exact .inr (valid.status infrastructure)
    · exact .inl infrastructure

theorem validTime_iff {v : Json F} : validTime v = true ↔ isFinite v = true ∧ ∃ q, value v = some q ∧ 0 ≤ q := by
  rw [validTime, Bool.and_eq_true]
  refine and_congr_right fun finite => ?_
  cases v with
  | int n => simp [value]
  | float x =>
      simp only [isFinite] at finite
      cases number : ClockFloat.number x with
      | none => simp [number] at finite
      | some q => simp [value, number]
  | _ => cases finite

theorem Instant.validTime (now : Instant F) : RetryState.validTime (.float now.time) = true := by
  rw [validTime_iff]
  exact ⟨by simp [isFinite, now.here], now.number, now.here, now.nonneg⟩

theorem Instant.validTime_addPoll (now : Instant F) : RetryState.validTime (addPoll (.float now.time)) = true := by
  obtain ⟨q, later, at_least⟩ := ClockFloat.addPoll_later now.time now.number now.here now.nonneg
  rw [validTime_iff]
  exact ⟨by simp [isFinite, addPoll, later], q, later, now.nonneg.trans at_least⟩

theorem valid_waiting {retries : Int} (nonneg : 0 ≤ retries) (now : Instant F) (reason : String) :
    Valid stage .infrastructure (waitingRecord stage retries now reason) := by
  refine ⟨by simp [intField, waitingRecord], by simp [textField, waitingRecord], ⟨retries, ?_, nonneg, nofun⟩,
    fun _ => ⟨WAITING, by simp [STATUSES], by simp [textField, waitingRecord], fun _ => by simp [waitingRecord]⟩, ?_⟩
  · simp [intField, waitingRecord, Category.countKey]
  · intro field listed v found
    simp only [TIME_FIELDS, List.mem_cons, List.not_mem_nil, or_false] at listed
    rcases listed with rfl | rfl | rfl | rfl | rfl <;> simp [waitingRecord] at found
    · subst found
      exact now.validTime_addPoll
    · subst found
      exact now.validTime

/-- A valid record stays so with another status and the time of it. -/
theorem Valid.settled (valid : Valid stage .infrastructure record) {status field : String}
    (listed : status ∈ STATUSES) (other : status ≠ WAITING) (timed : field = "recovered_at" ∨ field = "finished_at")
    (now : Instant F) :
    Valid stage .infrastructure (update record [("status", .str status), (field, .float now.time)]) := by
  have kept (key : String) (not_status : key ≠ "status") (not_field : key ≠ field) :
      find? (update record [("status", .str status), (field, .float now.time)]) key = find? record key := by
    simp [not_status, not_field]
  have found_status : find? (update record [("status", .str status), (field, .float now.time)]) "status" = some (.str status) := by
    rcases timed with rfl | rfl <;> simp
  refine ⟨?_, ?_, ?_, fun _ => ⟨status, listed, by rw [textField, found_status], fun waiting => absurd waiting other⟩, ?_⟩
  · rw [intField_congr (kept _ (by decide) (by rcases timed with rfl | rfl <;> decide)), valid.schema]
  · rw [textField_congr (kept _ (by decide) (by rcases timed with rfl | rfl <;> decide)), valid.stage]
  · rw [intField_congr (kept _ (by decide) (by rcases timed with rfl | rfl <;> decide))]
    exact valid.count
  · intro key inside v found
    by_cases here : key = field
    · subst here
      simp only [update_cons, update_nil, find?_set, if_true, Option.some_inj] at found
      subst found
      exact now.validTime
    · have not_status : key ≠ "status" := by
        rintro rfl
        revert inside
        decide
      rw [kept key not_status here] at found
      exact valid.times key inside v found

theorem valid_recovered (valid : Valid stage .infrastructure record) (now : Instant F) :
    Valid stage .infrastructure (recoveredRecord record now) :=
  valid.settled (by simp [STATUSES]) (by decide) (.inl rfl) now

theorem valid_stepFailed (valid : Valid stage .infrastructure record) (now : Instant F) :
    Valid stage .infrastructure (stepFailedRecord record now) :=
  valid.settled (by simp [STATUSES]) (by decide) (.inr rfl) now

/-! ### The deadline of a wait that is resumed -/

theorem addPoll_value {v : Json F} {q : ℚ} (here : value v = some q) (nonneg : 0 ≤ q) :
    ∃ q', value (addPoll v) = some q' ∧ 0 ≤ q' := by
  cases v with
  | int n =>
      cases here
      refine ⟨((n + POLL_SECONDS : Int) : ℚ), rfl, ?_⟩
      have at_least : (0 : Int) ≤ n := by exact_mod_cast nonneg
      have positive : (0 : Int) ≤ n + POLL_SECONDS := by
        rw [POLL_SECONDS]
        omega
      exact_mod_cast positive
  | float x =>
      obtain ⟨q', later, at_least⟩ := ClockFloat.addPoll_later x q here nonneg
      exact ⟨q', later, nonneg.trans at_least⟩
  | _ => cases here

theorem isFinite_of_le {v w : Json F} {q q' : ℚ} (finite : isFinite w = true) (here : value w = some q')
    (given : value v = some q) (nonneg : 0 ≤ q) (less : q ≤ q') : isFinite v = true := by
  cases v with
  | int n =>
      cases given
      have bound : q' < FLOAT_LIMIT := by
        cases w with
        | int m =>
            cases here
            simp only [isFinite, decide_eq_true_eq] at finite
            exact_mod_cast finite.2
        | float y => exact ClockFloat.number_small y q' here
        | _ => cases here
      have low : (0 : Int) ≤ n := by exact_mod_cast nonneg
      have high : n < FLOAT_LIMIT := by exact_mod_cast less.trans_lt bound
      have limit : 0 < FLOAT_LIMIT := sub_pos.mpr (pow_lt_pow_right₀ (by norm_num) (by norm_num))
      simp only [isFinite, decide_eq_true_eq]
      omega
  | float x => simp [isFinite, show ClockFloat.number x = some q from given]
  | _ => cases given

/-- The smaller one of two times is no later than the first one, and as valid. -/
theorem minTime_spec {a b : Json F} {q : ℚ} (valid : validTime a = true) (here : value a = some q)
    (other : ∃ q', value b = some q' ∧ 0 ≤ q') :
    validTime (minTime a b) = true ∧ ∃ q', value (minTime a b) = some q' ∧ q' ≤ q := by
  obtain ⟨q', there, nonneg⟩ := other
  rw [minTime, here, there]
  dsimp only
  split
  · rename_i less
    rw [validTime_iff] at valid ⊢
    exact ⟨⟨isFinite_of_le valid.1 here there nonneg less.le, q', there, nonneg⟩, q', there, less.le⟩
  · exact ⟨valid, q, here, le_rfl⟩

theorem Valid.next_retry (valid : Valid stage .infrastructure record) (waiting : textField record "status" = some WAITING) :
    ∃ q, find? record "next_retry_at" = some (get record "next_retry_at") ∧ validTime (get record "next_retry_at") = true ∧
      value (get record "next_retry_at") = some q := by
  obtain ⟨status, -, found, scheduled⟩ := valid.status rfl
  rw [waiting, Option.some_inj] at found
  obtain ⟨v, here⟩ := Option.isSome_iff_exists.mp (scheduled found.symm)
  have same : get record "next_retry_at" = v := by
    unfold Json.get
    rw [here, Option.getD_some]
  have timed := valid.times "next_retry_at" (by decide) v here
  obtain ⟨-, q, number, -⟩ := validTime_iff.mp timed
  rw [same]
  exact ⟨q, here, timed, number⟩

/-- A wait that is resumed is not prolonged. -/
theorem resumedDeadline_spec (valid : Valid stage .infrastructure record) (waiting : textField record "status" = some WAITING)
    (now : Instant F) {q : ℚ} (here : value (get record "next_retry_at") = some q) :
    validTime (resumedDeadline record now) = true ∧ ∃ q', value (resumedDeadline record now) = some q' ∧ q' ≤ q := by
  obtain ⟨-, -, timed, -⟩ := valid.next_retry waiting
  refine minTime_spec timed here ?_
  cases failed : find? record "last_failure_at" with
  | none => exact addPoll_value (v := .float now.time) now.here now.nonneg
  | some v =>
      obtain ⟨-, p, number, nonneg⟩ := validTime_iff.mp (valid.times "last_failure_at" (by decide) v failed)
      exact addPoll_value number nonneg

theorem valid_resumed (valid : Valid stage .infrastructure record) (waiting : textField record "status" = some WAITING)
    (now : Instant F) : Valid stage .infrastructure (update record
      [("next_retry_at", resumedDeadline record now), ("poll_seconds", .int POLL_SECONDS)]) := by
  obtain ⟨q, -, -, here⟩ := valid.next_retry waiting
  have timed := (resumedDeadline_spec valid waiting now here).1
  have kept (key : String) (not_next : key ≠ "next_retry_at") (not_poll : key ≠ "poll_seconds") : find? (update record
      [("next_retry_at", resumedDeadline record now), ("poll_seconds", .int POLL_SECONDS)]) key = find? record key := by
    simp [not_next, not_poll]
  refine ⟨?_, ?_, ?_, fun _ => ⟨WAITING, by simp [STATUSES], ?_, fun _ => by simp⟩, ?_⟩
  · rw [intField_congr (kept _ (by decide) (by decide)), valid.schema]
  · rw [textField_congr (kept _ (by decide) (by decide)), valid.stage]
  · rw [intField_congr (kept _ (by decide) (by decide))]
    exact valid.count
  · rw [textField_congr (kept _ (by decide) (by decide)), waiting]
  · intro field inside v found
    by_cases next : field = "next_retry_at"
    · subst next
      simp only [update_cons, update_nil, find?_set, if_true] at found
      rw [if_neg (by decide), Option.some_inj] at found
      subst found
      exact timed
    · have not_poll : field ≠ "poll_seconds" := by
        rintro rfl
        revert inside
        decide
      rw [kept field next not_poll] at found
      exact valid.times field inside v found

/-! ### Distinct keys -/

omit [ClockFloat F] in
theorem distinct_set {key : String} {v : Json F} (distinct : Distinct (.obj record : Json F)) (scalar : Distinct v) :
    Distinct (.obj (set record key v) : Json F) := by
  rw [Distinct] at distinct ⊢
  refine ⟨keys_set record key v distinct.1, distinct_members _ fun item member => ?_⟩
  rcases mem_set record key v item member with old | rfl
  · exact distinct_member record distinct.2 item old
  · exact scalar

theorem distinct_recovered (distinct : Distinct (.obj record : Json F)) (now : Instant F) :
    Distinct (.obj (recoveredRecord record now) : Json F) :=
  distinct_set (distinct_set distinct trivial) trivial

theorem distinct_stepFailed (distinct : Distinct (.obj record : Json F)) (now : Instant F) :
    Distinct (.obj (stepFailedRecord record now) : Json F) :=
  distinct_set (distinct_set distinct trivial) trivial

theorem distinct_waiting (stage : String) (retries : Int) (now : Instant F) (reason : String) :
    Distinct (.obj (waitingRecord stage retries now reason) : Json F) := by
  rw [Distinct]
  exact ⟨by simp [waitingRecord], by simp [waitingRecord, DistinctMembers, Distinct, addPoll]⟩

theorem distinct_timeout (stage : String) (count : Int) (now : Instant F) :
    Distinct (.obj (timeoutRecord stage count now) : Json F) := by
  rw [Distinct]
  exact ⟨by simp [timeoutRecord], by simp [timeoutRecord, DistinctMembers, Distinct]⟩

omit [ClockFloat F] in
theorem distinct_clear (stage : String) : Distinct (.obj (clearRecord stage) : Json F) := by
  rw [Distinct]
  exact ⟨by simp [clearRecord], by simp [clearRecord, DistinctMembers, Distinct]⟩

theorem value_scalar {v : Json F} {q : ℚ} (here : value v = some q) : Distinct v := by
  cases v with
  | int n => trivial
  | float x => trivial
  | _ => cases here

theorem load_valid {file : Option Bytes} (loaded : loadRetryState file stage category = some record) :
    record = [] ∨ (Valid stage category record ∧ Distinct (.obj record : Json F)) := by
  cases file with
  | none =>
      cases loaded
      exact .inl rfl
  | some data =>
      right
      rw [loadRetryState] at loaded
      split at loaded
      · cases loaded
      · obtain ⟨text, -, loaded⟩ := Option.bind_eq_some_iff.mp loaded
        obtain ⟨document, read, loaded⟩ := Option.bind_eq_some_iff.mp loaded
        cases document with
        | obj items =>
            dsimp only at loaded
            split at loaded
            · rename_i valid
              cases loaded
              exact ⟨isValid_iff.mp valid, loads_distinct _ _ read⟩
            · cases loaded
        | _ => cases loaded

/-! ### The file of the timeouts -/

/-- A record of the timeouts in the order of its keys. -/
def timeoutSorted (stage : String) (count : Int) (now : Instant F) : Dict F :=
  [("last_timeout_at", .float now.time), ("schema_version", .int 1), ("stage", .str stage), ("timeout_count", .int count)]

theorem timeout_order (stage : String) (count : Int) (now : Instant F) :
    sortKeys (.obj (timeoutRecord stage count now) : Json F) = .obj (timeoutSorted stage count now) := by
  unfold timeoutRecord timeoutSorted
  simp [sortKeys, sortMembers, List.insertionSort_cons, List.orderedInsert]

omit [ClockFloat F] in
theorem clear_order (stage : String) : sortKeys (.obj (clearRecord stage) : Json F) = .obj (clearRecord stage) := by
  unfold clearRecord
  simp [sortKeys, sortMembers, List.insertionSort_cons]

theorem valid_timeout {count : Int} (nonneg : 0 ≤ count) (at_most : count ≤ 2) (now : Instant F) :
    Valid stage .reviewTimeouts (timeoutSorted stage count now) := by
  refine ⟨by simp [intField, timeoutSorted], by simp [textField, timeoutSorted], ⟨count, ?_, nonneg, fun _ => at_most⟩, nofun, ?_⟩
  · simp [intField, timeoutSorted, Category.countKey]
  · intro field listed v found
    simp only [TIME_FIELDS, List.mem_cons, List.not_mem_nil, or_false] at listed
    rcases listed with rfl | rfl | rfl | rfl | rfl <;> simp [timeoutSorted] at found
    subst found
    exact now.validTime

theorem valid_clear : Valid stage .reviewTimeouts (clearRecord stage : Dict F) := by
  refine ⟨by simp [intField, clearRecord], by simp [textField, clearRecord], ⟨0, ?_, le_rfl, fun _ => by decide⟩, nofun, ?_⟩
  · simp [intField, clearRecord, Category.countKey]
  · intro field listed v found
    simp only [TIME_FIELDS, List.mem_cons, List.not_mem_nil, or_false] at listed
    rcases listed with rfl | rfl | rfl | rfl | rfl <;> simp [clearRecord] at found

theorem timeoutSorted_find (stage : String) (count : Int) (now : Instant F) (key : String) :
    find? (timeoutSorted stage count now) key = find? (timeoutRecord stage count now) key := by
  have last : timeoutRecord stage count now = (timeoutSorted stage count now).tail ++ [("last_timeout_at", .float now.time)] := rfl
  have first : timeoutSorted stage count now = ("last_timeout_at", .float now.time) :: (timeoutSorted stage count now).tail := rfl
  rw [last, find?_append, first, find?_cons, List.tail_cons, find?_cons, find?_nil]
  by_cases timed : "last_timeout_at" = key
  · subst timed
    simp [timeoutSorted]
  · simp [timed]

end AtrexAgent.RetryState
