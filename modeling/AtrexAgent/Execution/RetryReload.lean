import AtrexAgent.Execution.RetryLoops
import AtrexAgent.Workspace.Snapshot

/-! What is kept of a stage's retry state over its runs, and which records a restart accepts. -/

namespace AtrexAgent.RetryLoops

open AtrexAgent.Json
open AtrexAgent.Sources
open AtrexAgent.RetryState

variable {F : Type} [ClockFloat F]

/-- A record that was written is loaded, with the same value under every key. -/
def Accepted (stage : String) (write : Write F) : Prop :=
  ∃ record, loadRetryState (some write.data) stage write.category = some record ∧
    ∀ key, find? record key = find? write.record key

/-- The bytes of a text in a record, between its quotes. -/
def textBytes (text : String) : Nat := (encode (String.ofList (text.toList.flatMap escapeChar))).length

/-- The bytes of the record that is written next, as far as one is. -/
def due (stage : String) (disk : Disk) (now : Instant F) : Place F → Nat
  | .entering _ => (loadRetryState disk.outage stage .infrastructure).elim 0 fun record =>
      (resumed? record now).elim 0 fun record' => (durableIndented record').length
  | .after _ record .success => (durableIndented (recoveredRecord record now)).length
  | .after count _ .timeout => (durableCompact (timeoutRecord stage (count + 1) now)).length
  | .after _ record (.outage reason) =>
      (durableIndented (waitingRecord stage (countOf record "retry_count" + 1) now "")).length + textBytes reason
  | .after _ record .failure => (durableIndented (stepFailedRecord record now)).length
  | .clearing _ => (durableCompact (clearRecord stage : Dict F)).length
  | _ => 0

/-- The budget is whole again. -/
def Cleared (F : Type) [ClockFloat F] (stage : String) (disk : Disk) : Prop :=
  disk.timeouts = some (durableCompact (clearRecord stage : Dict F)) ∨
    ∃ record : Dict F, loadRetryState disk.timeouts stage .reviewTimeouts = some record ∧ countOf record "timeout_count" = 0

variable {stage : String} {disk : Disk} {place place' : Place F} {log : List (Label F)} {s s' : State F}

/-! ### The records that are written -/

/-- What a process writes. -/
inductive Sound (stage : String) : Write F → Prop
  | outage {record : Dict F} (valid : Valid stage .infrastructure record) (distinct : Distinct (.obj record : Json F)) :
      Sound stage ⟨.infrastructure, record⟩
  | timeout {count : Int} (nonneg : 0 ≤ count) (at_most : count ≤ 2) (now : Instant F) :
      Sound stage ⟨.reviewTimeouts, timeoutRecord stage count now⟩
  | clear : Sound stage ⟨.reviewTimeouts, clearRecord stage⟩

theorem accepted_of_load {write : Write F} {record : Dict F} (same : ∀ key, find? record key = find? write.record key)
    (read : loadRetryState (some write.data) stage write.category =
      if MAX_STATE_BYTES < write.data.length then none else some record) :
    Accepted stage write ↔ write.data.length ≤ MAX_STATE_BYTES := by
  rw [Accepted, read]
  split
  · rename_i large
    simpa using large
  · rename_i small
    simpa [Nat.le_of_not_lt small] using same

theorem accepted_iff {write : Write F} (sound : Sound stage write) :
    Accepted stage write ↔ write.data.length ≤ MAX_STATE_BYTES := by
  cases sound with
  | outage valid distinct =>
      exact accepted_of_load (fun key => rfl) (load_indented (isValid_iff.mpr valid) distinct)
  | timeout nonneg at_most now =>
      apply accepted_of_load (timeoutSorted_find stage _ now)
      exact load_compact (timeout_order stage _ now) (distinct_timeout stage _ now) (isValid_iff.mpr (valid_timeout nonneg at_most now))
  | clear =>
      apply accepted_of_load (fun key => rfl)
      exact load_compact (clear_order stage) (distinct_clear stage) (isValid_iff.mpr valid_clear)

/-- In a reached state whatever is written next is sound. -/
theorem written_sound (inv : Inv stage log ⟨disk, place⟩) {now : Instant F} {write : Write F}
    (next : next? stage disk now place = some (some write, place')) : Sound stage write := by
  cases place with
  | stopped => cases next
  | attempting count record => cases next
  | entering count =>
      have went := entered_cases stage disk now count
      rw [Option.some.inj next] at went
      cases went with
      | shortened record record' loaded waiting resumed =>
          obtain ⟨valid, distinct, -⟩ := resumed_spec (load_valid loaded) waiting resumed
          exact .outage valid distinct
  | clearing count =>
      have cleared := congrArg Prod.fst (Option.some.inj next)
      dsimp only at cleared
      split at cleared
      · cases cleared
      · cases cleared
        exact .clear
  | after count record outcome =>
      have settles := congrArg Prod.fst (Option.some.inj next)
      cases outcome with
      | success =>
          simp only [settled] at settles
          split at settles
          · cases settles
          · rename_i empty
            cases settles
            obtain ⟨valid, distinct⟩ := inv.placed.2.1.resolve_left fun same => empty (by rw [same]; rfl)
            exact .outage (valid_recovered valid now) (distinct_recovered distinct now)
      | timeout =>
          cases settles
          obtain ⟨nonneg, below, -⟩ := inv.placed
          exact .timeout (by omega) (by omega) now
      | outage reason =>
          cases settles
          have retries := retries_nonneg inv.placed.2
          exact .outage (valid_waiting (by omega) now reason) (distinct_waiting stage _ now reason)
      | failure =>
          simp only [settled] at settles
          split at settles
          · cases settles
          · rename_i empty
            cases settles
            obtain ⟨valid, distinct⟩ := inv.placed.2.resolve_left fun same => empty (by rw [same]; rfl)
            exact .outage (valid_stepFailed valid now) (distinct_stepFailed distinct now)

/-! ### Their sizes -/

/-- The reason is the last text of an outage's record. -/
theorem waiting_text (stage : String) (retries : Int) (now : Instant F) : ∃ start : Text, ∀ reason,
    dumpsIndented 2 0 (.obj (waitingRecord stage retries now reason)) ++ ['\n'] =
      start ++ (reason.toList.flatMap escapeChar ++ ['"', '\n', '}', '\n']) := by
  obtain ⟨start, front⟩ := indentedMembers_append (F := F) 2 1 (waitingRecord stage retries now "").dropLast
  refine ⟨'{' :: (newline 2 1 ++ (start ++ (quoted "reason".toList ++ [':', ' ', '"']))), fun reason => ?_⟩
  have parts : waitingRecord stage retries now reason =
      (waitingRecord stage retries now "").dropLast ++ [("reason", .str reason)] := rfl
  have text : dumpsIndented 2 0 (.obj (waitingRecord stage retries now reason)) =
      '{' :: (newline 2 1 ++ (indentedMembers 2 1 (waitingRecord stage retries now reason) ++ (newline 2 0 ++ ['}']))) := by
    rw [waitingRecord, dumpsIndented]
  rw [text, parts, front]
  simp [indentedMembers, dumpsIndented, dumpsWith, quoted, newline]

theorem waiting_bytes (stage : String) (retries : Int) (now : Instant F) (reason : String) :
    (durableIndented (waitingRecord stage retries now reason)).length =
      (durableIndented (waitingRecord stage retries now "")).length + textBytes reason := by
  obtain ⟨start, parts⟩ := waiting_text stage retries now
  have none : (encode "").length = 0 := rfl
  unfold durableIndented textBytes
  rw [parts reason, parts ""]
  simp only [encodeText_append, List.length_append, String.toList_empty, List.flatMap_nil, List.nil_append]
  omega

theorem written_due {now : Instant F} {write : Write F} (next : next? stage disk now place = some (some write, place')) :
    write.data.length = due stage disk now place := by
  cases place with
  | stopped => cases next
  | attempting count record => cases next
  | entering count =>
      have went := entered_cases stage disk now count
      rw [Option.some.inj next] at went
      cases went with
      | shortened record record' loaded waiting resumed => simp [due, loaded, resumed, Write.data]
  | clearing count =>
      have cleared := congrArg Prod.fst (Option.some.inj next)
      dsimp only at cleared
      split at cleared
      · cases cleared
      · cases cleared
        rfl
  | after count record outcome =>
      have settles := congrArg Prod.fst (Option.some.inj next)
      cases outcome with
      | success =>
          simp only [settled] at settles
          split at settles
          · cases settles
          · cases settles
            rfl
      | timeout =>
          cases settles
          rfl
      | outage reason =>
          cases settles
          exact waiting_bytes stage _ now reason
      | failure =>
          simp only [settled] at settles
          split at settles
          · cases settles
          · cases settles
            rfl

/-! ### Clearing and restarts -/

theorem clearing_clears {count : Int} {write : Option (Write F)} (inv : Inv stage log ⟨disk, (.clearing count : Place F)⟩)
    (step : Step stage ⟨disk, .clearing count⟩ (.went write) s') : Cleared F stage s'.disk := by
  cases step with
  | went _ _ _ now _ next =>
      cases next
      by_cases none_yet : count = 0
      · rw [if_pos none_yet]
        exact .inr (inv.placed.2 none_yet)
      · rw [if_neg none_yet]
        exact .inl rfl

theorem restart_deadline {lost : Bool} (inv : Inv stage log s) (step : Step stage s (.restart lost) s') :
    NoLater (scheduled stage s') (scheduled stage s) := by
  cases step with
  | restart disk place =>
      cases place with
      | attempting count record => exact attempting_deadline inv
      | _ => exact NoLater.refl _

/-- In every reached state: at most two timeouts since a success, but for those that a restart kept from being written;
only a timeout spends the budget, and a success clears it; no restart moves a deadline later; and what is written next is
accepted exactly where its bytes are within the loader's limit. -/
theorem retry_state_kept (run : Run stage ⟨disk, .stopped⟩ log s) :
    timeoutsSince log ≤ 2 + lostSince log ∧
    (∀ later s', Run stage s later s' → s.place.unwritten = false → .outcome .timeout ∉ later →
      s'.disk.timeouts = s.disk.timeouts ∨ s'.disk.timeouts = some (durableCompact (clearRecord stage : Dict F))) ∧
    (∀ count write s', s.place = .clearing count → Step stage s (.went write) s' → Cleared F stage s'.disk) ∧
    (∀ lost s', Step stage s (.restart lost) s' → NoLater (scheduled stage s') (scheduled stage s)) ∧
    (∀ later s', Run stage s later s' → s.place.pending = false → (∀ reason, .outcome (.outage reason) ∉ later) →
      NoLater (scheduled stage s') (scheduled stage s)) ∧
    ∀ now write place', next? stage s.disk now s.place = some (some write, place') →
      (Accepted stage write ↔ due stage s.disk now s.place ≤ MAX_STATE_BYTES) := by
  have inv := run_inv run
  refine ⟨?_, fun later s' run' written none_timed => (timeouts_run written none_timed run').1, ?_,
    fun lost s' step => restart_deadline inv step,
    fun later s' run' written quiet => (scheduled_run inv written quiet run').2.2, fun now write place' next => ?_⟩
  · have bound := inv.bound
    omega
  · intro count write s' here step
    obtain ⟨disk', place'⟩ := s
    cases here
    exact clearing_clears inv step
  · rw [accepted_iff (written_sound inv next), written_due next]

/-! ### A reason that is too long -/

/-- Floats of whole seconds, as long as every one is a float. -/
def WholeSeconds : Type := Fin (2 ^ 53)

theorem whole_within : (2 : ℤ) ^ 53 ≤ FLOAT_LIMIT := by
  have power : (2 : ℤ) ^ 53 ≤ 2 ^ 970 := pow_le_pow_right₀ (by norm_num) (by norm_num)
  calc (2 : ℤ) ^ 53 ≤ 2 ^ 970 := power
    _ ≤ 2 ^ 970 * (2 ^ 54 - 1) := le_mul_of_one_le_right (by positivity) (by norm_num)
    _ = FLOAT_LIMIT := by rw [FLOAT_LIMIT, mul_sub, ← pow_add, mul_one]

def wholeSeconds (n : Nat) : WholeSeconds := Fin.ofNat (2 ^ 53) n

instance : FloatText WholeSeconds where
  literal x := .decimal ⟨false, decimal x.val, some ['0'], none⟩
  value
    | .decimal n => wholeSeconds (ofDecimal n.whole)
    | _ => wholeSeconds 0
  value_literal x := by
    change wholeSeconds (ofDecimal (decimal x.val)) = x
    rw [ofDecimal_decimal]
    exact Fin.ext (Nat.mod_eq_of_lt x.isLt)
  valid x n same := by
    cases same
    exact ⟨⟨decimal_whole _, by simp [Digits, isDigit], by simp⟩, .inl rfl⟩

instance : ClockFloat WholeSeconds where
  number x := some x.val
  addPoll x := if x.val + 60 < 2 ^ 53 then wholeSeconds (x.val + 60) else x
  number_small x q here := by
    cases here
    have small : (x.val : ℤ) < 2 ^ 53 := by exact_mod_cast x.isLt
    exact_mod_cast small.trans_le whole_within
  addPoll_later x q here _ := by
    cases here
    refine ⟨_, rfl, ?_⟩
    split
    · rename_i small
      have same : (wholeSeconds (x.val + 60)).val = x.val + 60 := Nat.mod_eq_of_lt small
      rw [same]
      exact_mod_cast Nat.le_add_right _ _
    · exact le_rfl

def noon : Instant WholeSeconds where
  time := wholeSeconds 1700000000
  number := 1700000000
  here := by
    have same : (wholeSeconds 1700000000).val = 1700000000 := Nat.mod_eq_of_lt (by norm_num)
    change some ((wholeSeconds 1700000000).val : ℚ) = some 1700000000
    rw [same]
    norm_num
  nonneg := by norm_num

/-- A reason of many letters. -/
def reasonOf (n : Nat) : String := String.ofList (List.replicate n 'x')

theorem reasonOf_bytes (n : Nat) : textBytes (reasonOf n) = n := by
  have plain : (List.replicate n 'x').flatMap escapeChar = List.replicate n 'x' := by
    induction n with
    | zero => rfl
    | succ n ih =>
        rw [List.replicate_succ, List.flatMap_cons, ih]
        rfl
  have narrow : ∀ c ∈ List.replicate n 'x', c.toNat < 127 := by
    intro c member
    rw [List.eq_of_mem_replicate member]
    decide
  rw [textBytes, reasonOf, String.toList_ofList, plain, length_narrow narrow, List.length_replicate]

theorem durableIndented_pos (record : Dict F) : 0 < (durableIndented record).length := by
  have last : 0 < (encode (String.ofList ['\n'])).length := by decide
  rw [durableIndented, encodeText_append, List.length_append]
  omega

/-- The stage has just met an outage. -/
def met : State WholeSeconds := ⟨⟨none, none⟩, .after 0 [] (.outage (reasonOf MAX_STATE_BYTES))⟩

theorem met_run : Run "review" ⟨⟨none, none⟩, .stopped⟩ [.outcome (.outage (reasonOf MAX_STATE_BYTES)), .went none, .opened] met := by
  apply Run.step (s := ⟨⟨none, none⟩, .attempting 0 []⟩) _ (.outcome _ _ _ _)
  apply Run.step (s := ⟨⟨none, none⟩, .entering 0⟩) _ (.went _ _ _ noon _ rfl)
  exact .step .nil (.opened _)

theorem met_next : next? "review" met.disk noon met.place =
    some (some ⟨.infrastructure, waitingRecord "review" 1 noon (reasonOf MAX_STATE_BYTES)⟩,
      .attempting 0 (waitingRecord "review" 1 noon (reasonOf MAX_STATE_BYTES))) := rfl

theorem retry_state_kept_met :
    Accepted "review" ⟨.infrastructure, waitingRecord "review" 1 noon (reasonOf MAX_STATE_BYTES)⟩ ↔
      due "review" met.disk noon met.place ≤ MAX_STATE_BYTES :=
  (retry_state_kept met_run).2.2.2.2.2 noon _ _ met_next

/-- An outage with a long reason is written and then refused. -/
theorem long_reason_refused : ¬ ∀ (stage : String) (disk : Disk) (log : List (Label WholeSeconds)) (s : State WholeSeconds),
    Run stage ⟨disk, .stopped⟩ log s → ∀ now write place',
      next? stage s.disk now s.place = some (some write, place') → Accepted stage write := by
  intro always
  have accepted := always "review" ⟨none, none⟩ _ met met_run noon _ _ met_next
  rw [accepted_iff (written_sound (run_inv met_run) met_next), written_due met_next, met, due, reasonOf_bytes] at accepted
  have some_bytes := durableIndented_pos (waitingRecord "review" (countOf ([] : Dict WholeSeconds) "retry_count" + 1) noon "")
  omega

end AtrexAgent.RetryLoops
