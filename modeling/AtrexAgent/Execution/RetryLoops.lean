import AtrexAgent.Execution.RetryState

/-! The two retry loops of a review stage as one machine: attempts and their outcomes, each write of a state file, and
restarts between them. -/

namespace AtrexAgent.RetryLoops

open AtrexAgent.Json
open AtrexAgent.Sources
open AtrexAgent.RetryState

variable {F : Type} [ClockFloat F]

/-- The state files of a stage. -/
structure Disk where
  timeouts : Option Bytes
  outage : Option Bytes

inductive Outcome where
  | success
  | timeout
  | outage (reason : String)
  | failure

/-- Where `retry_review` stands. -/
inductive Place (F : Type) where
  /-- No process works on the stage. -/
  | stopped
  /-- Before `retry_infrastructure` is called. -/
  | entering (count : Int)
  /-- Before the operation, after the wait that its record asks for. -/
  | attempting (count : Int) (record : Dict F)
  /-- After an outcome, before its write. -/
  | after (count : Int) (record : Dict F) (outcome : Outcome)
  /-- After a success, back in `retry_review`. -/
  | clearing (count : Int)

structure State (F : Type) where
  disk : Disk
  place : Place F

/-- A write of a state file. -/
structure Write (F : Type) where
  category : Category
  record : Dict F

def Write.data (write : Write F) : Bytes :=
  match write.category with
  | .infrastructure => durableIndented write.record
  | .reviewTimeouts => durableCompact write.record

def Disk.write (disk : Disk) (write : Write F) : Disk :=
  match write.category with
  | .infrastructure => { disk with outage := some write.data }
  | .reviewTimeouts => { disk with timeouts := some write.data }

def countOf (record : Dict F) (key : String) : Int := (intField record key).getD 0

def isWaiting (record : Dict F) : Prop := textField record "status" = some WAITING

instance (record : Dict F) : Decidable (isWaiting record) := inferInstanceAs (Decidable (_ = _))

/-- `retry_review` up to its loop. -/
def opened (stage : String) (disk : Disk) : Place F :=
  match loadRetryState (F := F) disk.timeouts stage .reviewTimeouts with
  | none => .stopped
  | some record => if countOf record "timeout_count" < 2 then .entering (countOf record "timeout_count") else .stopped

/-- `retry_infrastructure` up to its loop. -/
def entered (stage : String) (disk : Disk) (now : Instant F) (count : Int) : Option (Write F) × Place F :=
  match loadRetryState disk.outage stage .infrastructure with
  | none => (none, .stopped)
  | some record =>
      match if isWaiting record then resumed? record now else none with
      | some record' => (some ⟨.infrastructure, record'⟩, .attempting count record')
      | none => (none, .attempting count record)

/-- What follows an outcome. -/
def settled (stage : String) (now : Instant F) (count : Int) (record : Dict F) : Outcome → Option (Write F) × Place F
  | .success =>
      (if record.isEmpty then none else some ⟨.infrastructure, recoveredRecord record now⟩, .clearing count)
  | .timeout =>
      (some ⟨.reviewTimeouts, timeoutRecord stage (count + 1) now⟩,
        if count + 1 < 2 then .entering (count + 1) else .stopped)
  | .outage reason =>
      let record' := waitingRecord stage (countOf record "retry_count" + 1) now reason
      (some ⟨.infrastructure, record'⟩, .attempting count record')
  | .failure => (if record.isEmpty then none else some ⟨.infrastructure, stepFailedRecord record now⟩, .stopped)

/-- What the process does by itself: the write, if any, and where it stands then. -/
def next? (stage : String) (disk : Disk) (now : Instant F) : Place F → Option (Option (Write F) × Place F)
  | .stopped => none
  | .entering count => some (entered stage disk now count)
  | .attempting _ _ => none
  | .after count record outcome => some (settled stage now count record outcome)
  | .clearing count => some (if count = 0 then none else some ⟨.reviewTimeouts, clearRecord stage⟩, .stopped)

inductive Label (F : Type) where
  | opened
  | outcome (outcome : Outcome)
  | went (write : Option (Write F))
  | restart (lost : Bool)

/-- A timeout that is not written yet. -/
def Place.unwritten : Place F → Bool
  | .after _ _ .timeout => true
  | _ => false

/-- A process may stop anywhere, also when it is cancelled; it starts again from the files. -/
inductive Step (stage : String) : State F → Label F → State F → Prop
  | opened (disk : Disk) : Step stage ⟨disk, .stopped⟩ .opened ⟨disk, opened stage disk⟩
  | outcome (disk : Disk) (count : Int) (record : Dict F) (outcome : Outcome) :
      Step stage ⟨disk, .attempting count record⟩ (.outcome outcome) ⟨disk, .after count record outcome⟩
  | went (disk : Disk) (place place' : Place F) (now : Instant F) (write : Option (Write F))
      (next : next? stage disk now place = some (write, place')) :
      Step stage ⟨disk, place⟩ (.went write) ⟨write.elim disk disk.write, place'⟩
  | restart (disk : Disk) (place : Place F) : Step stage ⟨disk, place⟩ (.restart place.unwritten) ⟨disk, .stopped⟩

/-- A run, with what happened in it, newest first. -/
inductive Run (stage : String) (start : State F) : List (Label F) → State F → Prop
  | nil : Run stage start [] start
  | step {log : List (Label F)} {label : Label F} {s s' : State F} (run : Run stage start log s) (step : Step stage s label s') :
      Run stage start (label :: log) s'

/-- The timeouts since the last success. -/
def timeoutsSince : List (Label F) → Nat
  | [] => 0
  | .outcome .success :: _ => 0
  | .outcome .timeout :: before => timeoutsSince before + 1
  | _ :: before => timeoutsSince before

/-- Of these, the ones that a restart kept from being written. -/
def lostSince : List (Label F) → Nat
  | [] => 0
  | .outcome .success :: _ => 0
  | .restart true :: before => lostSince before + 1
  | _ :: before => lostSince before

omit [ClockFloat F] in
@[simp] theorem timeoutsSince_went (write : Option (Write F)) (log : List (Label F)) :
    timeoutsSince (.went write :: log) = timeoutsSince log := rfl

omit [ClockFloat F] in
@[simp] theorem lostSince_went (write : Option (Write F)) (log : List (Label F)) :
    lostSince (.went write :: log) = lostSince log := rfl

/-- The deadline of the wait in the file. -/
def deadline (F : Type) [ClockFloat F] (stage : String) (disk : Disk) : Option ℚ :=
  (loadRetryState (F := F) disk.outage stage .infrastructure).bind fun record =>
    if isWaiting record then value (get record "next_retry_at") else none

/-- The deadline that is scheduled: in the record that the process has, or in the file. -/
def scheduled (stage : String) (s : State F) : Option ℚ :=
  match s.place with
  | .attempting _ record => if isWaiting record then value (Json.get record "next_retry_at") else none
  | _ => deadline F stage s.disk

/-! ### What holds in a run -/

variable {stage : String} {disk : Disk} {place place' : Place F} {log : List (Label F)} {s s' : State F} {label : Label F}

/-- A record that a process has: none, or a valid one. -/
def Held (stage : String) (record : Dict F) : Prop :=
  record = [] ∨ (Valid stage .infrastructure record ∧ Distinct (.obj record : Json F))

/-- A count of no timeouts is that of the file. -/
def Tracked (F : Type) [ClockFloat F] (stage : String) (disk : Disk) (count : Int) : Prop := count = 0 →
  ∃ record : Dict F, loadRetryState disk.timeouts stage .reviewTimeouts = some record ∧ countOf record "timeout_count" = 0

structure Counted (stage : String) (log : List (Label F)) (disk : Disk) (count : Int) : Prop where
  nonneg : 0 ≤ count
  below : count < 2
  covers : (timeoutsSince log : Int) ≤ lostSince log + count
  tracked : Tracked F stage disk count

/-- What a process knows where it stands. -/
def Placed (stage : String) (log : List (Label F)) (disk : Disk) : Place F → Prop
  | .stopped => True
  | .entering count => Counted stage log disk count
  | .attempting count record => Counted stage log disk count ∧ Held stage record ∧
      (loadRetryState disk.outage stage .infrastructure = some record ∨
        loadRetryState (F := F) disk.outage stage .infrastructure = none)
  | .after count record .success => timeoutsSince log = 0 ∧ Held stage record ∧ Tracked F stage disk count
  | .after count record .timeout =>
      0 ≤ count ∧ count < 2 ∧ (timeoutsSince log : Int) ≤ lostSince log + count + 1 ∧ Held stage record
  | .after count record _ => Counted stage log disk count ∧ Held stage record
  | .clearing count => timeoutsSince log = 0 ∧ Tracked F stage disk count

structure Inv (stage : String) (log : List (Label F)) (s : State F) : Prop where
  bound : timeoutsSince log ≤ lostSince log + 2
  file : ∀ record : Dict F, loadRetryState s.disk.timeouts stage .reviewTimeouts = some record →
    (timeoutsSince log : Int) ≤ lostSince log + countOf record "timeout_count" + (if s.place.unwritten then 1 else 0)
  placed : Placed stage log s.disk s.place

theorem loaded_count {record : Dict F} (loaded : loadRetryState disk.timeouts stage .reviewTimeouts = some record) :
    0 ≤ countOf record "timeout_count" := by
  rcases load_valid loaded with rfl | ⟨valid, -⟩
  · exact le_rfl
  · obtain ⟨count, here, nonneg, -⟩ := valid.count
    rw [countOf, show intField record "timeout_count" = some count from here]
    exact nonneg

theorem retries_nonneg {record : Dict F} (held : Held stage record) : 0 ≤ countOf record "retry_count" := by
  rcases held with rfl | ⟨valid, -⟩
  · exact le_rfl
  · obtain ⟨count, here, nonneg, -⟩ := valid.count
    rw [countOf, show intField record "retry_count" = some count from here]
    exact nonneg

/-- A record that is written to the file of outages, and what is read back of it. -/
theorem written_outage {record : Dict F} (valid : Valid stage .infrastructure record)
    (distinct : Distinct (.obj record : Json F)) :
    loadRetryState (some (durableIndented record)) stage .infrastructure = some record ∨
      loadRetryState (F := F) (some (durableIndented record)) stage .infrastructure = none := by
  rw [load_indented (isValid_iff.mpr valid) distinct]
  split
  · exact .inr rfl
  · exact .inl rfl

/-! ### One step -/

theorem opened_placed (inv : Inv stage log ⟨disk, (.stopped : Place F)⟩) :
    Placed stage (.opened :: log) disk (opened stage disk : Place F) := by
  unfold opened
  split
  · trivial
  · rename_i record loaded
    split
    · rename_i below
      have covers := inv.file record loaded
      simp only [Place.unwritten, Bool.false_eq_true, if_false, add_zero] at covers
      exact ⟨loaded_count loaded, below, covers, fun none_yet => ⟨record, loaded, none_yet⟩⟩
    · trivial

theorem opened_written (stage : String) (disk : Disk) : (opened stage disk : Place F).unwritten = false := by
  unfold opened
  split
  · rfl
  · split <;> rfl

/-- What is resumed is valid, and waits no longer. -/
theorem resumed_spec {record record' : Dict F} {now : Instant F} (held : Held stage record) (waiting : isWaiting record)
    (resumed : resumed? record now = some record') : Valid stage .infrastructure record' ∧
      Distinct (.obj record' : Json F) ∧ isWaiting record' ∧
        ∃ q q', value (get record "next_retry_at") = some q ∧ value (get record' "next_retry_at") = some q' ∧ q' ≤ q := by
  have some_record : record ≠ [] := by
    rintro rfl
    cases waiting
  obtain ⟨valid, distinct⟩ := held.resolve_left some_record
  obtain ⟨q, -, -, here⟩ := valid.next_retry waiting
  obtain ⟨timed, q', there, less⟩ := resumedDeadline_spec valid waiting now here
  unfold resumed? at resumed
  split at resumed
  · cases resumed
    refine ⟨valid_resumed valid waiting now, distinct_set (distinct_set distinct (value_scalar there)) trivial, ?_,
      q, q', here, ?_, less⟩
    · have same : find? (update record [("next_retry_at", resumedDeadline record now), ("poll_seconds", .int POLL_SECONDS)])
          "status" = find? record "status" := by simp
      rw [isWaiting, textField_congr same]
      exact waiting
    · simpa using there
  · cases resumed

/-- What entering does: it is blocked, goes on from the record of the file, or shortens a wait first. -/
inductive Entered (stage : String) (disk : Disk) (now : Instant F) (count : Int) : Option (Write F) → Place F → Prop
  | blocked (unread : loadRetryState (F := F) disk.outage stage .infrastructure = none) :
      Entered stage disk now count none .stopped
  | kept (record : Dict F) (loaded : loadRetryState disk.outage stage .infrastructure = some record) :
      Entered stage disk now count none (.attempting count record)
  | shortened (record record' : Dict F) (loaded : loadRetryState disk.outage stage .infrastructure = some record)
      (waiting : isWaiting record) (resumed : resumed? record now = some record') :
      Entered stage disk now count (some ⟨.infrastructure, record'⟩) (.attempting count record')

theorem entered_cases (stage : String) (disk : Disk) (now : Instant F) (count : Int) :
    Entered stage disk now count (entered stage disk now count).1 (entered stage disk now count).2 := by
  unfold entered
  split
  · rename_i unread
    exact .blocked unread
  · rename_i record loaded
    split
    · rename_i record' resumed
      split at resumed
      · rename_i waiting
        exact .shortened record record' loaded waiting resumed
      · cases resumed
    · exact .kept record loaded

/-- The file of the timeouts stays, and so does what is known of it. -/
theorem Inv.same_file (inv : Inv stage log ⟨disk, place⟩) (written : place.unwritten = false) {disk' : Disk}
    (same : disk'.timeouts = disk.timeouts) {write : Option (Write F)} (written' : place'.unwritten = false)
    (placed : Placed stage (.went write :: log) disk' place') : Inv stage (.went write :: log) ⟨disk', place'⟩ := by
  refine ⟨inv.bound, fun record loaded => ?_, placed⟩
  dsimp only at loaded ⊢
  rw [same] at loaded
  have covers := inv.file record loaded
  simp only [written] at covers
  simpa only [written', timeoutsSince_went, lostSince_went] using covers

theorem Counted.same_file {count : Int} (counted : Counted stage log disk count) {disk' : Disk}
    (same : disk'.timeouts = disk.timeouts) (write : Option (Write F)) :
    Counted stage (.went write :: log) disk' count := by
  refine ⟨counted.nonneg, counted.below, counted.covers, fun none_yet => ?_⟩
  rw [same]
  exact counted.tracked none_yet

theorem inv_entering {count : Int} (inv : Inv stage log ⟨disk, (.entering count : Place F)⟩) (now : Instant F) :
    Inv stage (.went (entered stage disk now count).1 :: log)
      ⟨(entered stage disk now count).1.elim disk disk.write, (entered stage disk now count).2⟩ := by
  have counted : Counted stage log disk count := inv.placed
  have went := entered_cases stage disk now count
  generalize entered stage disk now count = result at went
  obtain ⟨write, place'⟩ := result
  cases went with
  | blocked => exact inv.same_file rfl rfl rfl trivial
  | kept record loaded =>
      exact inv.same_file rfl rfl rfl ⟨counted.same_file rfl none, load_valid loaded, .inl loaded⟩
  | shortened record record' loaded waiting resumed =>
      obtain ⟨valid, distinct, -⟩ := resumed_spec (load_valid loaded) waiting resumed
      refine inv.same_file rfl (by rfl) (by rfl) ?_
      exact ⟨counted.same_file (by rfl) _, .inr ⟨valid, distinct⟩, written_outage valid distinct⟩

/-- The count that is written is read back, where anything is. -/
theorem load_timeout {count : Int} (nonneg : 0 ≤ count) (at_most : count ≤ 2) (now : Instant F) {record : Dict F}
    (loaded : loadRetryState (some (durableCompact (timeoutRecord stage count now))) stage .reviewTimeouts = some record) :
    countOf record "timeout_count" = count := by
  rw [load_compact (timeout_order stage count now) (distinct_timeout stage count now) (isValid_iff.mpr (valid_timeout nonneg at_most now))] at loaded
  split at loaded
  · cases loaded
  · cases loaded
    simp [countOf, intField, timeoutSorted]

theorem load_clear {record : Dict F}
    (loaded : loadRetryState (some (durableCompact (clearRecord stage : Dict F))) stage .reviewTimeouts = some record) :
    countOf record "timeout_count" = 0 := by
  rw [load_compact (clear_order stage) (distinct_clear stage) (isValid_iff.mpr valid_clear)] at loaded
  split at loaded
  · cases loaded
  · cases loaded
    simp [countOf, intField, clearRecord]

theorem inv_after {count : Int} {record : Dict F} {outcome : Outcome}
    (inv : Inv stage log ⟨disk, (.after count record outcome : Place F)⟩) (now : Instant F) :
    Inv stage (.went (settled stage now count record outcome).1 :: log)
      ⟨(settled stage now count record outcome).1.elim disk disk.write, (settled stage now count record outcome).2⟩ := by
  cases outcome with
  | success =>
      obtain ⟨cleared, -, tracked⟩ := inv.placed
      have same : ((settled stage now count record .success).1.elim disk disk.write).timeouts = disk.timeouts := by
        rw [settled]
        split <;> rfl
      refine inv.same_file rfl same rfl ⟨cleared, fun none_yet => ?_⟩
      rw [same]
      exact tracked none_yet
  | timeout =>
      obtain ⟨nonneg, below, covers, -⟩ := inv.placed
      rw [settled]
      refine ⟨inv.bound, fun loaded_record loaded => ?_, ?_⟩
      · have read := load_timeout (by omega) (by omega) now loaded
        rw [read, timeoutsSince_went, lostSince_went]
        split <;> omega
      · dsimp only
        split
        · rename_i again
          exact ⟨by omega, again, by rw [← add_assoc]; exact covers, fun none_yet => by omega⟩
        · trivial
  | outage reason =>
      obtain ⟨counted, held⟩ := inv.placed
      have more : 0 ≤ countOf record "retry_count" + 1 := by
        have retries := retries_nonneg held
        omega
      have valid : Valid stage .infrastructure _ := valid_waiting more now reason
      have distinct := distinct_waiting stage (countOf record "retry_count" + 1) now reason
      refine inv.same_file rfl (by rfl) (by rfl) ?_
      exact ⟨counted.same_file (by rfl) _, .inr ⟨valid, distinct⟩, written_outage valid distinct⟩
  | failure =>
      have same : ((settled stage now count record .failure).1.elim disk disk.write).timeouts = disk.timeouts := by
        rw [settled]
        split <;> rfl
      exact inv.same_file rfl same rfl trivial

theorem inv_clearing {count : Int} (inv : Inv stage log ⟨disk, (.clearing count : Place F)⟩) (write : Option (Write F))
    (cleared : write = if count = 0 then none else some ⟨.reviewTimeouts, clearRecord stage⟩) :
    Inv stage (.went write :: log) ⟨write.elim disk disk.write, .stopped⟩ := by
  obtain ⟨success, -⟩ := inv.placed
  subst cleared
  split
  · exact inv.same_file rfl rfl rfl trivial
  · refine ⟨inv.bound, fun record loaded => ?_, trivial⟩
    have read := load_clear loaded
    rw [read, timeoutsSince_went, success]
    split <;> omega

theorem inv_outcome {count : Int} {record : Dict F} (inv : Inv stage log ⟨disk, .attempting count record⟩)
    (outcome : Outcome) : Inv stage (.outcome outcome :: log) ⟨disk, .after count record outcome⟩ := by
  obtain ⟨counted, held, -⟩ := inv.placed
  have covers : ∀ loaded : Dict F, loadRetryState disk.timeouts stage .reviewTimeouts = some loaded →
      (timeoutsSince log : Int) ≤ lostSince log + countOf loaded "timeout_count" := by
    intro loaded read
    simpa [Place.unwritten] using inv.file loaded read
  cases outcome with
  | success =>
      refine ⟨Nat.zero_le _, fun loaded read => ?_, rfl, held, counted.tracked⟩
      have nonneg := loaded_count read
      simpa [timeoutsSince, lostSince, Place.unwritten] using nonneg
  | timeout =>
      have known := counted.covers
      have below := counted.below
      refine ⟨?_, fun loaded read => ?_, counted.nonneg, below, ?_, held⟩
      · simp only [timeoutsSince, lostSince]
        omega
      · have read := covers loaded read
        simp only [timeoutsSince, lostSince, Place.unwritten, if_true, Nat.cast_add, Nat.cast_one]
        omega
      · simp only [timeoutsSince, lostSince, Nat.cast_add, Nat.cast_one]
        omega
  | outage reason => exact ⟨inv.bound,
      fun loaded read => by simpa [timeoutsSince, lostSince, Place.unwritten] using covers loaded read,
      ⟨counted.nonneg, counted.below, counted.covers, counted.tracked⟩, held⟩
  | failure => exact ⟨inv.bound,
      fun loaded read => by simpa [timeoutsSince, lostSince, Place.unwritten] using covers loaded read,
      ⟨counted.nonneg, counted.below, counted.covers, counted.tracked⟩, held⟩

theorem inv_restart (inv : Inv stage log ⟨disk, place⟩) :
    Inv stage (.restart place.unwritten :: log) ⟨disk, (.stopped : Place F)⟩ := by
  cases unwritten : place.unwritten with
  | false =>
      refine ⟨inv.bound, fun loaded read => ?_, trivial⟩
      have covers := inv.file loaded read
      simp only [unwritten] at covers
      simpa [timeoutsSince, lostSince, Place.unwritten] using covers
  | true =>
      refine ⟨?_, fun loaded read => ?_, trivial⟩
      · have bound := inv.bound
        simp only [timeoutsSince, lostSince]
        omega
      · have covers := inv.file loaded read
        simp only [unwritten, if_true] at covers
        simp only [timeoutsSince, lostSince, Place.unwritten, Bool.false_eq_true, if_false, Nat.cast_add, Nat.cast_one]
        omega

theorem inv_step (inv : Inv stage log s) (step : Step stage s label s') : Inv stage (label :: log) s' := by
  cases step with
  | opened disk =>
      refine ⟨inv.bound, fun record loaded => ?_, opened_placed inv⟩
      have covers := inv.file record loaded
      simp only [opened_written]
      simpa [timeoutsSince, lostSince, Place.unwritten] using covers
  | outcome disk count record outcome => exact inv_outcome inv outcome
  | went disk place place' now write next =>
      cases place with
      | stopped => cases next
      | entering count =>
          have same := Option.some.inj next
          have went := inv_entering inv now
          rw [same] at went
          exact went
      | attempting count record => cases next
      | after count record outcome =>
          have same := Option.some.inj next
          have went := inv_after inv now
          rw [same] at went
          exact went
      | clearing count =>
          cases next
          exact inv_clearing inv _ rfl
  | restart disk place => exact inv_restart inv

theorem inv_start (stage : String) (disk : Disk) : Inv stage [] ⟨disk, (.stopped : Place F)⟩ := by
  refine ⟨Nat.zero_le _, fun record loaded => ?_, trivial⟩
  have nonneg := loaded_count loaded
  simpa [timeoutsSince, lostSince, Place.unwritten] using nonneg

theorem run_inv (run : Run stage ⟨disk, .stopped⟩ log s) : Inv stage log s := by
  induction run with
  | nil => exact inv_start stage disk
  | step _ taken ih => exact inv_step ih taken

/-! ### Deadlines -/

/-- There is no deadline that was not there before, or that is later. -/
def NoLater (deadline before : Option ℚ) : Prop := ∀ q', deadline = some q' → ∃ q, before = some q ∧ q' ≤ q

theorem NoLater.refl (deadline : Option ℚ) : NoLater deadline deadline := fun q' here => ⟨q', here, le_rfl⟩

theorem NoLater.of_none {deadline : Option ℚ} (gone : deadline = none) (before : Option ℚ) : NoLater deadline before := by
  intro q' here
  cases gone.symm.trans here

theorem NoLater.trans {a b c : Option ℚ} (first : NoLater a b) (second : NoLater b c) : NoLater a c := by
  intro q here
  obtain ⟨q', there, less⟩ := first q here
  obtain ⟨q'', found, less'⟩ := second q' there
  exact ⟨q'', found, less.trans less'⟩

/-- An outage that is not written yet. -/
def Place.pending : Place F → Bool
  | .after _ _ (.outage _) => true
  | _ => false

theorem deadline_loaded {record : Dict F} (loaded : loadRetryState disk.outage stage .infrastructure = some record) :
    deadline F stage disk = if isWaiting record then value (get record "next_retry_at") else none := by
  rw [deadline, loaded, Option.bind_some]

theorem deadline_unread (unread : loadRetryState (F := F) disk.outage stage .infrastructure = none) :
    deadline F stage disk = none := by
  rw [deadline, unread, Option.bind_none]

/-- The file has no other deadline than a process that waits. -/
theorem attempting_deadline {count : Int} {record : Dict F} (inv : Inv stage log ⟨disk, .attempting count record⟩) :
    NoLater (deadline F stage disk) (scheduled stage ⟨disk, .attempting count record⟩) := by
  obtain ⟨-, -, loaded | unread⟩ := inv.placed
  · rw [deadline_loaded loaded]
    exact NoLater.refl _
  · exact NoLater.of_none (deadline_unread unread) _

theorem settled_deadline (disk : Disk) {record' : Dict F} {other : String} (kept : other ≠ WAITING)
    (status : textField record' "status" = some other)
    (read : loadRetryState (some (durableIndented record')) stage .infrastructure = some record' ∨
      loadRetryState (F := F) (some (durableIndented record')) stage .infrastructure = none) :
    deadline F stage { disk with outage := some (durableIndented record') } = none := by
  rcases read with loaded | unread
  · rw [deadline_loaded loaded, if_neg]
    intro waiting
    rw [isWaiting, status, Option.some_inj] at waiting
    exact kept waiting
  · exact deadline_unread unread

theorem opened_deadline (stage : String) (disk : Disk) :
    scheduled stage (⟨disk, opened stage disk⟩ : State F) = deadline F stage disk := by
  unfold opened
  split
  · rfl
  · split <;> rfl

theorem entered_deadline (stage : String) (disk : Disk) (count : Int) (now : Instant F) :
    NoLater (scheduled stage ⟨(entered stage disk now count).1.elim disk disk.write, (entered stage disk now count).2⟩)
      (deadline F stage disk) ∧ (entered stage disk now count).2.pending = false := by
  have went := entered_cases stage disk now count
  generalize entered stage disk now count = result at went
  obtain ⟨write, place'⟩ := result
  cases went with
  | blocked => exact ⟨NoLater.refl _, rfl⟩
  | kept record loaded =>
      refine ⟨?_, rfl⟩
      rw [deadline_loaded loaded]
      exact NoLater.refl _
  | shortened record record' loaded waiting resumed =>
      obtain ⟨-, -, waiting', q, q', before, after, less⟩ := resumed_spec (load_valid loaded) waiting resumed
      refine ⟨?_, rfl⟩
      have shown : scheduled stage (⟨disk.write ⟨.infrastructure, record'⟩, .attempting count record'⟩ : State F) = some q' := by
        rw [scheduled]
        dsimp only
        rw [if_pos waiting', after]
      rw [deadline_loaded loaded, if_pos waiting, before]
      intro p same
      cases shown.symm.trans same
      exact ⟨q, rfl, less⟩

theorem after_deadline (disk : Disk) {count : Int} {record : Dict F} {outcome : Outcome} (held : Held stage record) (now : Instant F)
    (written : (Place.after count record outcome).pending = false) :
    NoLater (scheduled stage ⟨(settled stage now count record outcome).1.elim disk disk.write,
      (settled stage now count record outcome).2⟩) (deadline F stage disk) ∧
        (settled stage now count record outcome).2.pending = false := by
  have some_record (empty : ¬ record.isEmpty = true) : Valid stage .infrastructure record ∧ Distinct (.obj record : Json F) :=
    held.resolve_left fun same => empty (by rw [same]; rfl)
  cases outcome with
  | success =>
      refine ⟨?_, rfl⟩
      rw [settled]
      split
      · exact NoLater.refl _
      · rename_i empty
        obtain ⟨valid, distinct⟩ := some_record empty
        have status : textField (recoveredRecord record now) "status" = some "recovered" := by
          simp [textField, recoveredRecord]
        have read := written_outage (valid_recovered valid now) (distinct_recovered distinct now)
        have gone := settled_deadline disk (by decide) status read
        exact NoLater.of_none gone _
  | timeout =>
      rw [settled]
      dsimp only
      split
      · exact ⟨NoLater.refl _, rfl⟩
      · exact ⟨NoLater.refl _, rfl⟩
  | outage reason => cases written
  | failure =>
      refine ⟨?_, rfl⟩
      rw [settled]
      split
      · exact NoLater.refl _
      · rename_i empty
        obtain ⟨valid, distinct⟩ := some_record empty
        have status : textField (stepFailedRecord record now) "status" = some "step_failed" := by
          simp [textField, stepFailedRecord]
        have read := written_outage (valid_stepFailed valid now) (distinct_stepFailed distinct now)
        have gone := settled_deadline disk (by decide) status read
        exact NoLater.of_none gone _

/-- Without an outage no deadline comes up or moves later, whatever restarts there are. -/
theorem scheduled_step (inv : Inv stage log s) (written : s.place.pending = false)
    (quiet : ∀ reason, label ≠ .outcome (.outage reason)) (step : Step stage s label s') :
    NoLater (scheduled stage s') (scheduled stage s) ∧ s'.place.pending = false := by
  cases step with
  | opened disk =>
      rw [opened_deadline]
      refine ⟨NoLater.refl _, ?_⟩
      change (opened stage disk : Place F).pending = false
      unfold opened
      split
      · rfl
      · split <;> rfl
  | outcome disk count record outcome =>
      refine ⟨attempting_deadline inv, ?_⟩
      cases outcome with
      | outage reason => exact absurd rfl (quiet reason)
      | _ => rfl
  | went disk place place' now write next =>
      cases place with
      | stopped => cases next
      | attempting count record => cases next
      | entering count =>
          have same := Option.some.inj next
          have went := entered_deadline stage disk count now
          rw [same] at went
          exact went
      | after count record outcome =>
          have same := Option.some.inj next
          have held : Held stage record := by
            have placed := inv.placed
            cases outcome with
            | success => exact placed.2.1
            | timeout => exact placed.2.2.2
            | outage reason => exact placed.2
            | failure => exact placed.2
          have went := after_deadline disk held now written
          rw [same] at went
          exact went
      | clearing count =>
          cases next
          refine ⟨?_, rfl⟩
          split <;> exact NoLater.refl _
  | restart disk place =>
      refine ⟨?_, rfl⟩
      cases place with
      | attempting count record => exact attempting_deadline inv
      | _ => exact NoLater.refl _

theorem scheduled_run {start : State F} {before : List (Label F)} (inv : Inv stage before start)
    (written : start.place.pending = false) (quiet : ∀ reason, .outcome (.outage reason) ∉ log)
    (run : Run stage start log s) :
    Inv stage (log ++ before) s ∧ s.place.pending = false ∧ NoLater (scheduled stage s) (scheduled stage start) := by
  induction run with
  | nil => exact ⟨inv, written, NoLater.refl _⟩
  | step earlier taken ih =>
      obtain ⟨inv', written', later⟩ := ih fun reason inside => quiet reason (List.mem_cons_of_mem _ inside)
      obtain ⟨here, written''⟩ := scheduled_step inv' written'
        (fun reason same => quiet reason (by rw [same]; exact List.mem_cons_self)) taken
      exact ⟨inv_step inv' taken, written'', here.trans later⟩

/-! ### The budget of timeouts -/

/-- Only a timeout is written to its file, and a success clears it. -/
theorem timeouts_step (written : s.place.unwritten = false) (none_timed : label ≠ .outcome .timeout)
    (step : Step stage s label s') :
    (s'.disk.timeouts = s.disk.timeouts ∨ s'.disk.timeouts = some (durableCompact (clearRecord stage : Dict F))) ∧
      s'.place.unwritten = false := by
  cases step with
  | opened disk => exact ⟨.inl rfl, opened_written stage disk⟩
  | outcome disk count record outcome =>
      refine ⟨.inl rfl, ?_⟩
      cases outcome with
      | timeout => exact absurd rfl none_timed
      | _ => rfl
  | restart disk place => exact ⟨.inl rfl, rfl⟩
  | went disk place place' now write next =>
      cases place with
      | stopped => cases next
      | attempting count record => cases next
      | entering count =>
          have same := Option.some.inj next
          have went := entered_cases stage disk now count
          rw [same] at went
          cases went with
          | blocked => exact ⟨.inl rfl, rfl⟩
          | kept => exact ⟨.inl rfl, rfl⟩
          | shortened => exact ⟨.inl rfl, rfl⟩
      | after count record outcome =>
          cases outcome with
          | timeout => cases written
          | outage reason =>
              cases next
              exact ⟨.inl rfl, rfl⟩
          | success =>
              cases next
              refine ⟨.inl ?_, rfl⟩
              dsimp only
              split <;> rfl
          | failure =>
              cases next
              refine ⟨.inl ?_, rfl⟩
              dsimp only
              split <;> rfl
      | clearing count =>
          cases next
          refine ⟨?_, rfl⟩
          dsimp only
          split
          · exact .inl rfl
          · exact .inr rfl

theorem timeouts_run {start : State F} (written : start.place.unwritten = false)
    (none_timed : .outcome .timeout ∉ log) (run : Run stage start log s) :
    (s.disk.timeouts = start.disk.timeouts ∨ s.disk.timeouts = some (durableCompact (clearRecord stage : Dict F))) ∧
      s.place.unwritten = false := by
  induction run with
  | nil => exact ⟨.inl rfl, written⟩
  | step earlier taken ih =>
      obtain ⟨kept, written'⟩ := ih fun inside => none_timed (List.mem_cons_of_mem _ inside)
      obtain ⟨here, written''⟩ := timeouts_step written' (fun same => none_timed (by rw [same]; exact List.mem_cons_self)) taken
      refine ⟨?_, written''⟩
      rcases here with same | cleared
      · rw [same]
        exact kept
      · exact .inr cleared

end AtrexAgent.RetryLoops
