import Mathlib.Tactic.Linarith
import AtrexAgent.Execution.GatewayJobs

/-! `execute_job` ends: each turn of its loop uses up a part of an allowance that
the retry limits and the wait budget bound. -/

namespace AtrexAgent.Gateway

open AtrexAgent.Interaction
open AtrexAgent.Interaction.Program

/-! ### What one operation does -/

section Operations

variable {C : World → Prop} {α : Type} {Q : α → World → Prop} {E : Stop → World → Prop} {w : World}

theorem holds_monotonic (next : ℚ → Prog α) :
    Holds Effect C Q E (monotonic >>= next) w ↔
      C w ∧ ∀ time, w.clock ≤ time → Holds Effect C Q E (next time) { w with clock := time } := by
  constructor
  · exact fun holds => ⟨holds.1, fun time later => holds.2 _ time (Effect.monotonic later)⟩
  · intro given
    refine ⟨given.1, fun s' time acted => ?_⟩
    cases acted with
    | monotonic later => exact given.2 _ later

theorem holds_uuid (next : String → Prog α) :
    Holds Effect C Q E ((perform Op.uuid : Prog String) >>= next) w ↔
      C w ∧ ∀ hex, hex ≠ "" → Holds Effect C Q E (next hex) w := by
  constructor
  · exact fun holds => ⟨holds.1, fun hex fresh => holds.2 _ hex (Effect.uuid fresh)⟩
  · intro given
    refine ⟨given.1, fun s' hex acted => ?_⟩
    cases acted with
    | uuid fresh => exact given.2 _ fresh

theorem holds_read (next : Option Checkpoint → Prog α) :
    Holds Effect C Q E ((perform Op.read : Prog (Option Checkpoint)) >>= next) w ↔
      C w ∧ Holds Effect C Q E (next w.disk) w := by
  constructor
  · exact fun holds => ⟨holds.1, holds.2 _ _ Effect.read⟩
  · intro given
    refine ⟨given.1, fun s' answer acted => ?_⟩
    cases acted
    exact given.2

theorem holds_print (notice : Notice) (next : Unit → Prog α) :
    Holds Effect C Q E ((perform (Op.print notice) : Prog Unit) >>= next) w ↔
      C w ∧ Holds Effect C Q E (next ()) { w with log := .printed notice :: w.log } := by
  constructor
  · exact fun holds => ⟨holds.1, holds.2 _ _ Effect.print⟩
  · intro given
    refine ⟨given.1, fun s' answer acted => ?_⟩
    cases acted
    exact given.2

theorem holds_submit (key : Option String) (next : Submitted → Prog α) :
    Holds Effect C Q E ((perform (Op.submit key) : Prog Submitted) >>= next) w ↔
      C w ∧ ∀ time answer, w.clock ≤ time → Holds Effect C Q E (next answer)
        { w with clock := time, log := .submitted key :: w.log } := by
  constructor
  · exact fun holds => ⟨holds.1, fun time answer later => holds.2 _ answer (Effect.submit later)⟩
  · intro given
    refine ⟨given.1, fun s' answer acted => ?_⟩
    cases acted with
    | submit later => exact given.2 _ answer later

theorem holds_poll (process : Process) (seconds : Int) (probe : Bool) (next : Polled → Prog α) :
    Holds Effect C Q E ((perform (Op.poll process seconds probe) : Prog Polled) >>= next) w ↔
      C w ∧ ∀ time answer, w.clock ≤ time →
        Holds Effect C Q E (next answer) { w with clock := time } := by
  constructor
  · exact fun holds => ⟨holds.1, fun time answer later => holds.2 _ answer (Effect.poll later)⟩
  · intro given
    refine ⟨given.1, fun s' answer acted => ?_⟩
    cases acted with
    | poll later => exact given.2 _ answer later

theorem holds_sleep (seconds : ℚ) (next : Unit → Prog α) :
    Holds Effect C Q E (sleep seconds >>= next) w ↔
      if seconds < 0 then E (.valueError "sleep length must be non-negative") w
      else C w ∧ ∀ time, w.clock + seconds ≤ time →
        Holds Effect C Q E (next ()) { w with clock := time } := by
  unfold sleep
  by_cases negative : seconds < 0
  · rw [if_pos negative, if_pos negative]
    rfl
  · rw [if_neg negative, if_neg negative]
    constructor
    · exact fun holds => ⟨holds.1, fun time later => holds.2 _ () (Effect.sleep later)⟩
    · intro given
      refine ⟨given.1, fun s' answer acted => ?_⟩
      cases acted with
      | sleep later => exact given.2 _ later

/-- The world after a checkpoint is saved. -/
def World.save (w : World) (cfg : Config) (c : Checkpoint) : World :=
  if cfg.directory then
    { w with disk := some c, log := .recorded c.phase c.idempotencyKey :: w.log }
  else w

theorem holds_save (cfg : Config) (v : Variables) (phase : Phase) (process : Option Process)
    (next : Checkpoint → Prog α) (now : C w)
    (rest : Holds Effect C Q E (next (v.checkpoint cfg phase process))
      (w.save cfg (v.checkpoint cfg phase process))) :
    Holds Effect C Q E (save cfg v phase process >>= next) w := by
  unfold save
  unfold World.save at rest
  cases kept : cfg.directory with
  | false =>
      rw [kept] at rest
      exact rest
  | true =>
      rw [kept] at rest
      refine ⟨now, fun s' answer acted => ?_⟩
      cases acted
      exact rest

end Operations

/-! ### Counts and allowances -/

def submissions (log : List Event) : Nat :=
  log.countP fun event => match event with | .submitted _ => true | _ => false

def resubmissions (kind : RetryKind) (log : List Event) : Nat :=
  log.count (.printed (.resubmitting kind))

/-- How often the shortest retry delay fits in a time. -/
def delaysIn (seconds : ℚ) : Nat := ⌊seconds / 5⌋₊

theorem delaysIn_mono {seconds seconds' : ℚ} (le : seconds ≤ seconds') :
    delaysIn seconds ≤ delaysIn seconds' :=
  Nat.floor_mono (by linarith)

/-- A delay that still fits leaves room for one less. -/
theorem delaysIn_delay {seconds delay left : ℚ} (least : 5 ≤ delay) (fits : delay < seconds)
    (after : left ≤ seconds - delay) : delaysIn left + 1 ≤ delaysIn seconds := by
  have short : left / 5 + 1 ≤ seconds / 5 := by linarith
  unfold delaysIn
  by_cases negative : left < 0
  · have none_left : ⌊left / 5⌋₊ = 0 := Nat.floor_of_nonpos (by linarith)
    rw [none_left, zero_add, Nat.one_le_floor_iff]
    linarith
  · have nonneg : 0 ≤ left / 5 := by linarith
    rw [← Nat.floor_add_one nonneg]
    exact Nat.floor_mono short

theorem five_le_retryDelay (count : Nat) (positive : 0 < count) : 5 ≤ retryDelay count := by
  unfold retryDelay
  split
  · have power : (1 : ℚ) ≤ 2 ^ (count - 1) := one_le_pow₀ (by norm_num)
    linarith
  · norm_num

@[simp] theorem save_clock (w : World) (cfg : Config) (c : Checkpoint) :
    (w.save cfg c).clock = w.clock := by
  unfold World.save
  split <;> rfl

@[simp] theorem submissions_save (w : World) (cfg : Config) (c : Checkpoint) :
    submissions (w.save cfg c).log = submissions w.log := by
  unfold World.save
  split
  · exact List.countP_cons_of_neg (by simp)
  · rfl

@[simp] theorem resubmissions_save (kind : RetryKind) (w : World) (cfg : Config)
    (c : Checkpoint) : resubmissions kind (w.save cfg c).log = resubmissions kind w.log := by
  unfold World.save
  split
  · exact List.count_cons_of_ne (by simp)
  · rfl

theorem submissions_printed (notice : Notice) (log : List Event) :
    submissions (.printed notice :: log) = submissions log :=
  List.countP_cons_of_neg (by simp)

theorem submissions_submitted (key : Option String) (log : List Event) :
    submissions (.submitted key :: log) = submissions log + 1 :=
  List.countP_cons_of_pos (by simp)

theorem resubmissions_submitted (kind : RetryKind) (key : Option String) (log : List Event) :
    resubmissions kind (.submitted key :: log) = resubmissions kind log :=
  List.count_cons_of_ne (by simp)

theorem resubmissions_printed (kind : RetryKind) (notice : Notice) (log : List Event)
    (other : notice ≠ .resubmitting kind) :
    resubmissions kind (.printed notice :: log) = resubmissions kind log :=
  List.count_cons_of_ne (by simpa using other)

theorem resubmissions_self (kind : RetryKind) (log : List Event) :
    resubmissions kind (.printed (.resubmitting kind) :: log) = resubmissions kind log + 1 :=
  List.count_cons_self

theorem total_bump (r : Retries) (kind : RetryKind) : (r.bump kind).total = r.total + 1 := by
  cases kind <;> simp [Retries.bump, Retries.total] <;> omega

section Bounds

variable (cfg : Config)

def deviceLimit : Nat := (cfg.maxDeviceRetries.getD 0).toNat

/-- Submissions that one wait window has room for, device retries apart. -/
def windowLimit : Nat := delaysIn cfg.waitBudget + 1

def submissionLimit : Nat := (cfg.maxWaitRetries.toNat + 1) * windowLimit cfg + deviceLimit cfg

/-- The turns that are left: those of later wait windows, of the current one, and
the device retries, which may have a delay of their own. -/
def allowance (v : Variables) (w : World) : Nat :=
  (cfg.maxWaitRetries - v.waitRetries).toNat * windowLimit cfg +
    (delaysIn (v.deadline - w.clock) + 1) + (deviceLimit cfg - resubmissions .device w.log)

/-- Resubmissions are counted in `retries`, and bounded by their limits. -/
structure Counted (retries : Retries) (log : List Event) : Prop where
  infra : resubmissions .infra log ≤ retries.infra
  infraLimit : ∀ m ∈ cfg.maxInfraRetries, resubmissions .infra log ≤ m.toNat
  device : resubmissions .device log ≤ retries.device
  deviceLimit : resubmissions .device log ≤ deviceLimit cfg

/-- A state of one turn that leaves `left` turns after it at most. -/
structure Within (left : Nat) (v : Variables) (w : World) : Prop where
  counted : Counted cfg v.retries w.log
  spent : submissions w.log + left ≤ submissionLimit cfg
  allowed : allowance cfg v w ≤ left + 1

/-- What the log shows at any time. -/
structure Bounded (log : List Event) : Prop where
  infra : ∀ m ∈ cfg.maxInfraRetries, resubmissions .infra log ≤ m.toNat
  device : resubmissions .device log ≤ deviceLimit cfg
  submissions : submissions log ≤ submissionLimit cfg

variable {cfg} {left : Nat} {v v' : Variables} {w w' : World}

theorem Within.bounded (within : Within cfg left v w) : Bounded cfg w.log :=
  ⟨within.counted.infraLimit, within.counted.deviceLimit, by have := within.spent; omega⟩

theorem Within.tick (within : Within cfg left v w) {time : ℚ} (later : w.clock ≤ time) :
    Within cfg left v { w with clock := time } := by
  refine ⟨within.counted, within.spent, ?_⟩
  have less : delaysIn (v.deadline - time) ≤ delaysIn (v.deadline - w.clock) :=
    delaysIn_mono (by linarith)
  have before := within.allowed
  unfold allowance at before ⊢
  dsimp only
  omega

/-- Variables that no count depends on. -/
theorem Within.vars (within : Within cfg left v w) (deadline : v'.deadline = v.deadline)
    (waitRetries : v'.waitRetries = v.waitRetries)
    (retries : v'.retries = v.retries) : Within cfg left v' w := by
  refine ⟨retries ▸ within.counted, within.spent, ?_⟩
  have before := within.allowed
  unfold allowance at before ⊢
  rw [deadline, waitRetries]
  exact before

theorem Within.save (within : Within cfg left v w) (c : Checkpoint) :
    Within cfg left v (w.save cfg c) := by
  obtain ⟨⟨infra, infraLimit, device, limit⟩, spent, allowed⟩ := within
  constructor
  · constructor <;> simpa
  · simpa
  · unfold allowance at allowed ⊢
    simpa

theorem Within.print (within : Within cfg left v w) (notice : Notice)
    (plain : ∀ kind, notice ≠ .resubmitting kind) :
    Within cfg left v { w with log := .printed notice :: w.log } := by
  obtain ⟨⟨infra, infraLimit, device, limit⟩, spent, allowed⟩ := within
  have same (kind : RetryKind) := resubmissions_printed kind notice w.log (plain kind)
  have sent := submissions_printed notice w.log
  constructor
  · constructor <;> simpa only [same]
  · simpa only [sent]
  · unfold allowance at allowed ⊢
    simpa only [same]

/-- The head of the loop: what is left of the limit covers what is left to do. -/
structure Ready (cfg : Config) (v : Variables) (w : World) : Prop where
  counted : Counted cfg v.retries w.log
  spent : submissions w.log + allowance cfg v w ≤ submissionLimit cfg

theorem Ready.bounded (ready : Ready cfg v w) : Bounded cfg w.log :=
  ⟨ready.counted.infraLimit, ready.counted.deviceLimit, by have := ready.spent; omega⟩

/-- The rest of a turn keeps the counts bounded, and the next one has fewer turns to go. -/
abbrev Ends (cfg : Config) (left : Nat) (program : Prog Variables) (w : World) : Prop :=
  Holds Effect (fun w => Bounded cfg w.log)
    (fun v w => Ready cfg v w ∧ allowance cfg v w ≤ left) (fun _ w => Bounded cfg w.log) program w

theorem Within.ready (within : Within cfg left v w) (counted : Counted cfg v'.retries w'.log)
    (sent : submissions w'.log ≤ submissions w.log) (less : allowance cfg v' w' ≤ left) :
    Ready cfg v' w' ∧ allowance cfg v' w' ≤ left := by
  have spent := within.spent
  exact ⟨⟨counted, by omega⟩, less⟩

theorem five_le_resubmitDelay (kind : RetryKind) (retries : Retries) (other : kind ≠ .device)
    (positive : 0 < retries.total) : 5 ≤ resubmitDelay cfg kind retries := by
  have least := five_le_retryDelay retries.total positive
  cases kind
  case device => exact absurd rfl other
  all_goals simpa [resubmitDelay] using least

theorem Counted.deviceRoom {retries : Retries} {log : List Event}
    (counted : Counted cfg retries log)
    (device : ∃ m ∈ cfg.maxDeviceRetries, (retries.device : Int) < m) :
    resubmissions .device log < Gateway.deviceLimit cfg := by
  obtain ⟨m, member, room⟩ := device
  have same : Gateway.deviceLimit cfg = m.toNat := by
    unfold Gateway.deviceLimit
    rw [Option.mem_def.mp member]
    rfl
  have count := counted.device
  omega

/-- The guards of a resubmission, and what it counts. -/
theorem Counted.resubmitted {retries : Retries} {log : List Event} (kind : RetryKind)
    (counted : Counted cfg retries log)
    (infra : kind = .infra → ∀ m ∈ cfg.maxInfraRetries, (retries.infra : Int) < m)
    (device : kind = .device → ∃ m ∈ cfg.maxDeviceRetries, (retries.device : Int) < m) :
    Counted cfg (retries.bump kind) (.printed (.resubmitting kind) :: log) := by
  have roomy := fun same => counted.deviceRoom (device same)
  obtain ⟨infraCount, infraLimit, deviceCount, limit⟩ := counted
  have others (kind' : RetryKind) (other : kind ≠ kind') :=
    resubmissions_printed kind' (.resubmitting kind) log (by simpa using other)
  cases kind
  case infra =>
      constructor
      · rw [resubmissions_self]; simpa [Retries.bump] using infraCount
      · intro m member
        have room := infra rfl m member
        rw [resubmissions_self]
        omega
      · rw [others .device (by decide)]; exact deviceCount
      · rw [others .device (by decide)]; exact limit
  case device =>
      constructor
      · rw [others .infra (by decide)]; exact infraCount
      · rw [others .infra (by decide)]; exact infraLimit
      · rw [resubmissions_self]; simpa [Retries.bump] using deviceCount
      · rw [resubmissions_self]; exact roomy rfl
  all_goals
    constructor
    · rw [others .infra (by decide)]; exact infraCount
    · rw [others .infra (by decide)]; exact infraLimit
    · rw [others .device (by decide)]; exact deviceCount
    · rw [others .device (by decide)]; exact limit

/-- A delay out of the wait window leaves one turn less. -/
theorem Within.slept (within : Within cfg left v w) {delay time time' : ℚ} (least : 5 ≤ delay)
    (later : w.clock ≤ time) (fits : delay < v.deadline - time) (after : time + delay ≤ time')
    (deadline : v'.deadline = v.deadline) (waitRetries : v'.waitRetries = v.waitRetries)
    (clock : w'.clock = time')
    (device : resubmissions .device w'.log = resubmissions .device w.log) :
    allowance cfg v' w' ≤ left := by
  have allowed := within.allowed
  have sooner : delaysIn (v.deadline - time) ≤ delaysIn (v.deadline - w.clock) :=
    delaysIn_mono (by linarith)
  have less : delaysIn (v.deadline - time') + 1 ≤ delaysIn (v.deadline - time) :=
    delaysIn_delay least fits (by linarith)
  unfold allowance at allowed ⊢
  rw [deadline, waitRetries, clock, device]
  omega

/-- So does one device retry, whatever its delay. -/
theorem Within.retried (within : Within cfg left v w)
    (room : resubmissions .device w.log < deviceLimit cfg) (later : w.clock ≤ w'.clock)
    (deadline : v'.deadline = v.deadline) (waitRetries : v'.waitRetries = v.waitRetries)
    (device : resubmissions .device w'.log = resubmissions .device w.log + 1) :
    allowance cfg v' w' ≤ left := by
  have allowed := within.allowed
  have sooner : delaysIn (v.deadline - w'.clock) ≤ delaysIn (v.deadline - w.clock) :=
    delaysIn_mono (by linarith)
  unfold allowance at allowed ⊢
  rw [deadline, waitRetries, device]
  omega

/-- And so does a fresh wait window: the old one had room for one turn at least. -/
theorem Within.renewed (within : Within cfg left v w) (more : v.waitRetries < cfg.maxWaitRetries)
    (waitRetries : v'.waitRetries = v.waitRetries + 1)
    (deadline : v'.deadline = w'.clock + cfg.waitBudget)
    (device : resubmissions .device w'.log = resubmissions .device w.log) :
    allowance cfg v' w' ≤ left := by
  have allowed := within.allowed
  have windows : (cfg.maxWaitRetries - v.waitRetries).toNat =
      (cfg.maxWaitRetries - (v.waitRetries + 1)).toNat + 1 := by omega
  unfold allowance at allowed ⊢
  rw [deadline, add_sub_cancel_left, waitRetries, device]
  rw [windows, add_mul, one_mul] at allowed
  unfold windowLimit at allowed ⊢
  omega

/-- A resubmission takes one device retry, or a delay out of its wait window. -/
theorem resubmit_ends (kind : Option RetryKind) (process : Process)
    (within : Within cfg left v w)
    (device : kind = some .device → ∃ m ∈ cfg.maxDeviceRetries, (v.retries.device : Int) < m) :
    Ends cfg left (resubmit cfg v kind process) w := by
  unfold resubmit
  cases kind with
  | none => exact within.bounded
  | some kind =>
      dsimp only
      split
      · exact within.bounded
      rename_i more
      rw [not_or, not_and] at more
      rw [Ends, holds_monotonic]
      refine ⟨within.bounded, fun time later => ?_⟩
      split
      · split <;> exact (within.tick later).bounded
      rename_i fits
      rw [not_le] at fits
      have counted : Counted cfg (v.retries.bump kind) (.printed (.resubmitting kind) :: w.log) := by
        apply Counted.resubmitted kind within.counted
        · intro same m member
          have guard := more.1 same
          exact not_le.mp fun reached => guard ⟨m, member, reached⟩
        · exact fun same => device (congrArg some same)
      have sent := submissions_printed (.resubmitting kind) w.log
      have spent := within.spent
      have bounded : Bounded cfg (.printed (.resubmitting kind) :: w.log) :=
        ⟨counted.infraLimit, counted.deviceLimit, by omega⟩
      rw [holds_print]
      refine ⟨within.bounded, ?_⟩
      apply holds_save
      · exact bounded
      set w' := World.save _ cfg _ with saved
      have infra' : resubmissions .infra w'.log =
          resubmissions .infra (.printed (.resubmitting kind) :: w.log) := by simp [saved]
      have device' : resubmissions .device w'.log =
          resubmissions .device (.printed (.resubmitting kind) :: w.log) := by simp [saved]
      have sent' : submissions w'.log = submissions w.log := by simp [saved, sent]
      have counted' : Counted cfg (v.retries.bump kind) w'.log := by
        obtain ⟨first, second, third, fourth⟩ := counted
        constructor <;> simpa only [infra', device']
      have bounded' : Bounded cfg w'.log :=
        ⟨counted'.infraLimit, counted'.deviceLimit, by omega⟩
      have clock : w'.clock = time := by simp [saved]
      rw [holds_sleep]
      split
      · exact bounded'
      rename_i nonnegative
      refine ⟨bounded', fun time' after => ?_⟩
      rw [clock] at after
      apply within.ready
      · exact counted'
      · exact sent'.le
      by_cases same : kind = .device
      · subst same
        apply within.retried (within.counted.deviceRoom (device rfl))
        · dsimp only; linarith
        · rfl
        · rfl
        · rw [device', resubmissions_self]
      · apply within.slept (five_le_resubmitDelay kind _ same ?_) later fits after rfl rfl rfl
        · rw [device']
          exact resubmissions_printed .device _ _ (by simpa using same)
        · rw [total_bump]; omega

/-- A wait recovery starts one of the wait windows that are left. -/
theorem retryWait_holds (sha256 : String → String) (previousJobId : Option String)
    (within : Within cfg left v w) :
    Holds Effect (fun w => Bounded cfg w.log)
      (fun result w => match result with
        | some v => Ready cfg v w ∧ allowance cfg v w ≤ left
        | none => Bounded cfg w.log) (fun _ w => Bounded cfg w.log)
      (retryWait sha256 cfg v previousJobId) w := by
  unfold retryWait
  split
  · exact within.bounded
  rename_i more
  rw [holds_monotonic]
  refine ⟨within.bounded, fun time later => ?_⟩
  have ticked := within.tick later
  apply holds_save
  · exact ticked.bounded
  set v' : Variables := { v with
      waitRetries := v.waitRetries + 1
      deadline := time + cfg.waitBudget
      wireKey := if cfg.idempotentSubmission then waitRetryKey sha256 v.wireKey previousJobId
        else v.wireKey } with fresh
  have saved := ticked.save (v'.checkpoint cfg .retryPending none)
  rw [holds_print]
  refine ⟨saved.bounded, ?_⟩
  have printed := saved.print .waitRecovery fun kind => by simp
  apply printed.ready
  · exact printed.counted
  · exact le_rfl
  apply within.renewed (not_le.mp more) rfl
  · rw [save_clock]
  · rw [resubmissions_printed _ _ _ (by simp), resubmissions_save]

theorem recover_ends (sha256 : String → String) (previousJobId : Option String)
    (otherwise : Stop) (within : Within cfg left v w) :
    Ends cfg left (recover sha256 cfg v previousJobId otherwise) w := by
  unfold recover
  apply (retryWait_holds sha256 previousJobId within).bind
  intro result w' after
  cases result with
  | none => exact after
  | some v' => exact after

theorem classify_ends (sha256 : String → String) (process : Process)
    (reserved : ∀ job, cfg.retryClassifier job ≠ some .device) (within : Within cfg left v w) :
    Ends cfg left (classify sha256 cfg v process) w := by
  unfold classify
  dsimp only
  split
  · exact within.bounded
  rename_i room
  split
  · exact resubmit_ends none process within (by simp)
  rename_i kind chosen
  have device : some kind = some RetryKind.device →
      ∃ m ∈ cfg.maxDeviceRetries, (v.retries.device : Int) < m := by
    intro same
    split at chosen
    · rename_i diagnosed
      obtain ⟨m, limit⟩ := Option.isSome_iff_exists.mp diagnosed.2.1
      use m, limit
      exact not_le.mp fun reached => room ⟨diagnosed.1, diagnosed.2, m, limit, reached⟩
    · exact absurd (chosen.trans same) (reserved process.job)
  split
  · split
    · exact within.bounded
    · split
      · exact within.bounded
      · apply resubmit_ends _ _ (within.vars (by rfl) (by rfl) (by rfl))
        exact device
  · exact resubmit_ends _ _ within device

theorem rejected_ends (rejection : Rejection) (within : Within cfg left v w) :
    Ends cfg left (rejected cfg v rejection) w := by
  unfold rejected
  apply holds_save
  · exact within.bounded
  have saved := within.save (v.checkpoint cfg .rejected (some rejection.process))
  split
  · apply resubmit_ends _ _ (saved.vars (by rfl) (by rfl) (by rfl))
    simp
  · exact saved.bounded

theorem collect_ends (sha256 : String → String) (process : Process)
    (reserved : ∀ job, cfg.retryClassifier job ≠ some .device) (within : Within cfg left v w) :
    Ends cfg left (collect sha256 cfg v process) w := by
  unfold collect
  have probed : Within cfg left { v with probeSavedJob := false } w :=
    within.vars (by rfl) (by rfl) (by rfl)
  rw [Ends, holds_monotonic]
  refine ⟨within.bounded, fun time later => ?_⟩
  have ticked := probed.tick later
  rw [holds_poll]
  refine ⟨ticked.bounded, fun time' answer longer => ?_⟩
  have polled := ticked.tick longer
  cases answer with
  | raised => exact polled.bounded
  | missing jobId => exact recover_ends sha256 _ _ polled
  | unavailable => exact recover_ends sha256 _ _ polled
  | returned result =>
      dsimp only
      split
      · apply holds_save
        · exact polled.bounded
        apply classify_ends sha256 result reserved
        exact (polled.save _).vars (by rfl) (by rfl) (by rfl)
      · split <;> exact recover_ends sha256 _ _ polled

/-- Repeating an uncertain submission takes a delay out of its wait window. -/
theorem uncertain_ends (process : Process) (within : Within cfg left v w) :
    Ends cfg left (uncertain cfg v process) w := by
  unfold uncertain
  apply holds_save
  · exact within.bounded
  have noted := within.save (v.checkpoint cfg .submitting (some process))
  split
  · set v' : Variables := { v with retries := v.retries.bump .transport } with bumped
    have counted : Within cfg left v' (w.save cfg (v.checkpoint cfg .submitting (some process))) :=
      ⟨⟨noted.counted.infra, noted.counted.infraLimit, noted.counted.device,
        noted.counted.deviceLimit⟩, noted.spent, noted.allowed⟩
    apply holds_save
    · exact counted.bounded
    have again := counted.save (v'.checkpoint cfg .submitting (some process))
    rw [holds_monotonic]
    refine ⟨again.bounded, fun time later => ?_⟩
    have ticked := again.tick later
    split
    · exact ticked.bounded
    rename_i fits
    rw [holds_print]
    refine ⟨ticked.bounded, ?_⟩
    have printed := ticked.print .sameKey fun kind => by simp
    have least : 5 ≤ retryDelay v'.retries.transport :=
      five_le_retryDelay _ (by simp [bumped, Retries.bump])
    rw [holds_sleep, if_neg (by linarith)]
    refine ⟨printed.bounded, fun time' after => ?_⟩
    apply printed.ready
    · exact printed.counted
    · exact le_rfl
    exact printed.slept least (le_refl _) (not_le.mp fits) after rfl rfl rfl rfl
  · exact noted.bounded

theorem confirm_ends (sha256 : String → String) (process : Process)
    (reserved : ∀ job, cfg.retryClassifier job ≠ some .device) (within : Within cfg left v w) :
    Ends cfg left (confirm sha256 cfg v process) w := by
  unfold confirm
  split
  · apply holds_save
    · exact within.bounded
    apply collect_ends sha256 process reserved
    exact (within.save _).vars (by rfl) (by rfl) (by rfl)
  · exact rejected_ends _ within
  · exact uncertain_ends process within

theorem submitNext_ends (sha256 : String → String)
    (reserved : ∀ job, cfg.retryClassifier job ≠ some .device) (counted : Counted cfg v.retries w.log)
    (spent : submissions w.log + (left + 1) ≤ submissionLimit cfg)
    (allowed : allowance cfg v w ≤ left + 1) :
    Ends cfg left (submitNext sha256 cfg v) w := by
  unfold submitNext
  have within : Within cfg left { v with submission := v.submission + 1 } w :=
    ⟨counted, by omega, allowed⟩
  apply holds_save
  · exact within.bounded
  have saved := within.save
    (Variables.checkpoint cfg { v with submission := v.submission + 1 } .submitting none)
  rw [holds_submit]
  refine ⟨saved.bounded, fun time answer later => ?_⟩
  have ticked := saved.tick later
  have sent : Within cfg left { v with submission := v.submission + 1 }
      { World.save w cfg (Variables.checkpoint cfg { v with submission := v.submission + 1 }
          .submitting none) with
        clock := time
        log := .submitted (if cfg.idempotentSubmission then some v.wireKey else none) ::
          (World.save w cfg (Variables.checkpoint cfg { v with submission := v.submission + 1 }
            .submitting none)).log } := by
    obtain ⟨⟨infra, infraLimit, device, limit⟩, _, less⟩ := ticked
    constructor
    · constructor <;> simpa only [resubmissions_submitted]
    · rw [submissions_submitted, submissions_save]
      omega
    · unfold allowance at less ⊢
      simpa only [resubmissions_submitted]
  cases answer with
  | raised => exact sent.bounded
  | rejected rejection => exact rejected_ends rejection sent
  | uncertain process => exact confirm_ends sha256 process reserved sent
  | returned process => exact confirm_ends sha256 process reserved sent

theorem turn_ends (sha256 : String → String)
    (reserved : ∀ job, cfg.retryClassifier job ≠ some .device) (ready : Ready cfg v w) :
    Holds Effect (fun w => Bounded cfg w.log)
      (fun v' w' => Ready cfg v' w' ∧ allowance cfg v' w' < allowance cfg v w)
      (fun _ w => Bounded cfg w.log) (turn sha256 cfg v) w := by
  obtain ⟨left, counts⟩ : ∃ left, allowance cfg v w = left + 1 :=
    ⟨_, (Nat.succ_pred_eq_of_pos (by unfold allowance; omega)).symm⟩
  have spent := ready.spent
  rw [counts] at spent
  have within : Within cfg left v w := ⟨ready.counted, by omega, counts.le⟩
  suffices ends : Ends cfg left (turn sha256 cfg v) w by
    apply ends.imp
    · intro v' w' after
      exact ⟨after.1, by omega⟩
    · exact fun _ _ bounded => bounded
  unfold turn
  rw [Ends, holds_monotonic]
  refine ⟨ready.bounded, fun time later => ?_⟩
  have ticked := within.tick later
  split
  · exact recover_ends sha256 _ _ ticked
  · split
    · exact rejected_ends _ ticked
    · split
      · exact collect_ends sha256 _ reserved ticked
      · exact classify_ends sha256 _ reserved ticked
      · exact ticked.bounded
      · exact ticked.bounded
      · exact submitNext_ends sha256 reserved ticked.counted spent ticked.allowed

/-- Nothing was submitted yet, and the first wait window is open. -/
structure Fresh (cfg : Config) (v : Variables) (w : World) : Prop where
  waitRetries : 0 ≤ v.waitRetries
  deadline : v.deadline - w.clock ≤ cfg.waitBudget
  submissions : submissions w.log = 0
  resubmissions : ∀ kind, resubmissions kind w.log = 0

theorem Fresh.ready (fresh : Fresh cfg v w) : Ready cfg v w := by
  obtain ⟨waits, deadline, none_sent, none_again⟩ := fresh
  constructor
  · constructor <;> simp [none_again]
  · have windows : (cfg.maxWaitRetries - v.waitRetries).toNat ≤ cfg.maxWaitRetries.toNat := by omega
    have later : (cfg.maxWaitRetries - v.waitRetries).toNat * windowLimit cfg ≤
        cfg.maxWaitRetries.toNat * windowLimit cfg := Nat.mul_le_mul_right _ windows
    have first : delaysIn (v.deadline - w.clock) ≤ delaysIn cfg.waitBudget := delaysIn_mono deadline
    have room : windowLimit cfg = delaysIn cfg.waitBudget + 1 := rfl
    unfold submissionLimit allowance
    rw [none_sent, none_again, add_mul, one_mul]
    omega

theorem resume_ends (fresh : Fresh cfg v w) :
    Holds Effect (fun w => Bounded cfg w.log) (Ready cfg) (fun _ w => Bounded cfg w.log)
      (resume cfg v) w := by
  have bounded := fresh.ready.bounded
  unfold resume
  split
  · exact fresh.ready
  split
  · exact fresh.ready
  split
  · exact Fresh.ready ⟨fresh.waitRetries, fresh.deadline, fresh.submissions, fresh.resubmissions⟩
  split
  · exact fresh.ready
  split
  · exact bounded
  set v' : Variables := { v with waitRetries := v.waitRetries + 1 } with counted
  apply holds_save
  · exact bounded
  have later : Fresh cfg v' (w.save cfg (v'.checkpoint cfg .retryPending none)) := by
    obtain ⟨waits, deadline, none_sent, none_again⟩ := fresh
    constructor
    · rw [counted]; exact Int.add_nonneg waits Int.one_nonneg
    · rw [save_clock]; exact deadline
    · simpa
    · simpa
  have printed : Fresh cfg v'
      { w.save cfg (v'.checkpoint cfg .retryPending none) with
        log := .printed .priorSubmission ::
          (w.save cfg (v'.checkpoint cfg .retryPending none)).log } := by
    obtain ⟨waits, deadline, none_sent, none_again⟩ := later
    refine ⟨waits, deadline, ?_, fun kind => ?_⟩
    · rw [submissions_printed, none_sent]
    · rw [resubmissions_printed _ _ _ (by simp), none_again]
  rw [holds_print]
  refine ⟨later.ready.bounded, Fresh.ready ?_⟩
  exact ⟨printed.waitRetries, printed.deadline, printed.submissions, printed.resubmissions⟩

/-- What `execute_job` does before its loop. -/
theorem executeJob_ends (clock : ℚ) (disk : Option Checkpoint) :
    Holds Effect (fun w => Bounded cfg w.log) (Ready cfg) (fun _ w => Bounded cfg w.log)
      (executeJob cfg) ⟨clock, disk, []⟩ := by
  have bounded (clock : ℚ) : Bounded cfg (World.mk clock disk []).log := by
    constructor <;> simp [submissions, resubmissions]
  have opened (time : ℚ) (state : Option Checkpoint) (saved : String) :
      Holds Effect (fun w => Bounded cfg w.log) (Ready cfg) (fun _ w => Bounded cfg w.log)
        (resume cfg
          { deadline := time + cfg.waitBudget
            waitRetries := 0
            probeSavedJob := state.map Checkpoint.phase = some .accepted
            submission := (state.map Checkpoint.submission).getD 0
            retries := (state.map Checkpoint.retries).getD ⟨0, 0, 0, 0⟩
            wireKey := saved
            state := state
            rejection := none }) ⟨time, disk, []⟩ := by
    apply resume_ends
    constructor
    · exact le_rfl
    · simp
    · rfl
    · exact fun _ => rfl
  have prepared (state : Option Checkpoint) : Holds Effect (fun w => Bounded cfg w.log) (Ready cfg)
      (fun _ w => Bounded cfg w.log) (prepare cfg state) ⟨clock, disk, []⟩ := by
    unfold prepare
    split
    · exact bounded clock
    rw [holds_monotonic]
    refine ⟨bounded clock, fun time _ => ?_⟩
    dsimp only
    split
    · exact bounded time
    split
    · exact opened time state _
    · rw [holds_uuid]
      exact ⟨bounded time, fun hex _ => opened time state hex⟩
  unfold executeJob
  split
  · exact bounded clock
  split
  · exact bounded clock
  unfold readState
  split
  · rw [holds_read]
    exact ⟨bounded clock, prepared disk⟩
  · exact prepared none

/-- Every operation can be performed. -/
theorem effect_total (w : World) (op : Op) : ∃ w' answer, Effect w op w' answer := by
  cases op with
  | monotonic => exact ⟨_, _, Effect.monotonic (le_refl w.clock)⟩
  | uuid => exact ⟨_, "0", Effect.uuid (by decide)⟩
  | read => exact ⟨_, _, Effect.read⟩
  | write c => exact ⟨_, _, Effect.write⟩
  | submit key => exact ⟨_, .raised, Effect.submit (le_refl w.clock)⟩
  | poll process seconds probe => exact ⟨_, .raised, Effect.poll (le_refl w.clock)⟩
  | sleep seconds => exact ⟨_, _, Effect.sleep (le_refl (w.clock + seconds))⟩
  | print notice => exact ⟨_, _, Effect.print⟩

end Bounds

/-- `execute_job` has no endless run and never gets stuck, and at any point of a run
the resubmissions and submissions of this invocation are within their limits. -/
theorem execution_ends_within_limits (sha256 : String → String) (cfg : Config)
    (reserved : ∀ job, cfg.retryClassifier job ≠ some .device) (clock : ℚ)
    (disk : Option Checkpoint) :
    Acc (flip (Step Effect (turn sha256 cfg))) (⟨clock, disk, []⟩, executeJob cfg) ∧
    ∀ w program,
      Relation.ReflTransGen (Step Effect (turn sha256 cfg)) (⟨clock, disk, []⟩, executeJob cfg)
        (w, program) →
      ((∃ reason, program = stop reason) ∨
        ∃ next, Step Effect (turn sha256 cfg) (w, program) next) ∧
      (∀ m, cfg.maxInfraRetries = some m → resubmissions .infra w.log ≤ m.toNat) ∧
      (∀ m, cfg.maxDeviceRetries = some m → resubmissions .device w.log ≤ m.toNat) ∧
      submissions w.log ≤
        (cfg.maxWaitRetries.toNat + 1) * (⌊cfg.waitBudget / 5⌋₊ + 1) +
          (cfg.maxDeviceRetries.getD 0).toNat := by
  constructor
  · apply terminates (I := Ready cfg) (C := fun w => Bounded cfg w.log)
      (E := fun _ w => Bounded cfg w.log) (allowance cfg)
    · exact fun v w ready => turn_ends sha256 reserved ready
    · apply (executeJob_ends clock disk).imp
      · intro v w ready
        have spent := ready.spent
        exact ⟨ready, show allowance cfg v w < submissionLimit cfg + 1 by omega⟩
      · exact fun _ _ bounded => bounded
  · intro w program steps
    have holds := holds_steps (I := Ready cfg) (C := fun w => Bounded cfg w.log)
      (E := fun _ w => Bounded cfg w.log)
      (fun v w ready => (turn_ends sha256 reserved ready).imp (fun _ _ after => after.1)
        fun _ _ bounded => bounded) (executeJob_ends clock disk) steps
    have bounded := holds_now holds (fun _ _ ready => ready.bounded) fun _ _ bounded => bounded
    refine ⟨step_of_effect effect_total program w, bounded.infra, ?_, bounded.submissions⟩
    intro m limit
    have device := bounded.device
    unfold deviceLimit at device
    rw [limit] at device
    exact device

/-- The budgets of an evaluation, with two wait windows of one minute. -/
def evaluationConfig : Config where
  identity := "eval"
  waitBudget := 60
  retryClassifier := retryKind
  maxRetries := none
  maxInfraRetries := some 2
  idempotentSubmission := true
  maxDeviceRetries := some 2
  deviceRetryDelay := none
  maxWaitRetries := 1
  directory := true

theorem retryKind_not_device (job : Option Job) : retryKind job ≠ some .device := by
  unfold retryKind
  split
  · simp
  · split
    · simp
    · split
      · simp
      · split <;> simp

theorem execution_ends_within_limits_evaluation :
    Acc (flip (Step Effect (turn id evaluationConfig)))
      (⟨0, none, []⟩, executeJob evaluationConfig) ∧
    ∀ w program,
      Relation.ReflTransGen (Step Effect (turn id evaluationConfig))
        (⟨0, none, []⟩, executeJob evaluationConfig) (w, program) →
      ((∃ reason, program = stop reason) ∨
        ∃ next, Step Effect (turn id evaluationConfig) (w, program) next) ∧
      (∀ m, some 2 = some m → resubmissions .infra w.log ≤ Int.toNat m) ∧
      (∀ m, some 2 = some m → resubmissions .device w.log ≤ Int.toNat m) ∧
      submissions w.log ≤ ((1 : Int).toNat + 1) * (⌊(60 : ℚ) / 5⌋₊ + 1) + (2 : Int).toNat :=
  execution_ends_within_limits id evaluationConfig retryKind_not_device 0 none

end AtrexAgent.Gateway
