import AtrexAgent.Library.Transition
import AtrexAgent.Workflow.LongSession

/-! What holds in every run of a long session: why each invocation was started, what the handoff of the result is and
what the store has counted. -/

namespace AtrexAgent.LongSession

open AtrexAgent.Transition

variable {arguments : Arguments}

/-! ### Invocations -/

/-- The usage that an invocation reports, where it is reported. -/
def Invocation.usage (invocation : Invocation) : Nat :=
  match invocation.round.turn with
  | some turn => if invocation.round.written then usagePolicy turn else 0
  | none => 0

def used (log : List Invocation) : Nat := (log.map Invocation.usage).sum

/-- The handoff that the completion check passed after an invocation. -/
def Invocation.passed (invocation : Invocation) : Option EpisodeHandoff :=
  match invocation.round.turn, invocation.round.terminal with
  | some _, .observed handoff diagnosis => if diagnosis = "" then some handoff else none
  | _, _ => none

def isFor (purpose : Purpose) (invocation : Invocation) : Bool := invocation.purpose = purpose

/-- The last invocation ended in a failure of a kind. -/
def EndedIn (arguments : Arguments) (kind : FailureKind) (log : List Invocation) : Prop :=
  ∃ last before turn, log = last :: before ∧ last.round.turn = some turn ∧
    (failureOf arguments turn).map Prod.fst = some kind

/-- Why an invocation of a purpose may follow others. -/
def Reason (arguments : Arguments) (before : List Invocation) (resume : Bool) : Purpose → Prop
  | .optimization => before = [] ∧ resume = false
  | .handoffResume => resume = true ∧
      (before.countP (isFor .handoffResume) : Int) < max 0 arguments.handoffResumes
  | .rateLimitRecovery => EndedIn arguments .rateLimit before
  | .outputLimitRecovery => resume = false ∧ EndedIn arguments .outputLimit before ∧
      (before.countP (isFor .outputLimitRecovery) : Int) < arguments.outputLimitRecoveryRetries

/-- When an invocation is started: with time and tokens left, not cancelled, and for a reason. -/
structure Law (arguments : Arguments) (before : List Invocation) (invocation : Invocation) : Prop where
  time : 0 < invocation.round.remaining
  free : invocation.round.cancelled = false
  tokens : tokensSpent arguments (used before) = false
  reason : Reason arguments before invocation.resume invocation.purpose

/-- A round at whose head a budget is used up, or the session cancelled. -/
def Stops (arguments : Arguments) (log : List Invocation) (round : Round) : Prop :=
  round.remaining ≤ 0 ∨ round.cancelled = true ∨ tokensSpent arguments (used log) = true

@[simp] theorem used_cons (invocation : Invocation) (log : List Invocation) :
    used (invocation :: log) = invocation.usage + used log := by simp [used]

/-! ### One round -/

/-- What ending or going on leaves as it was. -/
def Kept (before after : Session) : Prop :=
  after.totalTokens = before.totalTokens ∧ after.resumeCount = before.resumeCount

/-- How the loop goes on after a turn: as it was, or with the prompt of a recovery. -/
inductive Continued (arguments : Arguments) (turn : Turn) (recoveries : Nat) (after : Session) : Prop
  | plain (prompt : after.nextPrompt = none) (resume : after.retryResume = false)
      (recovered : after.recoveries = recoveries)
  | rateLimit (prompt : after.nextPrompt.isSome) (purpose : after.purpose = .rateLimitRecovery)
      (recovered : after.recoveries = recoveries)
      (failed : (failureOf arguments turn).map Prod.fst = some .rateLimit)
  | outputLimit (prompt : after.nextPrompt.isSome) (purpose : after.purpose = .outputLimitRecovery)
      (resume : after.retryResume = false) (recovered : after.recoveries = recoveries + 1)
      (bound : (recoveries : Int) < arguments.outputLimitRecoveryRetries)
      (failed : (failureOf arguments turn).map Prod.fst = some .outputLimit)

/-- What a part of the loop does with a session that has no prompt and no handoff. -/
def Spec (arguments : Arguments) (turn : Turn) (handoff : Option EpisodeHandoff) (before : Session) : Next → Prop
  | .continues after => Kept before after ∧ after.handoff = none ∧ Continued arguments turn before.recoveries after ∧
      handoff = none
  | .breaks after => Kept before after ∧ after.handoff = handoff ∧ after.recoveries = before.recoveries
  | .raises _ => True

/-- A session after the account of a turn. -/
structure Idle (session : Session) : Prop where
  prompt : session.nextPrompt = none
  resume : session.retryResume = false
  handoff : session.handoff = none

section Round

variable {session : Session} {turn : Turn} {round : Round}

theorem Idle.continues (idle : Idle session) : Spec arguments turn none session (.continues session) :=
  ⟨⟨rfl, rfl⟩, idle.handoff, .plain idle.prompt idle.resume rfl, rfl⟩

theorem Idle.breaks (idle : Idle session) : Spec arguments turn none session (.breaks session) :=
  ⟨⟨rfl, rfl⟩, idle.handoff, rfl⟩

theorem retryRateLimit_spec (idle : Idle session)
    (failed : (failureOf arguments turn).map Prod.fst = some .rateLimit) :
    Spec arguments turn none session (session.retryRateLimit arguments round) := by
  unfold Session.retryRateLimit
  dsimp only
  split
  · trivial
  split
  · trivial
  split
  · exact ⟨⟨rfl, rfl⟩, idle.handoff, .rateLimit rfl rfl rfl failed, rfl⟩
  · cases round.opened with
    | none => trivial
    | some fresh => exact ⟨⟨rfl, rfl⟩, idle.handoff, .rateLimit rfl rfl rfl failed, rfl⟩

theorem recoverOutputLimit_spec (idle : Idle session)
    (failed : (failureOf arguments turn).map Prod.fst = some .outputLimit) :
    Spec arguments turn none session (session.recoverOutputLimit arguments turn round) := by
  unfold Session.recoverOutputLimit
  dsimp only
  split
  · exact ⟨⟨rfl, rfl⟩, idle.handoff, rfl⟩
  rename_i fewer
  split
  · exact ⟨⟨rfl, rfl⟩, idle.handoff, rfl⟩
  split
  · exact ⟨⟨rfl, rfl⟩, idle.handoff, rfl⟩
  split
  · have bound : (session.recoveries : Int) < arguments.outputLimitRecoveryRetries :=
      not_le.mp fun reached => fewer (.inr reached)
    exact ⟨⟨rfl, rfl⟩, idle.handoff, .outputLimit rfl rfl idle.resume rfl bound failed, rfl⟩
  · trivial

theorem Idle.diagnosed (idle : Idle session) (diagnosis : String) :
    Idle { session with completionDiagnosis := diagnosis } := ⟨idle.prompt, idle.resume, idle.handoff⟩

/-- The diagnosis is not spoken of. -/
theorem Spec.of_diagnosed {handoff : Option EpisodeHandoff} {diagnosis : String} {next : Next}
    (spec : Spec arguments turn handoff { session with completionDiagnosis := diagnosis } next) :
    Spec arguments turn handoff session next := by
  cases next <;> exact spec

theorem recoverExit_spec (idle : Idle session) :
    Spec arguments turn none session (session.recoverExit arguments turn round) := by
  unfold Session.recoverExit
  split
  · rename_i failed
    exact recoverOutputLimit_spec idle failed
  · dsimp only
    generalize (if arguments.agentCli = "claude" then turn.transientApiError else "") = transient
    split
    · exact (idle.diagnosed _).continues.of_diagnosed
    · exact idle.breaks

theorem diagnoseFailure_eq (session : Session) (failure : Option (FailureKind × String)) :
    ∃ diagnosis, session.diagnoseFailure failure = { session with completionDiagnosis := diagnosis } := by
  unfold Session.diagnoseFailure
  split
  · exact ⟨_, rfl⟩
  · exact ⟨session.completionDiagnosis, rfl⟩

theorem recover_spec (idle : Idle session) :
    Spec arguments turn none session (session.recover arguments turn round) := by
  unfold Session.recover
  dsimp only
  split
  · rename_i limited
    exact retryRateLimit_spec idle limited.1
  · obtain ⟨diagnosis, diagnosed⟩ := diagnoseFailure_eq session (failureOf arguments turn)
    rw [diagnosed]
    have idle := idle.diagnosed diagnosis
    refine Spec.of_diagnosed (?_ : Spec arguments turn none { session with completionDiagnosis := diagnosis } _)
    generalize { session with completionDiagnosis := diagnosis } = session at idle ⊢
    split
    · split
      · exact (idle.diagnosed _).breaks.of_diagnosed
      split
      · exact (idle.diagnosed _).continues.of_diagnosed
      · exact idle.breaks
    · split
      · exact recoverExit_spec idle
      · exact idle.continues

variable (arguments) in
theorem settle_spec (idle : Idle session) {invocation : Invocation} (turned : invocation.round.turn = some turn) :
    Spec arguments turn invocation.passed session (session.settle arguments turn invocation.round) := by
  unfold Session.settle Invocation.passed
  rw [turned]
  dsimp only
  cases invocation.round.terminal with
  | raises => trivial
  | missing diagnosis =>
      have idle : Idle { session with timedOut := turn.timedOut, completionDiagnosis := diagnosis } :=
        ⟨idle.prompt, idle.resume, idle.handoff⟩
      exact recover_spec idle
  | observed handoff diagnosis =>
      dsimp only
      split
      · exact ⟨⟨rfl, rfl⟩, rfl, rfl⟩
      · have idle : Idle { session with timedOut := turn.timedOut, completionDiagnosis := diagnosis } :=
          ⟨idle.prompt, idle.resume, idle.handoff⟩
        exact recover_spec idle

end Round

/-! ### Runs -/

/-- A fresh session that is still to be started. -/
def pendingRecoveries (session : Session) : Nat :=
  if session.nextPrompt.isSome ∧ session.purpose = .outputLimitRecovery then 1 else 0

/-- What the variables say of the invocations before a round. -/
structure Holds (arguments : Arguments) (session : Session) (log : List Invocation) : Prop where
  tokens : session.totalTokens = used log
  resumes : session.resumeCount = log.countP (isFor .handoffResume)
  recovered : log.countP (isFor .outputLimitRecovery) + pendingRecoveries session ≤ session.recoveries
  bound : (session.recoveries : Int) ≤ arguments.outputLimitRecoveryRetries
  handoff : session.handoff = none
  unfinished : log.head?.bind Invocation.passed = none
  idle : session.nextPrompt = none → session.retryResume = false
  reason : session.nextPrompt.isSome → session.purpose ≠ .handoffResume ∧
    Reason arguments log session.retryResume session.purpose

/-- What a result says of the invocations. -/
structure Fits (arguments : Arguments) (result : SessionResult) (log : List Invocation) : Prop where
  handoff : result.handoff = log.head?.bind Invocation.passed
  tokens : result.tokens = used log
  resumes : result.resumeCount = log.countP (isFor .handoffResume)
  bound : (result.outputLimitRecoveries : Int) ≤ arguments.outputLimitRecoveryRetries

/-- The variables at the start of an invocation. -/
structure Begun (arguments : Arguments) (session : Session) (log : List Invocation) (resume : Bool) : Prop where
  tokens : session.totalTokens = used log
  resumes : session.resumeCount = log.countP (isFor .handoffResume) + if session.purpose = .handoffResume then 1 else 0
  recovered : log.countP (isFor .outputLimitRecovery) +
    (if session.purpose = .outputLimitRecovery then 1 else 0) ≤ session.recoveries
  bound : (session.recoveries : Int) ≤ arguments.outputLimitRecoveryRetries
  handoff : session.handoff = none
  idle : session.retryResume = false
  reason : Reason arguments log resume session.purpose

section Steps

variable {session : Session} {log : List Invocation} {round : Round}

theorem Holds.fits (holds : Holds arguments session log) {after : Session}
    (tokens : after.totalTokens = session.totalTokens) (resumes : after.resumeCount = session.resumeCount)
    (handoff : after.handoff = session.handoff) (recoveries : after.recoveries = session.recoveries) :
    Fits arguments (after.result arguments) log := by
  constructor
  · rw [holds.unfinished, ← holds.handoff]
    exact handoff
  · exact tokens.trans holds.tokens
  · exact resumes.trans holds.resumes
  · have bound := holds.bound
    rw [← recoveries] at bound
    exact bound

/-- What the head of the loop makes of a session. -/
def HeadSpec (arguments : Arguments) (log : List Invocation) (round : Round) : Head → Prop
  | .raises _ => True
  | .breaks after => Fits arguments (after.result arguments) log
  | .starts after _ resume => ¬ Stops arguments log round ∧ Begun arguments after log resume

/-- The prompt of a first invocation or of a recovery is used. -/
theorem Holds.begun (holds : Holds arguments session log) {prompt : String}
    (next : session.nextPrompt = some prompt) :
    Begun arguments { session with retryResume := false } log session.retryResume := by
  have is_some : session.nextPrompt.isSome := by simp [next]
  obtain ⟨not_resume, reason⟩ := holds.reason is_some
  have recovered := holds.recovered
  simp only [pendingRecoveries, is_some, true_and] at recovered
  exact ⟨holds.tokens, by simpa [not_resume] using holds.resumes, recovered, holds.bound, holds.handoff, rfl, reason⟩

/-- The session is resumed for its handoff. -/
theorem Holds.resumed (holds : Holds arguments session log) (next : session.nextPrompt = none)
    (fewer : ¬ max 0 arguments.handoffResumes ≤ session.resumeCount) :
    Begun arguments { session with resumeCount := session.resumeCount + 1, purpose := .handoffResume } log true := by
  have resumes := holds.resumes
  constructor
  · exact holds.tokens
  · simpa using resumes
  · exact (Nat.le_add_right _ _).trans holds.recovered
  · exact holds.bound
  · exact holds.handoff
  · exact holds.idle next
  · rw [resumes] at fewer
    exact ⟨rfl, not_le.mp fewer⟩

theorem head_spec (holds : Holds arguments session log) (round : Round) :
    HeadSpec arguments log round (session.head arguments round) := by
  unfold Session.head
  split
  · split
    · trivial
    · exact holds.fits rfl rfl rfl rfl
  rename_i time
  split
  · trivial
  rename_i free
  split
  · split
    · trivial
    · exact holds.fits rfl rfl rfl rfl
  rename_i tokens
  have going : ¬ Stops arguments log round := by
    rw [holds.tokens] at tokens
    rintro (late | cancelled | spent)
    · exact time late
    · exact free cancelled
    · exact tokens spent
  split
  · rename_i prompt next
    exact ⟨going, holds.begun next⟩
  · rename_i next
    split
    · exact holds.fits rfl rfl rfl rfl
    rename_i fewer
    split
    · exact holds.fits rfl rfl rfl rfl
    split
    · exact holds.fits rfl rfl rfl rfl
    · exact ⟨going, holds.resumed next fewer⟩

/-- What holds after every round of a run. -/
structure Sound (arguments : Arguments) (run : Run) : Prop where
  lawful : Lawful (Law arguments) run.log
  reported : run.reports.foldl max 0 = used run.log
  session : ∀ session, run.status = .running session → Holds arguments session run.log
  result : ∀ result, run.status = .returned result → Fits arguments result run.log

theorem law_of_begun {resume : Bool} (going : ¬ Stops arguments log round) (begun : Begun arguments session log resume)
    (prompt : String) (attemptId : Option String) :
    Law arguments log ⟨prompt, resume, session.purpose, attemptId, round⟩ := by
  simp only [Stops, not_or, not_le, Bool.not_eq_true] at going
  obtain ⟨time, free, tokens⟩ := going
  exact ⟨time, free, tokens, begun.reason⟩

theorem sound_raised {failure : Failure} {reports : List Nat} (lawful : Lawful (Law arguments) log)
    (reported : reports.foldl max 0 = used log) : Sound arguments ⟨.raised failure, log, reports⟩ :=
  ⟨lawful, reported, fun _ => nofun, fun _ => nofun⟩

/-- The session is as the account of its turn says. -/
structure Accounted (arguments : Arguments) (turn : Turn) (session : Session) (log : List Invocation) : Prop where
  idle : Idle session
  tokens : session.totalTokens = used log
  resumes : session.resumeCount = log.countP (isFor .handoffResume)
  recovered : log.countP (isFor .outputLimitRecovery) ≤ session.recoveries
  bound : (session.recoveries : Int) ≤ arguments.outputLimitRecoveryRetries
  turned : ∃ last before, log = last :: before ∧ last.round.turn = some turn

theorem Begun.account {resume : Bool} (begun : Begun arguments session log resume) {invocation : Invocation} {turn : Turn}
    (purpose : invocation.purpose = session.purpose) (turned : invocation.round.turn = some turn)
    (written : invocation.round.written = true) :
    Accounted arguments turn (session.account arguments turn) (invocation :: log) := by
  have usage : invocation.usage = usagePolicy turn := by simp [Invocation.usage, turned, written]
  constructor
  · exact ⟨rfl, begun.idle, begun.handoff⟩
  · rw [used_cons, usage, Nat.add_comm, ← begun.tokens]
    rfl
  · rw [List.countP_cons]
    simpa [isFor, purpose, Session.account] using begun.resumes
  · rw [List.countP_cons]
    simpa [isFor, purpose, Session.account] using begun.recovered
  · exact begun.bound
  · exact ⟨invocation, log, rfl, turned⟩

/-- The round goes on, and so does the run. -/
theorem Accounted.continues {turn : Turn} {after : Session} (accounted : Accounted arguments turn session log)
    (unfinished : log.head?.bind Invocation.passed = none) (kept : Kept session after) (handoff : after.handoff = none)
    (continued : Continued arguments turn session.recoveries after) : Holds arguments after log := by
  obtain ⟨tokens, resumes⟩ := kept
  have ended {kind : FailureKind} (failed : (failureOf arguments turn).map Prod.fst = some kind) :
      EndedIn arguments kind log := by
    obtain ⟨last, before, rfl, turned⟩ := accounted.turned
    exact ⟨last, before, turn, rfl, turned, failed⟩
  have recovered := accounted.recovered
  have bound := accounted.bound
  constructor
  · exact tokens.trans accounted.tokens
  · exact resumes.trans accounted.resumes
  · cases continued with
    | plain prompt resume same => simpa [pendingRecoveries, prompt, same] using recovered
    | rateLimit prompt purpose same failed => simpa [pendingRecoveries, purpose, same] using recovered
    | outputLimit prompt purpose resume more _ failed => simpa [pendingRecoveries, prompt, purpose, more] using recovered
  · cases continued with
    | plain prompt resume same => rwa [same]
    | rateLimit prompt purpose same failed => rwa [same]
    | outputLimit prompt purpose resume more fewer failed =>
        rw [more]
        exact fewer
  · exact handoff
  · exact unfinished
  · intro no_prompt
    cases continued with
    | plain prompt resume same => exact resume
    | rateLimit prompt purpose same failed => simp [no_prompt] at prompt
    | outputLimit prompt purpose resume more fewer failed => exact resume
  · intro is_some
    cases continued with
    | plain prompt resume same => simp [prompt] at is_some
    | rateLimit prompt purpose same failed =>
        rw [purpose]
        exact ⟨nofun, ended failed⟩
    | outputLimit prompt purpose resume more fewer failed =>
        rw [purpose]
        exact ⟨nofun, resume, ended failed, lt_of_le_of_lt (by exact_mod_cast recovered) fewer⟩

theorem invoked_sound {resume : Bool} {reports : List Nat} (lawful : Lawful (Law arguments) log)
    (reported : reports.foldl max 0 = used log) (going : ¬ Stops arguments log round)
    (begun : Begun arguments session log resume) (prompt : String) (attemptId : Option String) :
    Sound arguments (session.invoked arguments (⟨prompt, resume, session.purpose, attemptId, round⟩ :: log) reports
      round) := by
  generalize same : (⟨prompt, resume, session.purpose, attemptId, round⟩ : Invocation) = invocation
  have lawful : Lawful (Law arguments) (invocation :: log) := ⟨same ▸ law_of_begun going begun prompt attemptId, lawful⟩
  have found : invocation.round = round := same ▸ rfl
  have purpose : invocation.purpose = session.purpose := same ▸ rfl
  subst found
  unfold Session.invoked
  cases turned : invocation.round.turn with
  | none => exact sound_raised lawful (by simpa [Invocation.usage, turned] using reported)
  | some turn =>
      dsimp only
      by_cases written : invocation.round.written = true
      · have accounted := begun.account purpose turned written
        have reported : (reports ++ [(session.account arguments turn).totalTokens]).foldl max 0 =
            used (invocation :: log) := by
          rw [List.foldl_append, reported, accounted.tokens, used_cons]
          simp
        rw [if_neg (by simp [written])]
        split
        · exact sound_raised lawful reported
        · have spec := settle_spec arguments accounted.idle turned
          split
          · rename_i after settled
            rw [settled] at spec
            obtain ⟨kept, handoff, continued, unfinished⟩ := spec
            refine ⟨lawful, reported, fun session running => ?_, fun _ => nofun⟩
            cases running
            exact accounted.continues unfinished kept handoff continued
          · rename_i after settled
            rw [settled] at spec
            obtain ⟨⟨tokens, resumes⟩, handoff, recovered⟩ := spec
            refine ⟨lawful, reported, fun _ => nofun, fun result returned => ?_⟩
            cases returned
            have bound := accounted.bound
            rw [← recovered] at bound
            exact ⟨handoff, tokens.trans accounted.tokens, resumes.trans accounted.resumes, bound⟩
          · exact sound_raised lawful reported
      · rw [if_pos (by simpa using written)]
        exact sound_raised lawful (by simpa [Invocation.usage, turned, written] using reported)

theorem advance_sound {run : Run} (sound : Sound arguments run) (round : Round) :
    Sound arguments (run.advance arguments round) := by
  unfold Run.advance
  split
  · rename_i session running
    have spec := head_spec (sound.session session running) round
    split
    · exact sound_raised sound.lawful sound.reported
    · rename_i after ended
      rw [ended] at spec
      refine ⟨sound.lawful, sound.reported, fun _ => nofun, fun result returned => ?_⟩
      cases returned
      exact spec
    · rename_i after prompt resume started
      rw [started] at spec
      exact invoked_sound sound.lawful sound.reported spec.1 spec.2 prompt _
  · exact sound

theorem start_sound : Sound arguments (.start arguments) := by
  unfold Run.start
  split
  · rename_i range
    refine ⟨trivial, rfl, fun session running => ?_, fun _ => nofun⟩
    cases running
    exact ⟨rfl, rfl, Nat.le_refl 0, range.1, rfl, rfl, fun _ => rfl, fun _ => ⟨nofun, rfl, rfl⟩⟩
  · exact sound_raised trivial rfl

theorem runRounds_sound (arguments : Arguments) (rounds : List Round) : Sound arguments (runRounds arguments rounds) :=
  List.foldlRecOn rounds _ start_sound fun _ sound round _ => advance_sound sound round

/-- A run that a round stops has started all its invocations. -/
theorem advance_stopped {run : Run} (sound : Sound arguments run) (stops : Stops arguments run.log round) :
    (run.advance arguments round).log = run.log ∧
      ∀ session, (run.advance arguments round).status ≠ .running session := by
  unfold Run.advance
  split
  · rename_i session running
    have spec := head_spec (sound.session session running) round
    split
    · exact ⟨rfl, fun _ => nofun⟩
    · exact ⟨rfl, fun _ => nofun⟩
    · rename_i after prompt resume started
      rw [started] at spec
      exact absurd stops spec.1
  · rename_i ended
    exact ⟨rfl, ended⟩

theorem advance_ended {run : Run} (ended : ∀ session, run.status ≠ .running session) (rounds : List Round) :
    rounds.foldl (Run.advance arguments) run = run := by
  induction rounds with
  | nil => rfl
  | cons round rest ih =>
      have same : run.advance arguments round = run := by
        unfold Run.advance
        split
        · rename_i session running
          exact absurd running (ended session)
        · rfl
      rw [List.foldl_cons, same, ih]

end Steps

/-! ### The store -/

/-- What `record_usage` leaves of a state: the update, or the state as it was. -/
def SupervisorState.persist (receiptId : String) (state : SupervisorState) (call : Int × Bool) : SupervisorState :=
  (state.recordUsage receiptId call.1 call.2).getD state

/-- How the reports of a run arrive at the store: in their order, and between them stale or repeated totals, and
calls that the store cannot write. -/
inductive Arrives : Nat → List Nat → List (Int × Bool) → Prop
  | nil (largest : Nat) : Arrives largest [] []
  | report {largest total : Nat} {reports : List Nat} {calls : List (Int × Bool)}
      (rest : Arrives (max largest total) reports calls) :
      Arrives largest (total :: reports) (((total : Int), true) :: calls)
  | stale {largest : Nat} {total : Int} {written : Bool} {reports : List Nat} {calls : List (Int × Bool)}
      (old : total ≤ largest) (rest : Arrives largest reports calls) :
      Arrives largest reports ((total, written) :: calls)
  | unwritten {largest : Nat} {total : Int} {reports : List Nat} {calls : List (Int × Bool)}
      (rest : Arrives largest reports calls) : Arrives largest reports ((total, false) :: calls)

theorem persist_written (receiptId : String) (state : SupervisorState) (total : Int) :
    (state.persist receiptId (total, true)).receipt receiptId = max (state.receipt receiptId) (max 0 total) ∧
      (state.persist receiptId (total, true)).tokens - (state.persist receiptId (total, true)).receipt receiptId =
        state.tokens - state.receipt receiptId := by
  simp only [SupervisorState.persist, SupervisorState.recordUsage, SupervisorState.receipt, if_true, Option.getD_some]
  exact ⟨trivial, by omega⟩

theorem persist_unwritten (receiptId : String) (state : SupervisorState) (total : Int) :
    state.persist receiptId (total, false) = state := rfl

/-- The tokens grow as the receipt does, which ends as the largest report. -/
theorem persist_arrives {receiptId : String} {largest : Nat} {reports : List Nat} {calls : List (Int × Bool)}
    (arrives : Arrives largest reports calls) {state : SupervisorState} (receipt : state.receipt receiptId = largest) :
    (calls.foldl (SupervisorState.persist receiptId) state).tokens =
      state.tokens + (reports.foldl max largest - largest : Int) := by
  induction arrives generalizing state with
  | nil largest => simp
  | @report largest total reports calls rest ih =>
      obtain ⟨grown, tokens⟩ := persist_written receiptId state total
      have now : (state.persist receiptId ((total : Int), true)).receipt receiptId = (max largest total : Nat) := by
        rw [grown, receipt]
        omega
      rw [List.foldl_cons, ih now, List.foldl_cons]
      rw [now, receipt] at tokens
      omega
  | @stale largest total written reports calls old rest ih =>
      cases written with
      | false => exact ih receipt
      | true =>
          obtain ⟨grown, tokens⟩ := persist_written receiptId state total
          have now : (state.persist receiptId (total, true)).receipt receiptId = largest := by
            rw [grown, receipt]
            omega
          rw [List.foldl_cons, ih now]
          rw [now, receipt] at tokens
          omega
  | unwritten rest ih => exact ih receipt

/-! ### Sessions -/

/-- What holds of a long session up to any round. -/
structure Respects (arguments : Arguments) (rounds : List Round) : Prop where
  /-- Every invocation is started with time and tokens left, not cancelled, and for a reason: it is the first, it
  repairs the handoff, or the one before it met a rate limit or the output limit. -/
  started : Lawful (Law arguments) (runRounds arguments rounds).log
  resumes : (runRounds arguments rounds).log.countP (isFor .handoffResume) ≤ arguments.handoffResumes.toNat
  recoveries : (runRounds arguments rounds).log.countP (isFor .outputLimitRecovery) ≤
    arguments.outputLimitRecoveryRetries.toNat
  stopped : ∀ before round after, rounds = before ++ round :: after →
    Stops arguments (runRounds arguments before).log round →
      (runRounds arguments rounds).log = (runRounds arguments before).log
  result : ∀ result, (runRounds arguments rounds).status = .returned result →
    Fits arguments result (runRounds arguments rounds).log
  /-- The store counts what the invocations report, however the totals arrive. -/
  counted : ∀ (receiptId : String) (state : SupervisorState) (calls : List (Int × Bool)),
    state.receipt receiptId = 0 → Arrives 0 (runRounds arguments rounds).reports calls →
      (calls.foldl (SupervisorState.persist receiptId) state).tokens =
        state.tokens + used (runRounds arguments rounds).log

theorem session_respects (arguments : Arguments) (rounds : List Round) : Respects arguments rounds := by
  have sound := runRounds_sound arguments rounds
  constructor
  · exact sound.lawful
  · refine Lawful.countP_le (fun before invocation law repairs => ?_) sound.lawful
    have purpose : invocation.purpose = .handoffResume := by simpa [isFor] using repairs
    have reason := law.reason
    rw [purpose] at reason
    have fewer := reason.2
    omega
  · refine Lawful.countP_le (fun before invocation law recovers => ?_) sound.lawful
    have purpose : invocation.purpose = .outputLimitRecovery := by simpa [isFor] using recovers
    have reason := law.reason
    rw [purpose] at reason
    have fewer := reason.2.2
    omega
  · rintro before round after rfl stops
    obtain ⟨log, ended⟩ := advance_stopped (runRounds_sound arguments before) stops
    rw [runRounds, List.foldl_append, List.foldl_cons, ← runRounds, advance_ended ended, log]
  · exact sound.result
  · intro receiptId state calls receipt arrives
    rw [persist_arrives arrives (by simpa using receipt), sound.reported]
    simp

/-- A run whose sessions are never resumed for a handoff. -/
def throttled : Arguments := ⟨"claude", "Optimize.", "a", 0, 2, none, ""⟩

/-- A round in which the provider limits the rate. -/
def throttling : Round where
  remaining := 60
  cancelled := false
  diagnosis := ""
  turn := some ⟨1, false, "a", "", "", none, some (.rateLimit, "429"), ""⟩
  written := true
  blocked := false
  terminal := .missing "handoff file is missing"
  remainingAfter := 30
  waitCancelled := false
  recoveryPrompt := none
  opened := none

/-- A session whose rate is limited is resumed all the same. -/
theorem resumes_unbounded : ¬ ∀ (arguments : Arguments) (rounds : List Round), 0 ≤ arguments.handoffResumes →
    ((runRounds arguments rounds).log.countP Invocation.resume : Int) ≤ arguments.handoffResumes := by
  intro always
  have bound := always throttled [throttling, throttling] (by decide)
  have resumed : (runRounds throttled [throttling, throttling]).log.countP Invocation.resume = 1 := by decide +kernel
  rw [resumed] at bound
  exact absurd bound (by decide)

end AtrexAgent.LongSession
