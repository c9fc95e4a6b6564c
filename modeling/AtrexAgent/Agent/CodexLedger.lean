import AtrexAgent.Agent.TokenUsage
import AtrexAgent.Library.Lines
import AtrexAgent.Workspace.Contract

/-! `CodexSessionLedgerObserver`: the usage of a session, read call by call from a ledger that only grows. -/

namespace AtrexAgent.CodexLedger

open AtrexAgent.Json
open AtrexAgent.Sources (Bytes decode detectsUtf8)
open AtrexAgent.Tokens

/-- What a call raises: an error of the ledger, or one that is not its own. -/
inductive Failure where
  | ledger (message : String)
  | unicode
  | unhashable
  | os
  | other
  deriving DecidableEq, Repr

inductive Kind where
  | usageDelta | terminalUsage | phaseMarker
  deriving DecidableEq, Repr

/-- `NormalizedAgentEvent` -/
structure Event where
  sequence : Nat
  kind : Kind
  usage : Option TokenUsage
  phase : Option String
  action : Option String
  markerId : Option String
  deriving DecidableEq, Repr

structure Observation where
  events : List Event
  terminalUsage : TokenUsage
  sessionUsage : TokenUsage
  deriving DecidableEq, Repr

variable {F : Type} [FloatText F]

/-! ### Lines -/

def consByte (b : UInt8) : List Bytes → List Bytes
  | [] => [[b]]
  | line :: rest => (b :: line) :: rest

/-- `payload.splitlines()` -/
def byteLines : Bytes → List Bytes
  | [] => []
  | 13 :: 10 :: rest => [] :: byteLines rest
  | b :: rest => if b = 10 ∨ b = 13 then [] :: byteLines rest else consByte b (byteLines rest)

/-- `json.loads` of a line, `otherwise` being what it makes of a line that it does not take for UTF-8. -/
def parseLine (otherwise : Bytes → Except Failure (Json F)) (raw : Bytes) : Except Failure (Json F) :=
  if detectsUtf8 raw then
    match decode raw with
    | none => .error .unicode
    | some text =>
        match loads text.toList with
        | none => .error (.ledger "malformed Codex session ledger JSON")
        | some value => .ok value
  else otherwise raw

/-! ### Phase markers -/

structure Receipt where
  action : String
  phase : String
  markerId : String
  deriving DecidableEq, Repr

def PHASE_MARKER_PREFIX : Text := "ATREX_TRACE_EVENT=".toList

mutual

/-- `_strings` -/
def strings : Json F → List String
  | .str text => [text]
  | .arr items => stringsAmong items
  | .obj items => stringsOf items
  | _ => []

def stringsAmong : List (Json F) → List String
  | [] => []
  | value :: rest => strings value ++ stringsAmong rest

def stringsOf : Dict F → List String
  | [] => []
  | (_, value) :: rest => strings value ++ stringsOf rest

end

def isText (expected : String) : Json F → Bool
  | .str text => text = expected
  | _ => false

/-- The receipt of a line, if it is one. -/
def receiptOf (line : Text) : Except Failure (Option Receipt) :=
  if PHASE_MARKER_PREFIX.isPrefixOf line then
    match (loads (line.drop PHASE_MARKER_PREFIX.length) : Option (Json F)) with
    | some (.obj receipt) =>
        if isText "atrex.iteration_trace.v1" (get receipt "schema") && isText "phase_marker" (get receipt "kind") then
          match get receipt "action" with
          | .arr _ | .obj _ => .error .unhashable
          | .str action =>
              match get receipt "phase", get receipt "marker_id" with
              | .str phase, .str markerId =>
                  if (action = "start" ∨ action = "end") ∧ phase ≠ "" ∧ markerId ≠ "" then
                    .ok (some ⟨action, phase, markerId⟩)
                  else .ok none
              | _, _ => .ok none
          | _ => .ok none
        else .ok none
    | _ => .ok none
  else .ok none

def receiptsIn (F : Type) [FloatText F] : List Text → Except Failure (List Receipt)
  | [] => .ok []
  | line :: rest => do
      let first ← receiptOf (F := F) line
      let later ← receiptsIn F rest
      pure (first.toList ++ later)

/-- `phase_marker_receipts` -/
def phaseMarkerReceipts (output : Json F) : Except Failure (List Receipt) :=
  receiptsIn F ((strings output).flatMap fun text => splitlines text.toList)

/-! ### Rows -/

/-- `_counter` -/
def counter (value : Dict F) (name : String) : Option Int :=
  match get value name with
  | .int n => if 0 ≤ n then some n else none
  | _ => none

def counterOr (value : Dict F) (name : String) : Option Int :=
  if (find? value name).isSome then counter value name else some 0

/-- `_usage` -/
def usageOf (value : Json F) : TokenUsage :=
  match value with
  | .obj fields =>
      match counter fields "input_tokens", counter fields "output_tokens", counterOr fields "cached_input_tokens",
          counterOr fields "cache_write_input_tokens", counter fields "total_tokens" with
      | some input, some output, some cached, some written, some total =>
          if input < cached then .unavailable
          else ⟨some (input - cached), some output, some cached, some written, some total, .exact⟩
      | _, _, _, _, _ => .unavailable
  | _ => .unavailable

/-- `value if isinstance(value, Mapping) else {}` -/
def mapping (value : Json F) : Dict F :=
  match value with
  | .obj fields => fields
  | _ => []

/-- What the loop of `observe` reads of a line. -/
inductive Row where
  | skipped
  | output (receipts : List Receipt)
  | tokenCount (last session : TokenUsage)
  deriving DecidableEq, Repr

def rowOf (record : Json F) : Except Failure Row :=
  match record with
  | .obj fields =>
      let body := mapping (get fields "payload")
      if isText "response_item" (get fields "type") && isText "custom_tool_call_output" (get body "type") then
        Row.output <$> phaseMarkerReceipts (get body "output")
      else if isText "event_msg" (get fields "type") && isText "token_count" (get body "type") then
        let info := mapping (get body "info")
        .ok (.tokenCount (usageOf (get info "last_token_usage")) (usageOf (get info "total_token_usage")))
      else .ok .skipped
  | _ => .ok .skipped

/-! ### Reading -/

/-- The variables of the loop. -/
structure Reading where
  events : List Event
  pending : List Receipt
  deltas : List TokenUsage
  final : Option TokenUsage
  observed : Int

def Reading.event (reading : Reading) (event : Nat → Event) : Reading :=
  { reading with events := reading.events ++ [event reading.events.length] }

def marker (receipt : Receipt) (sequence : Nat) : Event :=
  ⟨sequence, .phaseMarker, none, some receipt.phase, some receipt.action, some receipt.markerId⟩

/-- The pending markers become events. -/
def Reading.flush (reading : Reading) : Reading :=
  { reading.pending.foldl (fun reading receipt => reading.event (marker receipt)) reading with pending := [] }

/-- A usage that the cumulative one of the row shows to be new. -/
def Reading.delta (reading : Reading) (last session : TokenUsage) (total : Int) : Reading :=
  { reading.event (fun sequence => ⟨sequence, .usageDelta, some last, none, none, none⟩) with
    deltas := reading.deltas ++ [last]
    final := some session
    observed := total }

def Reading.row (reading : Reading) : Row → Except Failure Reading
  | .skipped => .ok reading
  | .output receipts => .ok { reading with pending := reading.pending ++ receipts }
  | .tokenCount last session =>
      match last.totalTokens, session.totalTokens with
      | some lastTotal, some total =>
          if lastTotal ≤ 0 then .error (.ledger "Codex token_count reported non-positive usage")
          else if total < reading.observed then .error (.ledger "Codex cumulative usage moved backwards")
          else .ok (if total = reading.observed then reading.flush else (reading.delta last session total).flush)
      | _, _ => .error (.ledger "Codex token_count is missing usage totals")

def readLine (otherwise : Bytes → Except Failure (Json F)) (reading : Reading) (raw : Bytes) :
    Except Failure Reading := do
  let record ← parseLine otherwise raw
  let row ← rowOf record
  reading.row row

/-- The counter names as the program spells them. -/
def componentName : Component → String
  | .input => "input_tokens"
  | .output => "output_tokens"
  | .cacheRead => "cache_read_tokens"
  | .cacheWrite => "cache_write_tokens"
  | .total => "total_tokens"

/-- The counters of an invocation, and of what was before it, are those of the session. -/
def reconcile (previous invocation final : TokenUsage) : List Component → Except Failure Unit
  | [] => .ok ()
  | name :: rest =>
      match previous.component name, invocation.component name, final.component name with
      | some before, some more, some after =>
          if before + more ≠ after then
            .error (.ledger ("Codex " ++ componentName name ++ " component does not reconcile to cumulative usage"))
          else reconcile previous invocation final rest
      | _, _, _ => reconcile previous invocation final rest

/-! ### The observer -/

structure Observer where
  threadId : String
  path : Option String
  offset : Nat
  sessionUsage : Option TokenUsage
  invalidated : Bool

def Observer.new : Observer := ⟨"", none, 0, none, false⟩

/-- A call, with what it finds: the newest ledger of the thread, if there is one, and the content of the observer's
ledger, if it can be opened. -/
structure Call where
  threadId : String
  /-- The terminal usage of `observe_reconciled`; nothing for `observe`. -/
  terminal : Option TokenUsage
  newest : Option String
  content : Option Bytes

/-- `_THREAD_ID.fullmatch` -/
def isThreadId (name : String) : Bool :=
  32 ≤ name.length && name.length ≤ 64 &&
    name.toList.all fun c => "0123456789abcdefABCDEF-".toList.contains c

/-- `_find_rollout_path` -/
def Observer.findRolloutPath (observer : Observer) (call : Call) : Except Failure Observer :=
  if !isThreadId call.threadId then .error (.ledger "invalid Codex thread id")
  else if observer.path.isSome then .ok observer
  else
    match call.newest with
    | some path => .ok { observer with threadId := call.threadId, path := some path }
    | none => .error (.ledger "Codex session ledger not found")

/-- What `observe` makes of the bytes that are new. -/
def readPayload (otherwise : Bytes → Except Failure (Json F)) (session : Option TokenUsage) (payload : Bytes) :
    Except Failure Observation := do
  if payload = [] then .error (.ledger "Codex session ledger has no new events")
  else do
    let previous := session.getD .zero
    let start : Reading := ⟨[], [], [], none, (session.bind TokenUsage.totalTokens).getD 0⟩
    let reading ← (byteLines payload).foldlM (readLine otherwise) start
    match reading.final with
    | none => .error (.ledger "Codex ledger exposed no new token_count delta")
    | some final => do
        let invocation := sumTokenUsages reading.deltas
        reconcile previous invocation final COMPONENTS
        let ended := reading.flush.event fun sequence =>
          ⟨sequence, .terminalUsage, some invocation, none, none, none⟩
        pure ⟨ended.events, invocation, final⟩

/-- `observe`, with the state it leaves. -/
def Observer.observe (otherwise : Bytes → Except Failure (Json F)) (observer : Observer) (call : Call) :
    Except Failure Observation × Observer :=
  if observer.invalidated then
    (.error (.ledger "Codex ledger cursor missed an accounted invocation"), observer)
  else
    match observer.findRolloutPath call with
    | .error failure => (.error failure, observer)
    | .ok observer =>
        if observer.threadId ≠ "" ∧ call.threadId ≠ observer.threadId then
          (.error (.ledger "Codex observer cannot switch thread ids"), observer)
        else
          match call.content with
          | none => (.error .os, observer)
          | some content =>
              match readPayload otherwise observer.sessionUsage (content.drop observer.offset) with
              | .error failure => (.error failure, observer)
              | .ok observation =>
                  (.ok observation,
                    { observer with offset := content.length, sessionUsage := some observation.sessionUsage })

/-- `usage_matches` -/
def usageMatches (observed terminal : TokenUsage) : Bool :=
  (COMPONENTS.all fun name =>
    match observed.component name, terminal.component name with
    | some left, some right => left = right
    | _, _ => true) && observed.totalTokens.isSome && terminal.totalTokens.isSome

/-- `observe_reconciled`, which takes back what a call did that raises. -/
def Observer.observeReconciled (otherwise : Bytes → Except Failure (Json F)) (observer : Observer) (call : Call)
    (terminal : TokenUsage) : Except Failure Observation × Observer :=
  match observer.observe otherwise call with
  | (.ok observation, after) =>
      if usageMatches observation.sessionUsage terminal then (.ok observation, after)
      else (.error (.ledger "Codex ledger usage does not match stdout terminal usage"),
        { after with offset := observer.offset, sessionUsage := observer.sessionUsage })
  | (.error failure, after) =>
      (.error failure, { after with offset := observer.offset, sessionUsage := observer.sessionUsage })

/-- A call of either kind. -/
def Observer.call (otherwise : Bytes → Except Failure (Json F)) (observer : Observer) (call : Call) :
    Except Failure Observation × Observer :=
  match call.terminal with
  | none => observer.observe otherwise call
  | some terminal => observer.observeReconciled otherwise call terminal

/-! ### Rows that are read -/

section Rows

variable {otherwise : Bytes → Except Failure (Json F)} {reading after : Reading} {rows : List Row}

/-- The row of a line. -/
def lineRow (otherwise : Bytes → Except Failure (Json F)) (raw : Bytes) : Except Failure Row := do
  let record ← parseLine otherwise raw
  rowOf record

theorem readLine_ok {raw : Bytes} : readLine otherwise reading raw = .ok after ↔
    ∃ row, lineRow otherwise raw = .ok row ∧ reading.row row = .ok after := by
  unfold readLine lineRow
  cases parseLine otherwise raw with
  | error failure => simp [bind, Except.bind]
  | ok record => cases here : rowOf record <;> simp [bind, Except.bind, here]

/-- The usages that the rows say were added. -/
def lasts (rows : List Row) : List TokenUsage :=
  rows.filterMap fun row => match row with
    | .tokenCount last _ => some last
    | _ => none

/-- The cumulative usage of the last row that has one. -/
def lastSession (rows : List Row) : Option TokenUsage :=
  (rows.filterMap fun row => match row with
    | .tokenCount _ session => some session
    | _ => none).getLast?

/-- A row that repeats a cumulative total repeats the usage. -/
def Agree (rows : List Row) : Prop :=
  ∀ last session last' session', Row.tokenCount last session ∈ rows → Row.tokenCount last' session' ∈ rows →
    session.totalTokens = session'.totalTokens → session = session'

/-- The usages of the deltas among some events. -/
def deltasOf (events : List Event) : List TokenUsage :=
  events.filterMap fun event => if event.kind = .usageDelta then event.usage else none

theorem usageOf_exact {value : Json F} {total : Int} (known : (usageOf value).totalTokens = some total) :
    ∃ counts, usageOf value = ofCounts counts ∧ counts .total = total := by
  unfold usageOf at known ⊢
  split at known
  · split at known
    · split at known
      · cases known
      · rename_i input output cached written _ _ _ _ _ _ enough
        cases known
        refine ⟨fun name => match name with
          | .input => input - cached
          | .output => output
          | .cacheRead => cached
          | .cacheWrite => written
          | .total => total, if_neg enough, rfl⟩
    · cases known
  · cases known

/-- The usages of a row are exact where their totals are known. -/
def Row.Exact : Row → Prop
  | .tokenCount last session =>
      (∀ total, last.totalTokens = some total → ∃ counts, last = ofCounts counts ∧ counts .total = total) ∧
        ∀ total, session.totalTokens = some total → ∃ counts, session = ofCounts counts ∧ counts .total = total
  | _ => True

omit [FloatText F] in
theorem output_exact {receipts : Except Failure (List Receipt)} {row : Row} (read : Row.output <$> receipts = .ok row) :
    row.Exact := by
  cases receipts with
  | error failure => cases read
  | ok receipts =>
      cases read
      trivial

theorem lineRow_exact {raw : Bytes} {row : Row} (read : lineRow otherwise raw = .ok row) : row.Exact := by
  obtain ⟨record, -, here⟩ : ∃ record, parseLine otherwise raw = .ok record ∧ rowOf record = .ok row := by
    unfold lineRow at read
    cases parsed : parseLine otherwise raw with
    | error failure => simp [parsed, bind, Except.bind] at read
    | ok record => exact ⟨record, rfl, by simpa [parsed, bind, Except.bind] using read⟩
  unfold rowOf at here
  split at here
  · dsimp only at here
    split at here
    · exact output_exact here
    · split at here
      · cases here
        exact ⟨fun total known => usageOf_exact known, fun total known => usageOf_exact known⟩
      · cases here
        trivial
  · cases here
    trivial

@[simp] theorem deltasOf_append (events events' : List Event) :
    deltasOf (events ++ events') = deltasOf events ++ deltasOf events' := List.filterMap_append

@[simp] theorem deltasOf_marker (receipt : Receipt) (sequence : Nat) : deltasOf [marker receipt sequence] = [] := rfl

/-- Markers change nothing but the events, and are no deltas. -/
theorem flush_spec (reading : Reading) : reading.flush.deltas = reading.deltas ∧ reading.flush.final = reading.final ∧
    reading.flush.observed = reading.observed ∧ deltasOf reading.flush.events = deltasOf reading.events := by
  have fold (receipts : List Receipt) (reading : Reading) :
      let flushed := receipts.foldl (fun reading receipt => reading.event (marker receipt)) reading
      flushed.deltas = reading.deltas ∧ flushed.final = reading.final ∧ flushed.observed = reading.observed ∧
        deltasOf flushed.events = deltasOf reading.events := by
    induction receipts generalizing reading with
    | nil => exact ⟨rfl, rfl, rfl, rfl⟩
    | cons receipt rest ih =>
        obtain ⟨deltas, final, observed, events⟩ := ih (reading.event (marker receipt))
        exact ⟨deltas, final, observed, events.trans (by simp [Reading.event])⟩
  exact fold reading.pending reading

/-- What the variables of the loop say of the rows that have been read. -/
structure Reads (rows : List Row) (reading : Reading) : Prop where
  counted : reading.deltas.Sublist (lasts rows)
  events : deltasOf reading.events = reading.deltas
  exact_deltas : ∃ counts : List Counts, reading.deltas = counts.map ofCounts
  ended : ∀ final, reading.final = some final → reading.deltas ≠ [] ∧
    (∃ counts, final = ofCounts counts ∧ counts .total = reading.observed) ∧ ∃ last, Row.tokenCount last final ∈ rows
  last : Agree rows → ∀ final, reading.final = some final → lastSession rows = some final

theorem Reads.flush (reads : Reads rows reading) : Reads rows reading.flush := by
  obtain ⟨deltas, final, observed, events⟩ := flush_spec reading
  constructor
  · rw [deltas]; exact reads.counted
  · rw [events, deltas]; exact reads.events
  · rw [deltas]; exact reads.exact_deltas
  · rw [deltas, final, observed]; exact reads.ended
  · rw [final]; exact reads.last

@[simp] theorem lasts_append (rows rows' : List Row) : lasts (rows ++ rows') = lasts rows ++ lasts rows' :=
  List.filterMap_append

theorem lastSession_snoc (rows : List Row) (row : Row) : lastSession (rows ++ [row]) =
    match row with
    | .tokenCount _ session => some session
    | _ => lastSession rows := by
  unfold lastSession
  rw [List.filterMap_append]
  cases row <;> simp

theorem Agree.sublist {rows rows' : List Row} (agree : Agree rows') (sub : rows.Sublist rows') : Agree rows :=
  fun _ _ _ _ first second => agree _ _ _ _ (sub.subset first) (sub.subset second)

/-- Rows that have no usage are read besides. -/
theorem Reads.besides (reads : Reads rows reading) (row : Row) (no_usage : ∀ last session, row ≠ .tokenCount last session) :
    Reads (rows ++ [row]) reading := by
  have none_last : lasts [row] = [] := by
    cases row with
    | tokenCount last session => exact absurd rfl (no_usage last session)
    | _ => rfl
  constructor
  · rw [lasts_append, none_last, List.append_nil]
    exact reads.counted
  · exact reads.events
  · exact reads.exact_deltas
  · intro final here
    obtain ⟨some_delta, counts, last, member⟩ := reads.ended final here
    exact ⟨some_delta, counts, last, List.mem_append_left _ member⟩
  · intro agree final here
    have before := reads.last (agree.sublist (List.sublist_append_left _ _)) final here
    rw [lastSession_snoc]
    cases row with
    | tokenCount last session => exact absurd rfl (no_usage last session)
    | _ => exact before

/-- A row that repeats the cumulative usage is read besides, too. -/
theorem Reads.repeated (reads : Reads rows reading) {last session : TokenUsage}
    (same : session.totalTokens = some reading.observed) : Reads (rows ++ [.tokenCount last session]) reading := by
  constructor
  · rw [lasts_append]
    exact reads.counted.trans (List.sublist_append_left _ _)
  · exact reads.events
  · exact reads.exact_deltas
  · intro final here
    obtain ⟨some_delta, counts, other, member⟩ := reads.ended final here
    exact ⟨some_delta, counts, other, List.mem_append_left _ member⟩
  · intro agree final here
    obtain ⟨-, ⟨counts, rfl, total⟩, other, member⟩ := reads.ended final here
    rw [lastSession_snoc]
    refine congrArg some (agree last session other _ (by simp) (List.mem_append_left _ member) ?_)
    rw [same, total_ofCounts, total]

theorem Reads.delta (reads : Reads rows reading) {last session : TokenUsage} {total : Int}
    (exact_last : ∃ counts, last = ofCounts counts)
    (exact_session : ∃ counts, session = ofCounts counts ∧ counts .total = total) :
    Reads (rows ++ [.tokenCount last session]) (reading.delta last session total) := by
  obtain ⟨counts, rfl⟩ := exact_last
  obtain ⟨before, deltas⟩ := reads.exact_deltas
  constructor
  · rw [lasts_append]
    exact reads.counted.append (List.Sublist.refl _)
  · simp [Reading.delta, Reading.event, deltasOf]
    exact reads.events
  · exact ⟨before ++ [counts], by simp [Reading.delta, Reading.event, deltas]⟩
  · intro final here
    cases here
    exact ⟨by simp [Reading.delta], exact_session, _, List.mem_append_right _ List.mem_cons_self⟩
  · intro _ final here
    cases here
    rw [lastSession_snoc]

/-- One row is read. -/
theorem Reads.row (reads : Reads rows reading) {row : Row} (exact_row : row.Exact) (read : reading.row row = .ok after) :
    Reads (rows ++ [row]) after := by
  cases row with
  | skipped =>
      cases read
      exact reads.besides _ fun _ _ => nofun
  | output receipts =>
      cases read
      have besides := reads.besides (.output receipts) fun _ _ => nofun
      exact ⟨besides.counted, besides.events, besides.exact_deltas, besides.ended, besides.last⟩
  | tokenCount last session =>
      unfold Reading.row at read
      dsimp only at read
      split at read
      · rename_i lastTotal total last_known known
        split at read
        · cases read
        split at read
        · cases read
        cases read
        split
        · rename_i same
          exact (reads.repeated (same ▸ known)).flush
        · obtain ⟨counts, exact_last, -⟩ := exact_row.1 lastTotal last_known
          exact (reads.delta ⟨counts, exact_last⟩ (exact_row.2 total known)).flush
      · cases read

/-- The lines of a call are rows, and what the loop knows after them. -/
theorem reads_lines {lines : List Bytes} (reads : Reads rows reading)
    (read : lines.foldlM (readLine otherwise) reading = .ok after) :
    ∃ more, lines.mapM (lineRow otherwise) = .ok more ∧ Reads (rows ++ more) after := by
  induction lines generalizing rows reading with
  | nil =>
      cases read
      exact ⟨[], rfl, by simpa using reads⟩
  | cons raw rest ih =>
      rw [List.foldlM_cons] at read
      cases first : readLine otherwise reading raw with
      | error failure => simp [first, bind, Except.bind] at read
      | ok middle =>
          obtain ⟨row, parsed, stepped⟩ := readLine_ok.mp first
          obtain ⟨more, later, after_reads⟩ := ih (reads.row (lineRow_exact parsed) stepped)
            (by simpa [first, bind, Except.bind] using read)
          refine ⟨row :: more, ?_, by simpa using after_reads⟩
          rw [List.mapM_cons, parsed]
          simp only [bind, Except.bind, later]
          rfl

end Rows

end AtrexAgent.CodexLedger
