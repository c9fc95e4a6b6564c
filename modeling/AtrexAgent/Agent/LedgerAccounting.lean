import AtrexAgent.Agent.CodexLedger
import AtrexAgent.Library.Traversal
import AtrexAgent.Workspace.Snapshot

/-! What the calls of a ledger observer return adds up to what the ledger says last. -/

namespace AtrexAgent.CodexLedger

open AtrexAgent.Json
open AtrexAgent.Sources (Bytes)
open AtrexAgent.Tokens

variable {F : Type} [FloatText F] {otherwise : Bytes → Except Failure (Json F)}

/-! ### Whole lines -/

/-- A content that ends where a line ends. -/
def Whole (content : Bytes) : Prop := content = [] ∨ ∃ front, content = front ++ [10]

theorem byteLines_cons (b : UInt8) (rest : Bytes) (no_pair : b = 13 → ∀ rest', rest ≠ 10 :: rest') :
    byteLines (b :: rest) = if b = 10 ∨ b = 13 then [] :: byteLines rest else consByte b (byteLines rest) := by
  rw [byteLines]
  rintro rest' rfl rfl
  exact no_pair rfl rest' rfl

theorem byteLines_pair (rest : Bytes) : byteLines (13 :: 10 :: rest) = [] :: byteLines rest := by
  rw [byteLines]

theorem consByte_ne_nil (b : UInt8) (lines : List Bytes) : consByte b lines ≠ [] := by
  cases lines <;> simp [consByte]

theorem byteLines_ne_nil {content : Bytes} (some_byte : content ≠ []) : byteLines content ≠ [] := by
  unfold byteLines
  split
  · exact absurd rfl some_byte
  · simp
  · split
    · simp
    · exact consByte_ne_nil _ _

theorem consByte_append (b : UInt8) {lines : List Bytes} (some_line : lines ≠ []) (more : List Bytes) :
    consByte b (lines ++ more) = consByte b lines ++ more := by
  cases lines with
  | nil => exact absurd rfl some_line
  | cons line rest => rfl

theorem byteLines_ended (front second : Bytes) :
    byteLines (front ++ 10 :: second) = byteLines (front ++ [10]) ++ byteLines second := by
  induction front using byteLines.induct with
  | case1 => simp [byteLines]
  | case2 rest ih =>
      rw [List.cons_append, List.cons_append, byteLines_pair, ih, List.cons_append, List.cons_append, byteLines_pair]
      rfl
  | case3 b rest no_pair ends ih =>
      by_cases paired : b = 13 ∧ rest = []
      · obtain ⟨rfl, rfl⟩ := paired
        exact byteLines_pair second
      · have apart (tail : Bytes) : b = 13 → ∀ rest', rest ++ 10 :: tail ≠ 10 :: rest' := by
          intro carriage rest' same
          cases rest with
          | nil => exact paired ⟨carriage, rfl⟩
          | cons c rest => exact no_pair rest carriage (by rw [(List.cons.inj same).1])
        rw [List.cons_append, List.cons_append, byteLines_cons _ _ (apart second), byteLines_cons _ _ (apart []),
          if_pos ends, if_pos ends, ih]
        rfl
  | case4 b rest no_pair plain ih =>
      have apart (tail : Bytes) : b = 13 → ∀ rest', rest ++ 10 :: tail ≠ 10 :: rest' := fun carriage =>
        absurd (.inr carriage) plain
      rw [List.cons_append, List.cons_append, byteLines_cons _ _ (apart second), byteLines_cons _ _ (apart []),
        if_neg plain, if_neg plain, ih, consByte_append]
      exact byteLines_ne_nil (by simp)

theorem byteLines_append {first : Bytes} (whole : Whole first) (second : Bytes) :
    byteLines (first ++ second) = byteLines first ++ byteLines second := by
  rcases whole with rfl | ⟨front, rfl⟩
  · rfl
  · rw [List.append_assoc]
    exact byteLines_ended front second

/-! ### One call -/

/-- The rows of a content, where every line of it is one. -/
def rowsOf (otherwise : Bytes → Except Failure (Json F)) (content : Bytes) : Except Failure (List Row) :=
  (byteLines content).mapM (lineRow otherwise)

theorem rowsOf_append {first second : Bytes} (whole : Whole first) {before after : List Row}
    (read : rowsOf otherwise first = .ok before) (read' : rowsOf otherwise second = .ok after) :
    rowsOf otherwise (first ++ second) = .ok (before ++ after) := by
  unfold rowsOf at read read' ⊢
  rw [byteLines_append whole, List.mapM_append, read]
  simp only [bind, Except.bind, read']
  rfl

/-- The rows of a content are those of a whole part of it, and then those of what follows. -/
theorem rowsOf_split {first second : Bytes} {total : List Row} (whole : Whole first)
    (read : rowsOf otherwise (first ++ second) = .ok total) :
    ∃ before after, rowsOf otherwise first = .ok before ∧ total = before ++ after := by
  unfold rowsOf at read ⊢
  rw [byteLines_append whole, List.mapM_append] at read
  obtain ⟨before, parsed, read⟩ := (bind_ok_iff _ _ _).mp read
  obtain ⟨after, -, read⟩ := (bind_ok_iff _ _ _).mp read
  cases read
  exact ⟨before, after, parsed, rfl⟩

theorem lastSession_append (rows rows' : List Row) {session : TokenUsage} (last : lastSession rows' = some session) :
    lastSession (rows ++ rows') = some session := by
  unfold lastSession at last ⊢
  rw [List.filterMap_append, List.getLast?_append, last]
  rfl

/-- The counters of a session that may not have begun. -/
def countsOf (session : Option Counts) : Counts := session.getD 0

theorem reconcile_ok {previous invocation final : Counts} {names : List Component}
    (agrees : reconcile (ofCounts previous) (ofCounts invocation) (ofCounts final) names = .ok ()) :
    ∀ name ∈ names, previous name + invocation name = final name := by
  induction names with
  | nil => simp
  | cons name rest ih =>
      simp only [reconcile, component_ofCounts] at agrees
      split at agrees
      · cases agrees
      · rename_i same
        rw [not_not] at same
        intro other member
        rcases List.mem_cons.mp member with rfl | member
        · exact same
        · exact ih agrees other member

/-- What a call returns that does not raise: the usage that its rows added to that of the session. -/
structure Reported (rows : List Row) (before : Counts) (observation : Observation) : Prop where
  counted : (deltasOf observation.events).Sublist (lasts rows)
  summed : observation.terminalUsage = sumTokenUsages (deltasOf observation.events)
  added : ∃ added, observation.terminalUsage = ofCounts added ∧ observation.sessionUsage = ofCounts (before + added)
  last : Agree rows → lastSession rows = some observation.sessionUsage

theorem readPayload_ok {session : Option Counts} {payload : Bytes} {observation : Observation}
    (read : readPayload otherwise (session.map ofCounts) payload = .ok observation) :
    payload ≠ [] ∧ ∃ rows, rowsOf otherwise payload = .ok rows ∧ Reported rows (countsOf session) observation := by
  unfold readPayload at read
  split at read
  · cases read
  · rename_i some_byte
    obtain ⟨reading, lines, read⟩ := (bind_ok_iff _ _ _).mp read
    obtain ⟨rows, parsed, reads⟩ := reads_lines ((by constructor <;> simp [lasts, deltasOf]) : Reads [] _) lines
    rw [List.nil_append] at reads
    refine ⟨some_byte, rows, parsed, ?_⟩
    split at read
    · cases read
    · rename_i final ended
      obtain ⟨⟨⟩, agrees, same⟩ := (bind_ok_iff _ _ _).mp read
      cases same
      obtain ⟨some_delta, ⟨counts, rfl, -⟩, -⟩ := reads.ended final ended
      obtain ⟨deltas, exact_deltas⟩ := reads.exact_deltas
      have some_counts : deltas ≠ [] := by
        rintro rfl
        exact some_delta exact_deltas
      have summed : sumTokenUsages reading.deltas = ofCounts deltas.sum := by
        rw [exact_deltas, sumTokenUsages_exact some_counts]
      have previous : (session.map ofCounts).getD .zero = ofCounts (countsOf session) := by
        cases session <;> rfl
      obtain ⟨same_deltas, -, -, same_events⟩ := flush_spec reading
      have events : deltasOf (reading.flush.event fun sequence =>
          ⟨sequence, .terminalUsage, some (sumTokenUsages reading.deltas), none, none, none⟩).events = reading.deltas := by
        simp only [Reading.event, deltasOf_append, same_events, reads.events]
        simp [deltasOf]
      rw [previous, summed] at agrees
      have total : counts = countsOf session + deltas.sum := by
        funext name
        exact (reconcile_ok agrees name (by cases name <;> decide)).symm
      refine ⟨?_, ?_, ⟨deltas.sum, summed, congrArg ofCounts total⟩, fun agree => reads.last agree _ ended⟩
      · rw [events]
        exact reads.counted
      · rw [events]

/-! ### Calls -/

theorem findRolloutPath_kept {observer after : Observer} {call : Call} (found : observer.findRolloutPath call = .ok after) :
    after.offset = observer.offset ∧ after.sessionUsage = observer.sessionUsage := by
  unfold Observer.findRolloutPath at found
  split at found
  · cases found
  split at found
  · cases found
    exact ⟨rfl, rfl⟩
  split at found
  · cases found
    exact ⟨rfl, rfl⟩
  · cases found

variable (otherwise) in
/-- A call to `observe` that returns has read what is new; one that raises leaves the offset and the usage. -/
theorem observe_spec (observer : Observer) (call : Call) :
    match observer.observe otherwise call with
    | (.ok observation, after) => ∃ content, call.content = some content ∧
        readPayload otherwise observer.sessionUsage (content.drop observer.offset) = .ok observation ∧
          after.offset = content.length ∧ after.sessionUsage = some observation.sessionUsage
    | (.error _, after) => after.offset = observer.offset ∧ after.sessionUsage = observer.sessionUsage := by
  unfold Observer.observe
  by_cases invalidated : observer.invalidated = true
  · rw [if_pos invalidated]
    exact ⟨rfl, rfl⟩
  · rw [if_neg invalidated]
    cases found : observer.findRolloutPath call with
    | error failure => exact ⟨rfl, rfl⟩
    | ok after =>
        obtain ⟨offset, usage⟩ := findRolloutPath_kept found
        dsimp only
        by_cases switched : after.threadId ≠ "" ∧ call.threadId ≠ after.threadId
        · rw [if_pos switched]
          exact ⟨offset, usage⟩
        · rw [if_neg switched]
          cases opened : call.content with
          | none => exact ⟨offset, usage⟩
          | some content =>
              dsimp only
              rw [offset, usage]
              cases read : readPayload otherwise observer.sessionUsage (content.drop observer.offset) with
              | error failure => exact ⟨offset, usage⟩
              | ok observation => exact ⟨content, rfl, read, rfl, rfl⟩

variable (otherwise) in
theorem call_spec (observer : Observer) (call : Call) :
    match observer.call otherwise call with
    | (.ok observation, after) => ∃ content, call.content = some content ∧
        readPayload otherwise observer.sessionUsage (content.drop observer.offset) = .ok observation ∧
          after.offset = content.length ∧ after.sessionUsage = some observation.sessionUsage
    | (.error _, after) => after.offset = observer.offset ∧ after.sessionUsage = observer.sessionUsage := by
  have spec := observe_spec otherwise observer call
  unfold Observer.call
  cases call.terminal with
  | none => exact spec
  | some terminal =>
      dsimp only
      unfold Observer.observeReconciled
      cases observed : observer.observe otherwise call with
      | mk result after =>
          rw [observed] at spec
          cases result with
          | error failure => exact ⟨rfl, rfl⟩
          | ok observation =>
              dsimp only
              by_cases agrees : usageMatches observation.sessionUsage terminal = true
              · rw [if_pos agrees]
                exact spec
              · rw [if_neg agrees]
                exact ⟨rfl, rfl⟩

/-- The calls of a run, with what each returned. -/
def runCalls (otherwise : Bytes → Except Failure (Json F)) : Observer → List Call → List Observation × Observer
  | observer, [] => ([], observer)
  | observer, call :: rest =>
      match observer.call otherwise call with
      | (.ok observation, after) =>
          let later := runCalls otherwise after rest
          (observation :: later.1, later.2)
      | (.error _, after) => runCalls otherwise after rest

/-- A call finds the beginning of the ledger, up to the end of a line. -/
def ReadsPart (ledger : Bytes) (call : Call) : Prop :=
  ∀ content, call.content = some content → Whole content ∧ content <+: ledger

/-- Every line of the ledger is JSON, and a row that repeats a cumulative total repeats the usage. -/
def WellFormed (otherwise : Bytes → Except Failure (Json F)) (ledger : Bytes) : Prop :=
  ∃ rows, rowsOf otherwise ledger = .ok rows ∧ Agree rows

/-- The usage that some calls returned in all. -/
def returnedUsage (returned : List Observation) : Option TokenUsage :=
  if returned = [] then none else some (sumTokenUsages (returned.map Observation.terminalUsage))

/-- What is known of the calls up to a point. -/
structure Accounted (otherwise : Bytes → Except Failure (Json F)) (ledger : Bytes) (returned : List Observation)
    (observer : Observer) : Prop where
  whole : Whole (ledger.take observer.offset)
  within : observer.offset ≤ ledger.length
  rows : ∃ rows, rowsOf otherwise (ledger.take observer.offset) = .ok rows ∧
    (returned.flatMap fun observation => deltasOf observation.events).Sublist (lasts rows) ∧
    lastSession rows = observer.sessionUsage
  session : ∃ counts : List Counts, returned.map Observation.terminalUsage = counts.map ofCounts ∧
    observer.sessionUsage = if returned = [] then none else some (ofCounts counts.sum)
  summed : ∀ observation ∈ returned, observation.terminalUsage = sumTokenUsages (deltasOf observation.events)

/-- A call that returns moves the accounts on by its rows. -/
theorem Accounted.step {ledger : Bytes} {returned : List Observation} {observer after : Observer} {call : Call}
    {observation : Observation} {total : List Row} (accounted : Accounted otherwise ledger returned observer)
    (parsed : rowsOf otherwise ledger = .ok total) (agree : Agree total) (reads : ReadsPart ledger call)
    (done : observer.call otherwise call = (.ok observation, after)) :
    Accounted otherwise ledger (returned ++ [observation]) after := by
  have spec := call_spec otherwise observer call
  rw [done] at spec
  obtain ⟨content, opened, read, offset, usage⟩ := spec
  obtain ⟨whole, start⟩ := reads content opened
  obtain ⟨rows, consumed, counted, last⟩ := accounted.rows
  obtain ⟨counts, terminals, session⟩ := accounted.session
  have earlier : observer.sessionUsage = (if returned = [] then none else some counts.sum : Option Counts).map ofCounts := by
    rw [session]
    split <;> rfl
  have before : countsOf (if returned = [] then none else some counts.sum) = counts.sum := by
    split
    · rename_i none_returned
      rw [none_returned, List.map_nil, eq_comm, List.map_eq_nil_iff] at terminals
      rw [terminals]
      rfl
    · rfl
  rw [earlier] at read
  obtain ⟨some_byte, rows', parsed', reported⟩ := readPayload_ok read
  rw [before] at reported
  obtain ⟨added, terminal, session_after⟩ := reported.added
  have longer : observer.offset ≤ content.length := by
    by_contra short
    exact some_byte (List.drop_eq_nil_of_le (by omega))
  have consumed_part : ledger.take observer.offset = content.take observer.offset := by
    obtain ⟨rest, rfl⟩ := start
    rw [List.take_append_of_le_length longer]
  have part : ledger.take after.offset = content := by
    rw [offset]
    exact (List.prefix_iff_eq_take.mp start).symm
  have content_rows : rowsOf otherwise content = .ok (rows ++ rows') := by
    have joined := rowsOf_append accounted.whole consumed parsed'
    rwa [consumed_part, List.take_append_drop] at joined
  have agree_content : Agree (rows ++ rows') := by
    obtain ⟨rest, rfl⟩ := start
    obtain ⟨front, more, read_front, rfl⟩ := rowsOf_split whole parsed
    rw [content_rows] at read_front
    cases read_front
    exact agree.sublist (List.sublist_append_left _ _)
  refine ⟨part ▸ whole, offset ▸ start.length_le, ⟨rows ++ rows', part ▸ content_rows, ?_, ?_⟩,
    ⟨counts ++ [added], ?_, ?_⟩, fun other member => ?_⟩
  · rw [List.flatMap_append, lasts_append]
    exact counted.append (by simpa using reported.counted)
  · rw [usage]
    exact lastSession_append _ _ (reported.last (agree_content.sublist (List.sublist_append_right _ _)))
  · simp [terminals, terminal]
  · rw [usage, session_after]
    simp
  · rcases List.mem_append.mp member with member | only
    · exact accounted.summed other member
    · rw [List.mem_singleton.mp only]
      exact reported.summed

/-- What a call leaves that raises. -/
theorem Accounted.kept {ledger : Bytes} {returned : List Observation} {observer after : Observer}
    (accounted : Accounted otherwise ledger returned observer) (offset : after.offset = observer.offset)
    (usage : after.sessionUsage = observer.sessionUsage) : Accounted otherwise ledger returned after := by
  obtain ⟨whole, within, rows, session, summed⟩ := accounted
  exact ⟨offset ▸ whole, offset ▸ within, by rw [offset, usage]; exact rows, by rw [usage]; exact session, summed⟩

/-- The accounts of a run. -/
theorem runCalls_accounted {ledger : Bytes} {returned : List Observation} {observer : Observer} {calls : List Call}
    {total : List Row} (accounted : Accounted otherwise ledger returned observer)
    (parsed : rowsOf otherwise ledger = .ok total) (agree : Agree total)
    (reads : ∀ call ∈ calls, ReadsPart ledger call) :
    Accounted otherwise ledger (returned ++ (runCalls otherwise observer calls).1) (runCalls otherwise observer calls).2 := by
  induction calls generalizing returned observer with
  | nil => simpa [runCalls] using accounted
  | cons call rest ih =>
      have later := fun other member => reads other (List.mem_cons_of_mem _ member)
      rw [runCalls]
      cases done : observer.call otherwise call with
      | mk result after =>
          cases result with
          | error failure =>
              have spec := call_spec otherwise observer call
              rw [done] at spec
              exact ih (accounted.kept spec.1 spec.2) later
          | ok observation =>
              have stepped := accounted.step parsed agree (reads call List.mem_cons_self) done
              simpa using ih stepped later

/-! ### Runs -/

/-- An observer that has read nothing. -/
structure Observer.Fresh (observer : Observer) : Prop where
  offset : observer.offset = 0
  session : observer.sessionUsage = none

theorem Observer.Fresh.accounted {observer : Observer} (fresh : observer.Fresh) (ledger : Bytes) :
    Accounted otherwise ledger [] observer := by
  obtain ⟨offset, session⟩ := fresh
  constructor
  · rw [offset]
    exact .inl rfl
  · simp [offset]
  · rw [offset, session]
    exact ⟨[], rfl, List.Sublist.refl _, rfl⟩
  · exact ⟨[], rfl, session⟩
  · simp

theorem Accounted.usage {ledger : Bytes} {returned : List Observation} {observer : Observer}
    (accounted : Accounted otherwise ledger returned observer) : returnedUsage returned = observer.sessionUsage := by
  obtain ⟨counts, terminals, session⟩ := accounted.session
  unfold returnedUsage
  rw [session]
  split
  · rfl
  · rename_i some_returned
    have some_counts : counts ≠ [] := by
      rintro rfl
      exact some_returned (List.map_eq_nil_iff.mp terminals)
    rw [terminals, sumTokenUsages_exact some_counts]

/-- The accounts of every run of calls that each find a part of the ledger. -/
structure Telescopes (otherwise : Bytes → Except Failure (Json F)) (ledger : Bytes) (start : Observer)
    (calls : List Call) : Prop where
  /-- The rows that are consumed: each is counted once at most, and the last one has the usage of all calls. -/
  rows : ∃ rows, rowsOf otherwise (ledger.take (runCalls otherwise start calls).2.offset) = .ok rows ∧
    ((runCalls otherwise start calls).1.flatMap fun observation => deltasOf observation.events).Sublist (lasts rows) ∧
    returnedUsage (runCalls otherwise start calls).1 = lastSession rows
  summed : ∀ observation ∈ (runCalls otherwise start calls).1,
    observation.terminalUsage = sumTokenUsages (deltasOf observation.events)
  /-- Other calls that consume as much return as much. -/
  splits : ∀ start' calls', Observer.Fresh start' → (∀ call ∈ calls', ReadsPart ledger call) →
    (runCalls otherwise start' calls').2.offset = (runCalls otherwise start calls).2.offset →
      returnedUsage (runCalls otherwise start' calls').1 = returnedUsage (runCalls otherwise start calls).1

/-- The calls of an observer on a well-formed ledger telescope, and a call that raises leaves the offset and the
usage of the session. -/
theorem ledger_telescopes (otherwise : Bytes → Except Failure (Json F)) {ledger : Bytes}
    (wellFormed : WellFormed otherwise ledger) :
    (∀ start calls, Observer.Fresh start → (∀ call ∈ calls, ReadsPart ledger call) →
      Telescopes otherwise ledger start calls) ∧
    ∀ (observer after : Observer) (call : Call) (failure : Failure),
      observer.call otherwise call = (.error failure, after) →
        after.offset = observer.offset ∧ after.sessionUsage = observer.sessionUsage := by
  obtain ⟨total, parsed, agree⟩ := wellFormed
  have accounts (start : Observer) (calls : List Call) (fresh : start.Fresh) (reads : ∀ call ∈ calls, ReadsPart ledger call) :
      Accounted otherwise ledger (runCalls otherwise start calls).1 (runCalls otherwise start calls).2 :=
    runCalls_accounted (fresh.accounted ledger) parsed agree reads
  constructor
  · intro start calls fresh reads
    have accounted := accounts start calls fresh reads
    obtain ⟨rows, consumed, counted, last⟩ := accounted.rows
    refine ⟨⟨rows, consumed, counted, accounted.usage.trans last.symm⟩, accounted.summed, ?_⟩
    intro start' calls' fresh' reads' same
    have accounted' := accounts start' calls' fresh' reads'
    obtain ⟨rows', consumed', -, last'⟩ := accounted'.rows
    rw [same, consumed] at consumed'
    cases consumed'
    rw [accounted'.usage, accounted.usage, ← last, ← last']
  · intro observer after call failure done
    have spec := call_spec otherwise observer call
    rw [done] at spec
    exact spec

/-- A ledger of one row. -/
def firstRow : Bytes :=
  Sources.encode ("\x7b\"type\":\"event_msg\",\"payload\":\x7b\"type\":\"token_count\",\"info\":\x7b" ++
    "\"last_token_usage\":\x7b\"input_tokens\":3,\"output_tokens\":2,\"total_tokens\":5\x7d," ++
    "\"total_token_usage\":\x7b\"input_tokens\":3,\"output_tokens\":2,\"total_tokens\":5\x7d\x7d\x7d\x7d\n")

theorem ledger_telescopes_first : Telescopes (F := Sources.Imprecise) (fun _ => .error .other) firstRow .new
    [⟨"01234567-89ab-cdef-0123-456789abcdef", none, some "rollout.jsonl", some firstRow⟩] := by
  refine (ledger_telescopes (F := Sources.Imprecise) (fun _ => .error .other)
    ⟨[.tokenCount (ofCounts fun name => match name with
        | .input => 3
        | .output => 2
        | .total => 5
        | _ => 0) (ofCounts fun name => match name with
        | .input => 3
        | .output => 2
        | .total => 5
        | _ => 0)], by decide +kernel, ?_⟩).1 .new _ ⟨rfl, rfl⟩ ?_
  · intro last session last' session' first second _
    rw [List.mem_singleton] at first second
    cases first
    cases second
    rfl
  · intro call member content opened
    cases List.mem_singleton.mp member
    cases opened
    exact ⟨.inr ⟨firstRow.dropLast, by decide +kernel⟩, List.prefix_refl _⟩

end AtrexAgent.CodexLedger
