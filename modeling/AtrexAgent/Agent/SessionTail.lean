import AtrexAgent.Library.Framing

/-! `TranscriptTail.read`: the lines of a transcript that an agent appends to, read as it grows. -/

namespace AtrexAgent.Transcripts

open AtrexAgent.Framing

abbrev Bytes := List UInt8

structure CaptureLimits where
  fileBytes : Nat
  totalBytes : Nat
  lineBytes : Nat
  files : Nat
  records : Nat
  positive : 0 < fileBytes ∧ 0 < totalBytes ∧ 0 < lineBytes ∧ 0 < files ∧ 0 < records

/-- What is used of the limits, and the warnings: a category and a reason. -/
structure CaptureBudget where
  used : Nat
  records : Nat
  warnings : List (String × String)

def CaptureBudget.warn (budget : CaptureBudget) (category reason : String) : CaptureBudget :=
  { budget with warnings := budget.warnings ++ [(category, reason)] }

def CaptureBudget.warning (budget : CaptureBudget) (reason : String) : CaptureBudget :=
  budget.warn "capture_limit" reason

/-- `CaptureBudget.record` -/
def CaptureBudget.record (limits : CaptureLimits) (budget : CaptureBudget) : Bool × CaptureBudget :=
  if limits.records ≤ budget.records then (false, budget.warning "session_records_exceeded")
  else (true, { budget with records := budget.records + 1 })

structure TranscriptTail where
  offset : Nat
  capturedBytes : Nat
  identity : Option (Nat × Nat)
  pending : Bytes
  droppingLine : Bool
  incomplete : Bool
  stopped : Bool
  invalidated : Bool

/-- The tail with a chunk of the file. -/
def TranscriptTail.capture (tail : TranscriptTail) (chunk : Bytes) : TranscriptTail :=
  { tail with
    offset := tail.offset + chunk.length
    capturedBytes := tail.capturedBytes + chunk.length
    pending := tail.pending ++ chunk }

def CaptureBudget.use (budget : CaptureBudget) (size : Nat) : CaptureBudget :=
  { budget with used := budget.used + size }

def TranscriptTail.new : TranscriptTail := ⟨0, 0, none, [], false, false, false, false⟩

/-- A transcript as a call finds it: its name, its device and inode, its size, and the bytes that are read
from it, which may be more by then. -/
structure Transcript where
  name : String
  identity : Nat × Nat
  size : Nat
  bytes : Bytes

def NEWLINE : UInt8 := 10

/-- What a call yields, and what it leaves. -/
abbrev Result := List Bytes × TranscriptTail × CaptureBudget

variable (limits : CaptureLimits)

/-- `complete_lines` -/
def completeLines (tail : TranscriptTail) (budget : CaptureBudget) : Result :=
  match found : cut NEWLINE tail.pending with
  | none =>
      if tail.droppingLine then ([], { tail with pending := [] }, budget)
      else if limits.lineBytes < tail.pending.length then
        ([], { tail with pending := [], droppingLine := true, incomplete := true },
          budget.warning "native_line_bytes_exceeded")
      else ([], tail, budget)
  | some (line, rest) =>
      have := (cut_some NEWLINE found).2.2
      if tail.droppingLine then completeLines { tail with pending := rest, droppingLine := false } budget
      else if limits.lineBytes < line.length then
        completeLines { tail with pending := rest, incomplete := true } (budget.warning "native_line_bytes_exceeded")
      else
        match budget.record limits with
        | (false, budget) => ([], { tail with pending := [], stopped := true }, budget)
        | (true, budget) =>
            let result := completeLines { tail with pending := rest } budget
            (line :: result.1, result.2)
termination_by tail.pending.length

section Turns

variable {limits} {tail : TranscriptTail} {budget : CaptureBudget} {line rest : Bytes}

theorem completeLines_open (unfinished : cut NEWLINE tail.pending = none) : completeLines limits tail budget =
    if tail.droppingLine then ([], { tail with pending := [] }, budget)
    else if limits.lineBytes < tail.pending.length then
      ([], { tail with pending := [], droppingLine := true, incomplete := true },
        budget.warning "native_line_bytes_exceeded")
    else ([], tail, budget) := by
  rw [completeLines]
  split
  · rfl
  · rename_i found
    rw [unfinished] at found
    cases found

theorem completeLines_cut (found : cut NEWLINE tail.pending = some (line, rest)) : completeLines limits tail budget =
    if tail.droppingLine then completeLines limits { tail with pending := rest, droppingLine := false } budget
    else if limits.lineBytes < line.length then
      completeLines limits { tail with pending := rest, incomplete := true } (budget.warning "native_line_bytes_exceeded")
    else if limits.records ≤ budget.records then
      ([], { tail with pending := [], stopped := true }, budget.warning "session_records_exceeded")
    else
      let result := completeLines limits { tail with pending := rest } { budget with records := budget.records + 1 }
      (line :: result.1, result.2) := by
  rw [completeLines]
  split
  · rename_i none
    rw [found] at none
    cases none
  · rename_i other
    rw [found] at other
    cases other
    unfold CaptureBudget.record
    by_cases full : limits.records ≤ budget.records <;> simp [full]

end Turns

/-- Nothing of the file is read by it. -/
theorem completeLines_kept (tail : TranscriptTail) (budget : CaptureBudget) :
    (completeLines limits tail budget).2.1.offset = tail.offset ∧
      (completeLines limits tail budget).2.1.capturedBytes = tail.capturedBytes ∧
      (completeLines limits tail budget).2.1.identity = tail.identity ∧
      (completeLines limits tail budget).2.2.used = budget.used := by
  induction size : tail.pending.length using Nat.strong_induction_on generalizing tail budget with
  | h n ih =>
      cases found : cut NEWLINE tail.pending with
      | none =>
          rw [completeLines_open found]
          split
          · simp
          · split <;> simp [CaptureBudget.warning, CaptureBudget.warn]
      | some parts =>
          obtain ⟨line, rest⟩ := parts
          have shorter := (cut_some NEWLINE found).2.2
          rw [completeLines_cut found]
          split
          · exact ih _ (size ▸ shorter) { tail with pending := rest, droppingLine := false } budget rfl
          split
          · exact ih _ (size ▸ shorter) { tail with pending := rest, incomplete := true }
              (budget.warning "native_line_bytes_exceeded") rfl
          split
          · simp [CaptureBudget.warning, CaptureBudget.warn]
          · exact ih _ (size ▸ shorter) { tail with pending := rest } { budget with records := budget.records + 1 } rfl

/-- `if final and self.pending` -/
def finish (final : Bool) (tail : TranscriptTail) (budget : CaptureBudget) : Result :=
  if final && !tail.pending.isEmpty then
    match budget.record limits with
    | (false, budget) => ([], { tail with pending := [], stopped := true }, budget)
    | (true, budget) => ([tail.pending], { tail with pending := [] }, budget)
  else ([], tail, budget)

def CHUNK : Nat := 256 * 1024

/-- What may still be captured of the file. -/
def available (tail : TranscriptTail) (budget : CaptureBudget) : Nat :=
  min (limits.fileBytes - tail.capturedBytes) (limits.totalBytes - budget.used)

/-- The chunk that the loop reads next. -/
def nextChunk (file : Transcript) (stop : Nat) (tail : TranscriptTail) (budget : CaptureBudget) : Bytes :=
  (file.bytes.drop tail.offset).take (min (min CHUNK (available limits tail budget)) (stop - tail.offset))

/-- The loop over the chunks up to `stop`. -/
def readChunks (file : Transcript) (stop : Nat) (final : Bool) (tail : TranscriptTail) (budget : CaptureBudget) :
    Result :=
  if tail.offset < stop then
    if available limits tail budget = 0 then
      ([], { tail with pending := [], stopped := true },
        budget.warning (if limits.fileBytes ≤ tail.capturedBytes then "per_file_bytes_exceeded"
          else "session_bytes_exceeded"))
    else
      let chunk := nextChunk limits file stop tail budget
      if _empty : chunk = [] then
        finish limits final { tail with stopped := true, invalidated := true }
          (budget.warn "native_capture" ("transcript shrank during read: " ++ file.name))
      else
        let result := completeLines limits (tail.capture chunk) (budget.use chunk.length)
        if result.2.1.stopped then result
        else
          let later := readChunks file stop final result.2.1 result.2.2
          (result.1 ++ later.1, later.2)
  else finish limits final tail budget
termination_by stop - tail.offset
decreasing_by
  have kept : result.2.1.offset = tail.offset + chunk.length :=
    (completeLines_kept limits (tail.capture chunk) (budget.use chunk.length)).1
  have some_byte := List.length_pos_iff.mpr _empty
  change stop - result.2.1.offset < stop - tail.offset
  rw [kept]
  omega

/-- `TranscriptTail.read`, to the end of what it yields. -/
def read (file : Transcript) (through : Option Nat) (final : Bool) (tail : TranscriptTail) (budget : CaptureBudget) :
    Result :=
  if tail.stopped then ([], tail, budget)
  else if (tail.identity ≠ none ∧ tail.identity ≠ some file.identity) ∨ file.size < tail.offset then
    ([], { tail with stopped := true, invalidated := true },
      budget.warn "native_capture" ("transcript replaced or truncated: " ++ file.name))
  else
    let tail := { tail with identity := some file.identity }
    if through.any (file.size < ·) then
      ([], { tail with stopped := true, invalidated := true },
        budget.warn "native_capture" ("resume transcript truncated: " ++ file.name))
    else
      let stop := (through.map fun size => min size file.size).getD file.size
      let result := completeLines limits tail budget
      if result.2.1.stopped then result
      else
        let later := readChunks limits file stop final result.2.1 result.2.2
        (result.1 ++ later.1, later.2)

/-- A call of `read`. -/
structure Call where
  file : Transcript
  through : Option Nat
  final : Bool

/-- What a series of calls yields. -/
def run : List Call → TranscriptTail → CaptureBudget → Result
  | [], tail, budget => ([], tail, budget)
  | call :: rest, tail, budget =>
      let result := read limits call.file call.through call.final tail budget
      let later := run rest result.2.1 result.2.2
      (result.1 ++ later.1, later.2)

/-! ### What is delivered of a file -/

section Deliveries

variable (start : CaptureBudget)

/-- The bytes of one file that can be captured. -/
def capacity : Nat := min limits.fileBytes (limits.totalBytes - start.used)

/-- The lines that can be recorded. -/
def quota : Nat := limits.records - start.records

/-- A last line that is not complete is delivered at the end, if the whole file is captured. -/
def closing (whole : Bytes) (final : Bool) : List Bytes :=
  if final ∧ whole.length ≤ capacity limits start ∧ leftover NEWLINE limits.lineBytes false whole ≠ [] then
    [leftover NEWLINE limits.lineBytes false whole]
  else []

/-- The lines of what is captured of a file, as many as can be recorded. -/
def delivered (whole : Bytes) (final : Bool) : List Bytes :=
  (lines NEWLINE limits.lineBytes false (whole.take (capacity limits start)) ++ closing limits start whole final).take
    (quota limits start)

/-- The tail runs, and has delivered the lines of what it has consumed but for those that are pending. -/
structure Live (consumed : Bytes) (done : List Bytes) (tail : TranscriptTail) (budget : CaptureBudget) : Prop where
  running : tail.stopped = false
  offset : tail.offset = consumed.length
  captured : tail.capturedBytes = consumed.length
  used : budget.used = start.used + consumed.length
  fits : consumed.length ≤ capacity limits start
  counted : budget.records = start.records + done.length
  within : done.length ≤ quota limits start
  lines : ∀ t, lines NEWLINE limits.lineBytes false (consumed ++ t) =
    done ++ Framing.lines NEWLINE limits.lineBytes tail.droppingLine (tail.pending ++ t)
  leftover : ∀ t, leftover NEWLINE limits.lineBytes false (consumed ++ t) =
    Framing.leftover NEWLINE limits.lineBytes tail.droppingLine (tail.pending ++ t)

/-- Only a line that is not complete and may yet be delivered is pending. -/
structure Settled (tail : TranscriptTail) : Prop where
  unfinished : cut NEWLINE tail.pending = none
  dropped : tail.droppingLine = true → tail.pending = []
  short : tail.pending.length ≤ limits.lineBytes

/-- No more lines can be recorded. -/
structure Full (consumed : Bytes) (done : List Bytes) : Prop where
  size : done.length = quota limits start
  first : ∀ t, done <+: lines NEWLINE limits.lineBytes false (consumed ++ t)

end Deliveries

section Invariants

variable {limits} {start : CaptureBudget} {consumed : Bytes} {done : List Bytes} {tail : TranscriptTail}
  {budget : CaptureBudget}

theorem completeLines_live (live : Live limits start consumed done tail budget) :
    (Live limits start consumed (done ++ (completeLines limits tail budget).1) (completeLines limits tail budget).2.1
        (completeLines limits tail budget).2.2 ∧ Settled limits (completeLines limits tail budget).2.1) ∨
      ((completeLines limits tail budget).2.1.stopped = true ∧
        Full limits start consumed (done ++ (completeLines limits tail budget).1)) := by
  induction size : tail.pending.length using Nat.strong_induction_on generalizing tail budget done with
  | h n ih =>
      cases found : cut NEWLINE tail.pending with
      | none =>
          rw [completeLines_open found]
          left
          split
          · rename_i dropping
            constructor
            · simp only [List.append_nil]
              exact { live with
                lines := fun t => by
                  rw [live.lines t, lines_thrown found (.inl dropping)]
                  simp [dropping]
                leftover := fun t => by
                  rw [live.leftover t, leftover_thrown found (.inl dropping)]
                  simp [dropping] }
            · exact ⟨rfl, fun _ => rfl, by simp⟩
          split
          · rename_i long
            constructor
            · simp only [List.append_nil]
              exact { live with
                lines := fun t => by
                  rw [live.lines t, lines_thrown found (.inr long)]
                  rfl
                leftover := fun t => by
                  rw [live.leftover t, leftover_thrown found (.inr long)]
                  rfl }
            · exact ⟨rfl, fun _ => rfl, by simp⟩
          · rename_i keeps short
            simp only [List.append_nil]
            exact ⟨live, found, fun dropping => absurd dropping keeps, Nat.le_of_not_lt short⟩
      | some parts =>
          obtain ⟨line, rest⟩ := parts
          have shorter := (cut_some NEWLINE found).2.2
          have more (t : Bytes) := cut_append NEWLINE found t
          rw [completeLines_cut found]
          split
          · rename_i dropping
            have later : Live limits start consumed done { tail with pending := rest, droppingLine := false } budget :=
              { live with
                lines := fun t => by
                  rw [live.lines t, lines_cut (more t), if_pos (by simp [dropping])]
                leftover := fun t => by rw [live.leftover t, leftover_cut (more t)] }
            exact ih _ (size ▸ shorter) later rfl
          rename_i keeps
          have keeps : tail.droppingLine = false := by simpa using keeps
          split
          · rename_i long
            have later : Live limits start consumed done { tail with pending := rest, incomplete := true }
                (budget.warning "native_line_bytes_exceeded") :=
              { live with
                lines := fun t => by
                  rw [live.lines t, lines_cut (more t), if_pos (by simp [long]), keeps]
                leftover := fun t => by rw [live.leftover t, leftover_cut (more t), keeps] }
            exact ih _ (size ▸ shorter) later rfl
          rename_i short
          have next (t : Bytes) : lines NEWLINE limits.lineBytes false (consumed ++ t) =
              done ++ line :: lines NEWLINE limits.lineBytes false (rest ++ t) := by
            rw [live.lines t, lines_cut (more t), if_neg (by simpa [keeps] using short)]
          split
          · rename_i full
            right
            refine ⟨rfl, ?_, ?_⟩
            · have := live.within
              have := live.counted
              simp only [List.append_nil, quota] at *
              omega
            · intro t
              rw [next t, List.append_nil]
              exact List.prefix_append _ _
          · rename_i room
            have recorded : Live limits start consumed (done ++ [line]) { tail with pending := rest }
                { budget with records := budget.records + 1 } :=
              { live with
                counted := by
                  have := live.counted
                  simp only [List.length_append, List.length_singleton]
                  omega
                within := by
                  have := live.counted
                  simp only [List.length_append, List.length_singleton, quota] at *
                  omega
                lines := fun t => by
                  rw [next t, keeps]
                  simp
                leftover := fun t => by rw [live.leftover t, leftover_cut (more t), keeps] }
            have later := ih _ (size ▸ shorter) recorded rfl
            simpa [List.append_assoc] using later

theorem lines_settled (settled : Settled limits tail) :
    lines NEWLINE limits.lineBytes tail.droppingLine tail.pending = [] ∧
      leftover NEWLINE limits.lineBytes tail.droppingLine tail.pending = tail.pending := by
  refine ⟨lines_open settled.unfinished, ?_⟩
  rw [leftover_open settled.unfinished]
  split
  · rename_i out
    rcases Bool.or_eq_true _ _ ▸ out with dropping | long
    · exact (settled.dropped dropping).symm
    · exact absurd settled.short (by simpa using long)
  · rfl

/-- All complete lines of what has been consumed are delivered. -/
theorem Live.lines_done (live : Live limits start consumed done tail budget) (settled : Settled limits tail) :
    Framing.lines NEWLINE limits.lineBytes false consumed = done ∧
      Framing.leftover NEWLINE limits.lineBytes false consumed = tail.pending := by
  have lines := live.lines []
  have leftover := live.leftover []
  rw [List.append_nil, List.append_nil] at lines leftover
  rw [lines, leftover, (lines_settled settled).1, (lines_settled settled).2, List.append_nil]
  exact ⟨rfl, rfl⟩

theorem Full.delivered {offset : Nat} {whole : Bytes} (full : Full limits start (whole.take offset) done)
    (fits : offset ≤ capacity limits start) (final : Bool) : delivered limits start whole final = done := by
  have split : whole.take (capacity limits start) =
      whole.take offset ++ (whole.drop offset).take (capacity limits start - offset) := by
    rw [← List.take_add, Nat.add_sub_cancel' fits]
  obtain ⟨more, first⟩ := full.first ((whole.drop offset).take (capacity limits start - offset))
  unfold Transcripts.delivered
  rw [split, ← first, List.append_assoc, ← full.size, List.take_left]

/-- The budget for bytes is used up before the file is. -/
theorem Live.delivered_long {whole : Bytes} (live : Live limits start (whole.take (capacity limits start)) done tail budget)
    (settled : Settled limits tail) (long : capacity limits start < whole.length) (final : Bool) :
    delivered limits start whole final = done := by
  unfold Transcripts.delivered closing
  rw [(live.lines_done settled).1, if_neg (by omega), List.append_nil, List.take_of_length_le live.within]

theorem Live.delivered_open {whole : Bytes} (live : Live limits start whole done tail budget)
    (settled : Settled limits tail) : delivered limits start whole false = done := by
  unfold Transcripts.delivered closing
  rw [List.take_of_length_le live.fits, (live.lines_done settled).1, if_neg (by simp), List.append_nil,
    List.take_of_length_le live.within]

theorem finish_delivered {whole : Bytes} (live : Live limits start whole done tail budget)
    (settled : Settled limits tail) (final : Bool) :
    done ++ (finish limits final tail budget).1 = delivered limits start whole final := by
  cases final with
  | false =>
      rw [live.delivered_open settled]
      simp [finish]
  | true =>
      have within := live.within
      have counted := live.counted
      unfold finish Transcripts.delivered closing
      rw [List.take_of_length_le live.fits, (live.lines_done settled).1, (live.lines_done settled).2]
      by_cases empty : tail.pending = []
      · simp [empty, List.take_of_length_le within]
      · have fits := live.fits
        unfold quota at within
        by_cases full : limits.records ≤ budget.records
        · have size : done.length = quota limits start := by
            unfold quota
            omega
          simp [empty, fits, CaptureBudget.record, full, ← size]
        · have room : (done ++ [tail.pending]).length ≤ quota limits start := by
            rw [List.length_append, List.length_singleton]
            unfold quota
            omega
          simp [empty, fits, CaptureBudget.record, full, List.take_of_length_le room]

theorem Live.capture (live : Live limits start consumed done tail budget) (chunk : Bytes)
    (fits : consumed.length + chunk.length ≤ capacity limits start) :
    Live limits start (consumed ++ chunk) done (tail.capture chunk) (budget.use chunk.length) where
  running := live.running
  offset := by simp [TranscriptTail.capture, live.offset]
  captured := by simp [TranscriptTail.capture, live.captured]
  used := by simp [CaptureBudget.use, live.used, Nat.add_assoc]
  fits := by simpa using fits
  counted := live.counted
  within := live.within
  lines := fun t => by
    rw [List.append_assoc, live.lines (chunk ++ t), ← List.append_assoc]
    rfl
  leftover := fun t => by
    rw [List.append_assoc, live.leftover (chunk ++ t), ← List.append_assoc]
    rfl

theorem available_live (live : Live limits start consumed done tail budget) :
    available limits tail budget = capacity limits start - consumed.length := by
  have := live.captured
  have := live.used
  unfold available capacity
  omega

/-- The next chunk of a file whose bytes are the first of the whole. -/
theorem nextChunk_live {whole : Bytes} {file : Transcript} {stop : Nat} (first : file.bytes <+: whole)
    (long : stop ≤ file.bytes.length) (live : Live limits start (whole.take tail.offset) done tail budget)
    (more : tail.offset < stop) (room : available limits tail budget ≠ 0) :
    nextChunk limits file stop tail budget ≠ [] ∧
      tail.offset + (nextChunk limits file stop tail budget).length ≤ stop ∧
      tail.offset + (nextChunk limits file stop tail budget).length ≤ capacity limits start ∧
      whole.take tail.offset ++ nextChunk limits file stop tail budget =
        whole.take (tail.offset + (nextChunk limits file stop tail budget).length) := by
  have left := available_live live
  have length : (nextChunk limits file stop tail budget).length =
      min (min CHUNK (available limits tail budget)) (stop - tail.offset) := by
    unfold nextChunk
    rw [List.length_take, List.length_drop]
    omega
  rw [← live.offset] at left
  have positive : 0 < (nextChunk limits file stop tail budget).length := by
    rw [length, CHUNK]
    omega
  refine ⟨List.length_pos_iff.mp positive, by omega, by omega, ?_⟩
  obtain ⟨later, rfl⟩ := first
  rw [List.take_add, length]
  congr 1
  unfold nextChunk
  rw [List.drop_append_of_le_length (by omega), List.take_append_of_le_length (by rw [List.length_drop]; omega)]

/-- The loop ends where it was told to, or with all that can be delivered. -/
theorem readChunks_live {whole : Bytes} {file : Transcript} {stop : Nat} (first : file.bytes <+: whole)
    (long : stop ≤ file.bytes.length) (final : Bool)
    (live : Live limits start (whole.take tail.offset) done tail budget) (settled : Settled limits tail) :
    ((readChunks limits file stop final tail budget).2.1.stopped = true ∧ ∀ last,
        delivered limits start whole last = done ++ (readChunks limits file stop final tail budget).1) ∨
      ∃ (tail' : TranscriptTail) (budget' : CaptureBudget) (done' : List Bytes),
        tail'.offset = max tail.offset stop ∧ tail'.identity = tail.identity ∧
        Live limits start (whole.take tail'.offset) done' tail' budget' ∧ Settled limits tail' ∧
        done ++ (readChunks limits file stop final tail budget).1 = done' ++ (finish limits final tail' budget').1 ∧
        (readChunks limits file stop final tail budget).2 = (finish limits final tail' budget').2 := by
  induction size : stop - tail.offset using Nat.strong_induction_on generalizing tail budget done with
  | h n ih =>
      have fits := live.fits
      have inside : stop ≤ whole.length := Nat.le_trans long first.length_le
      by_cases more : tail.offset < stop
      · have consumed : (whole.take tail.offset).length = tail.offset := by
          rw [List.length_take]
          omega
        rw [readChunks, if_pos more]
        by_cases spent : available limits tail budget = 0
        · rw [if_pos spent]
          left
          refine ⟨rfl, fun last => ?_⟩
          have left := available_live live
          have full : tail.offset = capacity limits start := by omega
          rw [full] at live
          rw [live.delivered_long settled (by omega), List.append_nil]
        rw [if_neg spent]
        obtain ⟨some_byte, before, room, taken⟩ := nextChunk_live first long live more spent
        have captured := live.capture (nextChunk limits file stop tail budget) (by rw [consumed]; exact room)
        rw [taken] at captured
        have kept := completeLines_kept limits (tail.capture (nextChunk limits file stop tail budget))
          (budget.use (nextChunk limits file stop tail budget).length)
        have offset : (tail.capture (nextChunk limits file stop tail budget)).offset =
            tail.offset + (nextChunk limits file stop tail budget).length := rfl
        dsimp only
        rw [dif_neg some_byte]
        rcases completeLines_live captured with ⟨later, settled'⟩ | ⟨stopped, full⟩
        · rw [if_neg (by simp [later.running])]
          rw [← offset, ← kept.1] at later
          have positive := List.length_pos_iff.mpr some_byte
          rcases ih _ (by rw [kept.1, offset]; omega) later settled' rfl with
            ⟨stopped, all⟩ | ⟨tail', budget', done', reached, same, live', settled'', lines, rest⟩
          · exact .inl ⟨stopped, fun last => by rw [all last, List.append_assoc]⟩
          · refine .inr ⟨tail', budget', done', ?_, ?_, live', settled'', ?_, rest⟩
            · rw [reached, kept.1, offset]
              omega
            · rw [same, kept.2.2.1]
              rfl
            · rw [← List.append_assoc]
              exact lines
        · rw [if_pos stopped]
          exact .inl ⟨stopped, fun last => full.delivered room last⟩
      · rw [readChunks, if_neg more]
        exact .inr ⟨tail, budget, done, by omega, rfl, live, settled, rfl, rfl⟩

/-- A call on a file that has grown to the first bytes of the whole, or to all of them. -/
structure Call.Finds (call : Call) (identity : Nat × Nat) (whole : Bytes) : Prop where
  same : call.file.identity = identity
  first : call.file.bytes <+: whole
  sized : call.file.size ≤ call.file.bytes.length
  through : ∀ size ∈ call.through, size ≤ call.file.size

/-- The byte that the call reads up to. -/
def Call.stop (call : Call) : Nat := (call.through.map fun size => min size call.file.size).getD call.file.size

theorem Call.stop_le (call : Call) : call.stop ≤ call.file.size := by
  unfold Call.stop
  cases call.through with
  | none => exact Nat.le_refl _
  | some size => exact Nat.min_le_right _ _

theorem read_live {call : Call} {identity : Nat × Nat} {whole : Bytes} (finds : call.Finds identity whole)
    (known : tail.identity = none ∨ tail.identity = some identity) (grown : tail.offset ≤ call.file.size)
    (live : Live limits start (whole.take tail.offset) done tail budget) (settled : Settled limits tail) :
    let result := read limits call.file call.through call.final tail budget
    (result.2.1.stopped = true ∧ ∀ last, delivered limits start whole last = done ++ result.1) ∨
      ∃ (tail' : TranscriptTail) (budget' : CaptureBudget) (done' : List Bytes),
        tail'.offset = max tail.offset call.stop ∧ tail'.identity = some identity ∧
        Live limits start (whole.take tail'.offset) done' tail' budget' ∧ Settled limits tail' ∧
        done ++ result.1 = done' ++ (finish limits call.final tail' budget').1 ∧
        result.2 = (finish limits call.final tail' budget').2 := by
  have same : ¬ ((tail.identity ≠ none ∧ tail.identity ≠ some call.file.identity) ∨ call.file.size < tail.offset) := by
    rw [finds.same]
    rintro (other | shrunk)
    · rcases known with none | some
      · exact other.1 none
      · exact other.2 some
    · omega
  have inside : ¬ call.through.any (call.file.size < ·) = true := by
    rw [Option.any_eq_true]
    rintro ⟨size, given, beyond⟩
    exact absurd (finds.through size given) (by simpa using beyond)
  have named : Live limits start (whole.take tail.offset) done { tail with identity := some call.file.identity } budget :=
    { live with }
  have opened : Settled limits { tail with identity := some call.file.identity } := { settled with }
  have kept := completeLines_kept limits { tail with identity := some call.file.identity } budget
  dsimp only
  rw [read, if_neg (by simp [live.running]), if_neg same]
  dsimp only
  rw [if_neg inside]
  rcases completeLines_live named with ⟨later, settled'⟩ | ⟨stopped, full⟩
  · rw [if_neg (by simp [later.running])]
    have offset : (completeLines limits { tail with identity := some call.file.identity } budget).2.1.offset =
        tail.offset := kept.1
    have entered : Live limits start
        (whole.take (completeLines limits { tail with identity := some call.file.identity } budget).2.1.offset)
        (done ++ (completeLines limits { tail with identity := some call.file.identity } budget).1)
        (completeLines limits { tail with identity := some call.file.identity } budget).2.1
        (completeLines limits { tail with identity := some call.file.identity } budget).2.2 := by
      rw [offset]
      exact later
    have reaches : call.stop ≤ call.file.bytes.length := Nat.le_trans call.stop_le finds.sized
    rcases readChunks_live finds.first reaches call.final entered settled' with
      ⟨stopped, all⟩ | ⟨tail', budget', done', reached, same, live', settled'', lines, rest⟩
    · exact .inl ⟨stopped, fun last => by rw [all last, List.append_assoc]; rfl⟩
    · refine .inr ⟨tail', budget', done', ?_, ?_, live', settled'', ?_, rest⟩
      · rw [reached, offset]
      · rw [same, kept.2.2.1, finds.same]
      · rw [← List.append_assoc]
        exact lines
  · rw [if_pos stopped]
    have fits := live.fits
    have length := live.offset
    exact .inl ⟨stopped, fun last => full.delivered (by omega) last⟩

theorem run_stopped (calls : List Call) (stopped : tail.stopped = true) : (run limits calls tail budget).1 = [] := by
  induction calls with
  | nil => rfl
  | cons call rest ih =>
      have skipped : read limits call.file call.through call.final tail budget = ([], tail, budget) := by
        rw [read, if_pos stopped]
      simp only [run, skipped, List.nil_append]
      exact ih

/-- The calls before the last one. -/
structure Growth (calls : List Call) (last : Call) (identity : Nat × Nat) (whole : Bytes) : Prop where
  finds : ∀ call ∈ calls, call.Finds identity whole ∧ call.final = false
  sizes : (calls.map (·.file.size)).Pairwise (· ≤ ·)
  complete : last.file.identity = identity ∧ last.file.bytes = whole ∧ last.file.size = whole.length ∧
    last.through = none

theorem Call.Finds.size_le {call : Call} {identity : Nat × Nat} {whole : Bytes} (finds : call.Finds identity whole) :
    call.file.size ≤ whole.length := Nat.le_trans finds.sized finds.first.length_le

theorem last_live {last : Call} {identity : Nat × Nat} {whole : Bytes} (same : last.file.identity = identity)
    (bytes : last.file.bytes = whole) (size : last.file.size = whole.length) (through : last.through = none)
    (known : tail.identity = none ∨ tail.identity = some identity) (grown : tail.offset ≤ whole.length)
    (live : Live limits start (whole.take tail.offset) done tail budget) (settled : Settled limits tail) :
    done ++ (read limits last.file last.through last.final tail budget).1 = delivered limits start whole last.final := by
  have finds : last.Finds identity whole :=
    ⟨same, bytes ▸ List.prefix_refl _, by rw [size, bytes], by simp [through]⟩
  rcases read_live finds known (by omega) live settled with
    ⟨-, all⟩ | ⟨tail', budget', done', reached, -, live', settled', lines, -⟩
  · exact (all last.final).symm
  · have stop : last.stop = whole.length := by simp [Call.stop, through, size]
    rw [reached, stop, Nat.max_eq_right grown, List.take_length] at live'
    exact lines.trans (finish_delivered live' settled' last.final)

/-- A series of calls delivers what one call at its end would. -/
theorem run_live {calls : List Call} {last : Call} {identity : Nat × Nat} {whole : Bytes}
    (growth : Growth calls last identity whole) (known : tail.identity = none ∨ tail.identity = some identity)
    (grown : tail.offset ≤ whole.length ∧ ∀ call ∈ calls, tail.offset ≤ call.file.size)
    (live : Live limits start (whole.take tail.offset) done tail budget) (settled : Settled limits tail) :
    done ++ (run limits (calls ++ [last]) tail budget).1 = delivered limits start whole last.final := by
  obtain ⟨same, bytes, size, through⟩ := growth.complete
  induction calls generalizing tail budget done with
  | nil =>
      simp only [List.nil_append, run, List.append_nil]
      exact last_live same bytes size through known grown.1 live settled
  | cons call rest ih =>
      obtain ⟨finds, open_⟩ := growth.finds call List.mem_cons_self
      have sizes := growth.sizes
      rw [List.map_cons, List.pairwise_cons] at sizes
      have growth' : Growth rest last identity whole :=
        ⟨fun other member => growth.finds other (List.mem_cons_of_mem _ member), sizes.2, growth.complete⟩
      simp only [List.cons_append, run]
      rcases read_live finds known (grown.2 call List.mem_cons_self) live settled with
        ⟨stopped, all⟩ | ⟨tail', budget', done', reached, known', live', settled', lines, rest'⟩
      · rw [run_stopped _ stopped, List.append_nil]
        exact (all last.final).symm
      · rw [open_] at lines rest'
        simp only [finish, Bool.false_and, Bool.false_eq_true, if_false, List.append_nil] at lines rest'
        rw [← List.append_assoc, open_, lines, rest']
        have stop := call.stop_le
        have here := grown.2 call List.mem_cons_self
        dsimp only
        refine ih growth' (.inr known') ⟨?_, fun other member => ?_⟩ live' settled'
        · have := finds.size_le
          omega
        · have later := sizes.1 other.file.size (List.mem_map_of_mem member)
          omega

variable (limits start) in
theorem live_new (whole : Bytes) : Live limits start (whole.take TranscriptTail.new.offset) [] TranscriptTail.new start where
  running := rfl
  offset := by simp [TranscriptTail.new]
  captured := by simp [TranscriptTail.new]
  used := by simp [TranscriptTail.new]
  fits := by simp [TranscriptTail.new]
  counted := rfl
  within := Nat.zero_le _
  lines := fun _ => rfl
  leftover := fun _ => rfl

variable (limits) in
theorem settled_new : Settled limits TranscriptTail.new := ⟨rfl, by simp [TranscriptTail.new], Nat.zero_le _⟩

end Invariants

/-- However a file grows and whenever it is read: the calls deliver together what one call on the final
file delivers. That is every line up to the limit, each once and in order, as far as the budgets go. -/
theorem tailing_is_chunk_invariant (start : CaptureBudget) (calls : List Call) (last : Call) (identity : Nat × Nat)
    (whole : Bytes) (growth : Growth calls last identity whole) :
    (run limits (calls ++ [last]) .new start).1 = (read limits last.file none last.final .new start).1 ∧
      (read limits last.file none last.final .new start).1 =
        (((allLines NEWLINE (whole.take (capacity limits start))).filter (·.length ≤ limits.lineBytes)) ++
          closing limits start whole last.final).take (quota limits start) ∧
      (read limits last.file none last.final .new start).1.flatten.Sublist whole := by
  obtain ⟨same, bytes, size, through⟩ := growth.complete
  have all := run_live growth (.inl rfl) ⟨Nat.zero_le _, fun _ _ => Nat.zero_le _⟩
    (live_new limits start whole) (settled_new limits)
  have once := last_live same bytes size through (.inl rfl) (Nat.zero_le _) (live_new limits start whole)
    (settled_new limits)
  rw [through, List.nil_append] at once
  rw [List.nil_append] at all
  refine ⟨all.trans once.symm, ?_, ?_⟩
  · rw [once, delivered, lines_eq_filter]
  · rw [once]
    have first (n : Nat) (parts : List Bytes) : (parts.take n).flatten.Sublist parts.flatten := by
      conv_rhs => rw [← List.take_append_drop n parts, List.flatten_append]
      exact List.sublist_append_left _ _
    refine (first (quota limits start) _).trans ?_
    rw [List.flatten_append, closing]
    have captured := @lines_sublist _ _ NEWLINE limits.lineBytes (whole.take (capacity limits start)) false
    split
    · rename_i ends
      rw [List.take_of_length_le ends.2.1] at captured ⊢
      simpa using captured
    · rw [List.flatten_nil, List.append_nil]
      exact ((List.sublist_append_left _ _).trans captured).trans (List.take_sublist _ _)

/-- A file of one line that is read in the middle of it and at its end. -/
def grownFile (size : Nat) : Transcript := ⟨"session.jsonl", (1, 2), size, [97, 98, 10].take size⟩

def oneByte : CaptureLimits := ⟨1, 8, 8, 1, 8, by decide⟩

def eightBytes : CaptureLimits := ⟨8, 8, 8, 1, 8, by decide⟩

def unused : CaptureBudget := ⟨0, 0, []⟩

theorem growth_grownFile : Growth [⟨grownFile 1, none, false⟩] ⟨grownFile 3, none, true⟩ (1, 2) [97, 98, 10] where
  finds := by
    intro call member
    rw [List.mem_singleton] at member
    subst member
    exact ⟨⟨rfl, ⟨[98, 10], rfl⟩, by decide, by simp⟩, rfl⟩
  sizes := by simp
  complete := ⟨rfl, rfl, rfl, rfl⟩

theorem tailing_in_two_calls :
    (run eightBytes ([⟨grownFile 1, none, false⟩] ++ [⟨grownFile 3, none, true⟩]) .new unused).1 =
      (read eightBytes (grownFile 3) none true .new unused).1 ∧
    (read eightBytes (grownFile 3) none true .new unused).1 =
      (((allLines NEWLINE (([97, 98, 10] : Bytes).take (capacity eightBytes unused))).filter
        (·.length ≤ eightBytes.lineBytes)) ++ closing eightBytes unused [97, 98, 10] true).take
          (quota eightBytes unused) ∧
    (read eightBytes (grownFile 3) none true .new unused).1.flatten.Sublist [97, 98, 10] :=
  tailing_is_chunk_invariant eightBytes unused [⟨grownFile 1, none, false⟩] ⟨grownFile 3, none, true⟩ (1, 2)
    [97, 98, 10] growth_grownFile

/-- A line within the limit for lines is dropped where the budget for bytes ends before it. -/
theorem budget_drops_a_line : (read oneByte (grownFile 3) none true .new unused).1 = [] ∧
    (allLines NEWLINE (grownFile 3).bytes).filter (·.length ≤ oneByte.lineBytes) = [[97, 98, 10]] := by
  constructor
  · have same : (⟨grownFile 3, none, true⟩ : Call).file.identity = (1, 2) := rfl
    have whole : (grownFile 3).bytes = [97, 98, 10] := rfl
    have once := last_live same whole rfl rfl (.inl rfl) (Nat.zero_le _)
      (live_new oneByte unused [97, 98, 10]) (settled_new oneByte)
    rw [List.nil_append] at once
    rw [once, delivered, closing]
    simp [capacity, oneByte, unused, lines_open (rfl : cut NEWLINE [97] = none)]
  · have found : cut NEWLINE ([97, 98, 10] : Bytes) = some ([97, 98, 10], []) := rfl
    rw [show (grownFile 3).bytes = [97, 98, 10] from rfl, allLines_cut found, allLines_open rfl]
    rfl

end AtrexAgent.Transcripts
