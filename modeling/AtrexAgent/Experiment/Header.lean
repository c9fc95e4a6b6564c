import AtrexAgent.Core.Equality
import AtrexAgent.Library.JsonPrefix
import AtrexAgent.Workspace.Snapshot

/-! `read_record_header`: what a listing reads of a record, from a bounded part of its file. -/

namespace AtrexAgent.Records

open AtrexAgent.Json
open AtrexAgent.Sources (Bytes Error encode decode encode_cons decode_encode encode_decode
  take_narrow length_narrow)

variable {F : Type} [FloatText F]

def MAX_RECORD_HEADER_BYTES : Nat := 16 * 1024

def RECORD_HEADER_FIELDS : List String := ["gateway_record_id", "operation", "created_at", "kernels"]

/-- `decoder.raw_decode(text, index)`, of the text from the index. -/
def rawDecode (text : Text) : Option (Json F × Text) := scanValue (text.length + 1) text

/-- `if key in RECORD_HEADER_FIELDS: header[key] = value` -/
def keepField (header : Dict F) (key : String) (value : Json F) : Dict F :=
  if RECORD_HEADER_FIELDS.contains key then set header key value else header

/-- `RECORD_HEADER_FIELDS <= header.keys()` -/
def isComplete (header : Dict F) : Bool := RECORD_HEADER_FIELDS.all fun field => (find? header field).isSome

/-- The loop of `read_record_header`, over the text from its index. Each turn reads a key at least. -/
def headerItems : Nat → Text → List String → Dict F → Except Error (Dict F)
  | 0, _, _, _ => .error .json
  | fuel + 1, text, seen, header =>
      match (rawDecode text : Option (Json F × Text)) with
      | some (.str key, rest) =>
          if seen.contains key then .error (.value "Gateway record header has an invalid or duplicate key")
          else match rest.dropWhile isSpace with
          | ':' :: rest =>
              if !RECORD_HEADER_FIELDS.contains key && key ≠ "cacheable" then
                .error (.value "Gateway record listing header is incomplete")
              else match rawDecode (rest.dropWhile isSpace) with
              | some (value, rest) =>
                  let header := keepField header key value
                  match rest.dropWhile isSpace with
                  | separator :: rest =>
                      if separator ≠ ',' ∧ separator ≠ '}' then
                        .error (.value "Gateway record header is malformed or exceeds its size limit")
                      else if isComplete header then .ok header
                      else if separator ≠ ',' then
                        .error (.value "Gateway record listing header is incomplete")
                      else headerItems fuel (rest.dropWhile isSpace) (key :: seen) header
                  | [] => .error (.value "Gateway record header is malformed or exceeds its size limit")
              | none => .error .json
          | _ => .error (.value "Gateway record header is malformed")
      | some _ => .error (.value "Gateway record header has an invalid or duplicate key")
      | none => .error .json

def readRecordHeader (data : Bytes) : Except Error (Dict F) :=
  match decode (data.take MAX_RECORD_HEADER_BYTES) with
  | none => .error .unicode
  | some text =>
      match text.toList.dropWhile isSpace with
      | '{' :: rest => headerItems (text.toList.length + 1) (rest.dropWhile isSpace) [] []
      | _ => .error (.value "Gateway record header must be an object")

/-! ### The whole document -/

/-- A turn of the loop that goes on or is the last. -/
theorem headerItems_ok {fuel : Nat} {text : Text} {seen : List String} {header result : Dict F}
    (read : headerItems fuel text seen header = .ok result) : ∃ fuel' key after colon value later separator rest,
      fuel = fuel' + 1 ∧ (rawDecode text : Option (Json F × Text)) = some (.str key, after) ∧ key ∉ seen ∧
      after.dropWhile isSpace = ':' :: colon ∧ rawDecode (colon.dropWhile isSpace) = some (value, later) ∧
      later.dropWhile isSpace = separator :: rest ∧ (separator = ',' ∨ separator = '}') ∧
      (isComplete (keepField header key value) = true ∧ result = keepField header key value ∨
        separator = ',' ∧
          headerItems fuel' (rest.dropWhile isSpace) (key :: seen) (keepField header key value) = .ok result) := by
  cases fuel with
  | zero => cases read
  | succ fuel =>
      unfold headerItems at read
      split at read
      · rename_i key after decoded
        split at read
        · cases read
        · rename_i fresh
          split at read
          · rename_i colon found
            split at read
            · cases read
            · split at read
              · rename_i value later decoded'
                dsimp only at read
                split at read
                · rename_i separator rest found'
                  refine ⟨fuel, key, after, colon, value, later, separator, rest, rfl, decoded, by simpa using fresh, found,
                    decoded', found', ?_⟩
                  split at read
                  · cases read
                  · rename_i separates
                    rw [← not_or, not_not] at separates
                    refine ⟨separates, ?_⟩
                    split at read
                    · rename_i complete
                      cases read
                      exact .inl ⟨complete, rfl⟩
                    · split at read
                      · cases read
                      · rename_i comma
                        exact .inr ⟨not_not.mp comma, read⟩
                · cases read
              · cases read
          · cases read
      · cases read
      · cases read

omit [FloatText F] in
theorem find?_keepField {field : String} (listed : field ∈ RECORD_HEADER_FIELDS) (header : Dict F) (key : String)
    (value : Json F) : find? (keepField header key value) field =
      if field = key then some value else find? header field := by
  unfold keepField
  split
  · exact find?_set header key field value
  · rename_i other
    rw [if_neg]
    rintro rfl
    exact other (List.contains_iff_mem.mpr listed)

/-- The fields that a header has: none twice, and all among those seen. -/
structure Gathered (seen : List String) (header : Dict F) : Prop where
  nodup : (header.map Prod.fst).Nodup
  listed : ∀ key ∈ header.map Prod.fst, key ∈ RECORD_HEADER_FIELDS
  seen : ∀ key ∈ header.map Prod.fst, key ∈ seen

omit [FloatText F] in
theorem Gathered.keep {seen : List String} {header : Dict F} (gathered : Gathered seen header) {key : String} (fresh : key ∉ seen)
    (value : Json F) : Gathered (key :: seen) (keepField header key value) := by
  unfold keepField
  split
  · rename_i field
    have new : key ∉ header.map Prod.fst := fun member => fresh (gathered.seen key member)
    have keys : (set header key value).map Prod.fst = header.map Prod.fst ++ [key] := by
      rw [set_new header key value new, List.map_append]
      rfl
    refine ⟨?_, ?_, ?_⟩
    · rw [keys]
      exact List.Nodup.append gathered.nodup (List.nodup_singleton key) (by simpa using fresh ∘ gathered.seen key)
    · intro name member
      rw [keys, List.mem_append, List.mem_singleton] at member
      rcases member with old | rfl
      · exact gathered.listed name old
      · exact List.contains_iff_mem.mp field
    · intro name member
      rw [keys, List.mem_append, List.mem_singleton] at member
      rcases member with old | rfl
      · exact List.mem_cons_of_mem _ (gathered.seen name old)
      · exact List.mem_cons_self
  · exact ⟨gathered.nodup, gathered.listed, fun name member => List.mem_cons_of_mem _ (gathered.seen name member)⟩

theorem scanString_of_value {fuel : Nat} {text rest : Text} {key : String}
    (read : scanValue fuel ('"' :: text) = some ((.str key : Json F), rest)) :
    ∃ key', scanString text = some (key', rest) ∧ String.ofList key' = key := by
  cases fuel with
  | zero =>
      rw [scanValue] at read
      cases read
  | succ fuel =>
      rw [scanValue] at read
      obtain ⟨⟨key', rest'⟩, string, same⟩ := Option.map_eq_some_iff.mp read
      cases same
      exact ⟨key', string, rfl⟩

/-- What the loop keeps is the first value of each field in the items of the document. -/
theorem headerItems_first (more : Text) {fuel : Nat} {text : Text} {seen : List String} {header result : Dict F}
    (read : headerItems fuel text seen header = .ok result) (gathered : Gathered seen header) {fuel' : Nat} {items : Dict F}
    {rest : Text} (scanned : scanMembers fuel' (text ++ more) = some (items, rest)) :
    isComplete result = true ∧ (∃ seen', Gathered seen' result) ∧
      ∀ field ∈ RECORD_HEADER_FIELDS, find? result field = (find? header field).or (find? items field) := by
  induction fuel generalizing text seen header fuel' items with
  | zero => cases read
  | succ fuel ih =>
      obtain ⟨_, key, after, colon, value, later, separator, next, same, decoded, fresh, found, decoded', found',
        separates, last⟩ := headerItems_ok read
      cases same
      obtain ⟨fuel'', text', key', after', colon', value', later', opened, string, foundColon, first, items'⟩ :=
        scanMembers_cases scanned
      have respelling := respelling_more more
      -- the key, the colon and the value are those that the whole document has there
      obtain ⟨text, rfl⟩ := head_respelled respelling (scanValue_ne decoded) (by decide) (by decide) opened
      obtain ⟨key'', string', rfl⟩ := scanString_of_value decoded
      have whole := scanString_respelled respelling string'
      obtain rfl : text' = text ++ more := (List.cons.inj opened).2.symm
      rw [whole] at string
      cases string
      rw [dropSpace_respelled respelling found (by decide)] at foundColon
      cases foundColon
      have separator_ends : inNumber separator = false := by
        rcases separates with rfl | rfl <;> decide
      have ended := ended_of_dropWhile found' separator_ends
      have gap := space_respelled respelling (scanValue_ne decoded')
      have ended' : Ended later' := by
        rcases items' with ⟨closed, -⟩ | ⟨_, _, comma, -⟩
        · exact ended_of_dropWhile closed (by decide)
        · exact ended_of_dropWhile comma (by decide)
      have value_more := scanValue_more (Nat.le_refl _) decoded' ended more
      have ended_more : Ended (later ++ more) := by
        obtain ⟨c, rest, rfl, stop⟩ := ended
        exact ⟨c, rest ++ more, rfl, stop⟩
      rw [gap] at first
      obtain ⟨rfl, rfl⟩ := scanValue_agree value_more ended_more first ended'
      have narrow : separator.toNat < 127 := by
        rcases separates with rfl | rfl <;> decide
      have separated := dropSpace_respelled respelling found' narrow
      have gathered' := gathered.keep fresh value
      have here (field : String) (listed : field ∈ RECORD_HEADER_FIELDS) (items' : Dict F) :
          (find? (keepField header (String.ofList key') value) field).or (find? items' field) =
            (find? header field).or (find? ((String.ofList key', value) :: items') field) := by
        rw [find?_keepField listed, find?_cons]
        by_cases same : field = String.ofList key'
        · subst same
          have absent : find? header (String.ofList key') = none := by
            rw [find?_eq_none]
            intro item member same
            exact fresh (gathered.seen _ (same ▸ List.mem_map_of_mem member))
          rw [if_pos rfl, if_pos rfl, absent]
          rfl
        · rw [if_neg same, if_neg (Ne.symm same)]
      rcases last with ⟨complete, rfl⟩ | ⟨rfl, read⟩
      · refine ⟨complete, ⟨_, gathered'⟩, fun field listed => ?_⟩
        obtain ⟨held, found⟩ := Option.isSome_iff_exists.mp (List.all_eq_true.mp complete field listed)
        rcases items' with ⟨-, rfl⟩ | ⟨_, items', -, -, rfl⟩
        · rw [← here field listed, found]
          rfl
        · rw [← here field listed, found]
          rfl
      · rcases items' with ⟨closed, -⟩ | ⟨next', items', comma, scanned', rfl⟩
        · rw [separated] at closed
          cases closed
        · rw [separated] at comma
          cases comma
          rw [space_respelled respelling ?_] at scanned'
          · obtain ⟨complete, gathered'', values⟩ := ih read gathered' scanned'
            exact ⟨complete, gathered'', fun field listed => by rw [values field listed, here field listed]⟩
          · obtain ⟨_, _, _, _, _, _, _, _, _, decoded, _⟩ := headerItems_ok read
            exact scanValue_ne decoded

/-- A text whose first bytes are a text begins with that text. -/
theorem decode_take {data : Bytes} {n : Nat} {text start : String} (whole : decode data = some text)
    (part : decode (data.take n) = some start) : ∃ more, text.toList = start.toList ++ more := by
  have bytes (text : String) : text.toByteArray = text.toList.utf8Encode := by
    rw [← String.toByteArray_ofList, String.ofList_toList]
  have same : encode start ++ data.drop n = encode text := by
    rw [encode_decode part, encode_decode whole, List.take_append_drop]
  have joined : start.toList.utf8Encode ++ ⟨(data.drop n).toArray⟩ = text.toList.utf8Encode := by
    rw [← bytes, ← bytes]
    apply ByteArray.ext
    apply Array.ext'
    rw [ByteArray.data_append, Array.toList_append]
    exact same
  obtain ⟨more, here⟩ := List.isPrefix_of_utf8Encode_append_eq_utf8Encode _ joined
  exact ⟨more, here.symm⟩

omit [FloatText F] in
theorem Gathered.perm {seen : List String} {header : Dict F} (gathered : Gathered seen header)
    (complete : isComplete header = true) : (header.map Prod.fst).Perm RECORD_HEADER_FIELDS := by
  refine (List.perm_ext_iff_of_nodup gathered.nodup (by decide)).mpr fun field => ⟨gathered.listed field, ?_⟩
  intro listed
  exact (Schema.find?_isSome_iff header field).mp (List.all_eq_true.mp complete field listed)

omit [FloatText F] in
theorem gathered_nil : Gathered [] ([] : Dict F) :=
  ⟨List.nodup_nil, fun _ member => absurd member List.not_mem_nil, fun _ member => absurd member List.not_mem_nil⟩

/-- A header has the first value of each of its fields in the document. -/
theorem header_of_document {data : Bytes} {text : String} {header : Dict F} {value : Json F}
    (read : readRecordHeader data = .ok header) (whole : decode data = some text)
    (loaded : loads text.toList = some value) : ∃ items, document text.toList = some items ∧
      value = .obj (ofPairs items) ∧ (header.map Prod.fst).Perm RECORD_HEADER_FIELDS ∧
      ∀ field ∈ RECORD_HEADER_FIELDS, find? header field = find? items field := by
  unfold readRecordHeader at read
  split at read
  · cases read
  rename_i start part
  split at read
  swap
  · cases read
  rename_i rest opened
  obtain ⟨more, longer⟩ := decode_take whole part
  have respelling := respelling_more more
  have opened' : text.toList.dropWhile isSpace = '{' :: (rest ++ more) := by
    rw [longer]
    exact dropSpace_respelled respelling opened (by decide)
  obtain ⟨items, found, same⟩ := loads_document loaded opened'
  refine ⟨items, found, same, ?_⟩
  obtain ⟨_, key, after, _, _, _, _, _, _, decoded, _⟩ := headerItems_ok read
  have gap := space_respelled respelling (scanValue_ne decoded)
  unfold document at found
  simp only [opened', gap] at found
  split at found
  · rename_i closed
    obtain ⟨rest', here⟩ := head_respelled respelling (scanValue_ne decoded) (by decide) (by decide) closed
    rw [here] at decoded
    cases decoded
  · obtain ⟨⟨items', rest'⟩, members, found⟩ := Option.bind_eq_some_iff.mp found
    split at found
    · cases found
      obtain ⟨complete, ⟨_, gathered⟩, values⟩ := headerItems_first more read gathered_nil members
      exact ⟨gathered.perm complete, values⟩
    · cases found

/-! ### Records as they are written -/

/-- `durable_write_json(path, value)` -/
def durableJson (value : Json F) : Text := asciiText (dumpsWith [] (sortKeys value)) ++ ['\n']

theorem durableJson_narrow (value : Json F) : ∀ c ∈ durableJson value, c.toNat < 127 := by
  intro c member
  rcases List.mem_append.mp member with inside | newline
  · exact asciiText_small _ c inside
  · rw [List.mem_singleton] at newline
    subst newline
    decide

/-- A record as `finish` makes it: of its values only the dict of the kernels is in the header. -/
structure Record (F : Type) where
  gatewayRecordId : String
  taskDigest : String
  request : Json F
  kernels : Dict F
  operation : String
  response : Json F
  resultDigest : String
  cacheable : Bool
  createdAt : String
  distinct : Distinct (.obj kernels)

namespace Record

variable (record : Record F)

def items : Dict F :=
  [("schema_version", .int 1), ("gateway_record_id", .str record.gatewayRecordId),
    ("task_digest", .str record.taskDigest), ("request", record.request), ("kernels", .obj record.kernels),
    ("operation", .str record.operation), ("response", record.response),
    ("result_digest", .str record.resultDigest), ("cacheable", .bool record.cacheable),
    ("created_at", .str record.createdAt)]

/-- The bytes of `record.json`. -/
def bytes : Bytes := encode (String.ofList (durableJson (.obj record.items)))

def header : Dict F :=
  [("created_at", .str record.createdAt), ("gateway_record_id", .str record.gatewayRecordId),
    ("kernels", sortKeys (.obj record.kernels)), ("operation", .str record.operation)]

/-- The items that are written after the header. -/
def payload : Dict F :=
  [("request", sortKeys record.request), ("response", sortKeys record.response),
    ("result_digest", .str record.resultDigest), ("schema_version", .int 1),
    ("task_digest", .str record.taskDigest)]

end Record

/-- An item as it is written, with its comma. -/
def memberText (key : String) (value : Json F) : Text := quoted key.toList ++ ':' :: (dumpsWith [] value ++ [','])

/-- What is written before the request. -/
def Record.headerText (record : Record F) : Text :=
  asciiText ('{' :: memberText "cacheable" (.bool record.cacheable : Json F) ++
    record.header.flatMap fun item => memberText item.1 item.2)

omit [FloatText F] in
theorem sortKeys_items (record : Record F) : sortKeys (.obj record.items) =
    .obj (("cacheable", .bool record.cacheable) :: record.header ++ record.payload) := by
  unfold Record.items Record.header Record.payload
  simp [sortKeys, sortMembers, List.insertionSort_cons, List.orderedInsert]

theorem rawDecode_written (value : Json F) (distinct : Distinct value) {c : Char} (stop : inNumber c = false)
    (narrow : c.toNat < 127) (rest more : Text) : rawDecode (asciiText (dumpsWith [] value ++ c :: rest) ++ more) =
      some (value, c :: (asciiText rest ++ more)) := by
  have written := @scanValue_dumpsWith F _ [] (fun _ member => absurd member List.not_mem_nil) value distinct _
    (Nat.lt_succ_self _) (c :: rest) (stops_of inNumber c rest stop)
  have spelled := (scan_respelled respelling_ascii _).1 _ _ _ _ (Nat.le_refl _) written ⟨c, rest, rfl, stop⟩
  rw [respelling_ascii.narrow c rest narrow] at spelled
  refine scanValue_more ?_ spelled ⟨c, _, rfl, stop⟩ more
  have longer := length_asciiText (dumpsWith [] value ++ c :: rest)
  rw [List.length_append] at longer ⊢
  omega

/-- A value is read back from the file that it is written to, with its keys in order. -/
theorem loads_durableJson (value : Json F) (distinct : Distinct value) :
    loads (durableJson value) = some (sortKeys value) :=
  loads_asciiLine (fun _ member => absurd member List.not_mem_nil) _ (distinct_sortKeys value distinct)

theorem memberText_gap (key : String) (value : Json F) (more : Text) :
    (asciiText (memberText key value) ++ more).dropWhile isSpace = asciiText (memberText key value) ++ more := by
  unfold memberText quoted
  rw [List.cons_append, respelling_ascii.narrow _ _ (by decide)]
  rfl

/-- The turn of the loop over an item as it is written. -/
theorem headerItems_written (fuel : Nat) (key : String) (value : Json F) (distinct : Distinct value)
    {seen : List String} (fresh : key ∉ seen) (known : key ∈ RECORD_HEADER_FIELDS ∨ key = "cacheable")
    (header : Dict F) (more : Text) :
    headerItems (fuel + 1) (asciiText (memberText key value) ++ more) seen header =
      if isComplete (keepField header key value) then .ok (keepField header key value)
      else headerItems fuel (more.dropWhile isSpace) (key :: seen) (keepField header key value) := by
  have named := rawDecode_written (.str key : Json F) trivial (c := ':') (by decide) (by decide)
    (dumpsWith [] value ++ [',']) more
  have valued := rawDecode_written value distinct (c := ',') (by decide) (by decide) [] more
  have gap : (asciiText (dumpsWith [] value ++ [',']) ++ more).dropWhile isSpace =
      asciiText (dumpsWith [] value ++ [',']) ++ more := by
    obtain ⟨c, rest, text, begins⟩ := dumpsWith_begins [] value
    have plain : (dumpsWith [] value ++ [',']).dropWhile isSpace = dumpsWith [] value ++ [','] := by
      rw [text]
      exact dropWhile_begins c _ begins
    have ascii := space_respelled respelling_ascii (s := dumpsWith [] value ++ [',']) (by rw [plain]; simp)
    rw [plain] at ascii
    have some_char : asciiText (dumpsWith [] value ++ [',']) ≠ [] := by
      rw [asciiText_append]
      exact List.append_ne_nil_of_right_ne_nil _ (List.cons_ne_nil _ _)
    have longer := space_respelled (respelling_more more) (s := asciiText (dumpsWith [] value ++ [',']))
      (by rw [ascii]; exact some_char)
    rw [longer, ascii]
  have listed : (!RECORD_HEADER_FIELDS.contains key && decide (key ≠ "cacheable")) = false := by
    rcases known with field | rfl
    · rw [List.contains_iff_mem.mpr field]
      rfl
    · rfl
  have unseen : seen.contains key = false := by simpa using fresh
  rw [dumpsWith] at named
  unfold memberText
  rw [headerItems, named]
  dsimp only
  rw [unseen]
  simp only [Bool.false_eq_true, if_false]
  rw [List.dropWhile_cons, if_neg (by decide)]
  simp only [listed, Bool.false_eq_true, if_false, gap, valued]
  rw [List.dropWhile_cons, if_neg (by decide)]
  simp [asciiText]

theorem headerItems_next (fuel : Nat) (key : String) (value : Json F) (distinct : Distinct value) {seen : List String}
    (fresh : key ∉ seen) (known : key ∈ RECORD_HEADER_FIELDS ∨ key = "cacheable") {header header' : Dict F}
    (kept : keepField header key value = header') (missing : isComplete header' = false) (next : String)
    (other : Json F) (more : Text) :
    headerItems (fuel + 1) (asciiText (memberText key value) ++ (asciiText (memberText next other) ++ more)) seen header =
      headerItems fuel (asciiText (memberText next other) ++ more) (key :: seen) header' := by
  rw [headerItems_written fuel key value distinct fresh known, kept, missing, memberText_gap]
  exact if_neg Bool.false_ne_true

theorem headerText_first (record : Record F) : record.headerText = '{' ::
    (asciiText (memberText "cacheable" (.bool record.cacheable : Json F)) ++
      (asciiText (memberText "created_at" (.str record.createdAt : Json F)) ++
        (asciiText (memberText "gateway_record_id" (.str record.gatewayRecordId : Json F)) ++
          (asciiText (memberText "kernels" (sortKeys (.obj record.kernels))) ++
            asciiText (memberText "operation" (.str record.operation : Json F)))))) := by
  unfold Record.headerText Record.header
  rw [List.cons_append, respelling_ascii.narrow _ _ (by decide)]
  simp [asciiText_append]

theorem dumpsMembers_flatMap (first : Dict F) {rest : Dict F} (more : rest ≠ []) :
    dumpsMembersWith [] (first ++ rest) =
      (first.flatMap fun item => memberText item.1 item.2) ++ dumpsMembersWith [] rest := by
  induction first with
  | nil => rfl
  | cons item first ih =>
      have comma : (first ++ rest).isEmpty = false := by
        rw [List.isEmpty_eq_false_iff]
        exact List.append_ne_nil_of_right_ne_nil _ more
      rw [List.cons_append, dumpsMembersWith, ih, comma, List.flatMap_cons, memberText]
      simp

/-- The file of a record begins with its header. -/
theorem durableJson_header (record : Record F) :
    ∃ tail, durableJson (.obj record.items) = record.headerText ++ tail := by
  unfold durableJson
  have more : record.payload ≠ [] := List.cons_ne_nil _ _
  rw [sortKeys_items, dumpsWith, dumpsMembers_flatMap _ more, List.flatMap_cons]
  refine ⟨asciiText (dumpsMembersWith [] record.payload ++ ['}']) ++ ['\n'], ?_⟩
  unfold Record.headerText
  simp only [← List.append_assoc, ← asciiText_append, List.cons_append]

/-- A header that fits is read, whatever comes after it. -/
theorem readRecordHeader_written (record : Record F) (fits : record.headerText.length ≤ MAX_RECORD_HEADER_BYTES) :
    readRecordHeader record.bytes = .ok record.header := by
  obtain ⟨tail, text⟩ := durableJson_header record
  have ascii := durableJson_narrow (.obj record.items)
  rw [text] at ascii
  have part : (record.headerText ++ tail).take MAX_RECORD_HEADER_BYTES =
      record.headerText ++ tail.take (MAX_RECORD_HEADER_BYTES - record.headerText.length) := by
    rw [List.take_append, List.take_of_length_le fits]
  unfold readRecordHeader Record.bytes
  rw [text, take_narrow ascii, part, decode_encode]
  generalize tail.take _ = more
  rw [headerText_first]
  simp only [String.toList_ofList, List.cons_append]
  rw [List.dropWhile_cons, if_neg (by decide)]
  simp only [List.append_assoc]
  rw [memberText_gap]
  have some_char (key : String) (value : Json F) : 1 ≤ (asciiText (memberText key value)).length :=
    Nat.le_trans (by simp [memberText, quoted]) (length_asciiText _)
  obtain ⟨n, fuel⟩ : ∃ n, List.length ('{' ::
      (asciiText (memberText "cacheable" (.bool record.cacheable : Json F)) ++
        (asciiText (memberText "created_at" (.str record.createdAt : Json F)) ++
          (asciiText (memberText "gateway_record_id" (.str record.gatewayRecordId : Json F)) ++
            (asciiText (memberText "kernels" (sortKeys (.obj record.kernels))) ++
              (asciiText (memberText "operation" (.str record.operation : Json F)) ++ more)))))) + 1 = n + 5 := by
    refine ⟨_ - 5, (Nat.sub_add_cancel ?_).symm⟩
    simp only [List.length_cons, List.length_append]
    have := some_char "cacheable" (.bool record.cacheable)
    have := some_char "created_at" (.str record.createdAt)
    have := some_char "gateway_record_id" (.str record.gatewayRecordId)
    omega
  have kernels := distinct_sortKeys _ record.distinct
  rw [fuel,
    headerItems_next (n + 4) "cacheable" (.bool record.cacheable) trivial (by decide) (by decide)
      (show keepField [] _ (.bool record.cacheable) = [] from rfl) rfl,
    headerItems_next (n + 3) "created_at" (.str record.createdAt) trivial (by decide) (by decide)
      (show keepField [] _ (.str record.createdAt) = record.header.take 1 from rfl) rfl,
    headerItems_next (n + 2) "gateway_record_id" (.str record.gatewayRecordId) trivial (by decide) (by decide)
      (show keepField _ _ (.str record.gatewayRecordId) = record.header.take 2 from rfl) rfl,
    headerItems_next (n + 1) "kernels" _ kernels (by decide) (by decide)
      (show keepField _ _ (sortKeys (.obj record.kernels)) = record.header.take 3 from rfl) rfl,
    headerItems_written n "operation" (.str record.operation) trivial (by decide) (by decide)]
  exact if_pos rfl

/-- A header is what the whole document says, where that is JSON and repeats none of the fields; and
the header of a record that is written is read if it fits. -/
theorem header_reads_agree :
    (∀ (data : Bytes) (text : String) (header : Dict F) (value : Json F), readRecordHeader data = .ok header →
      decode data = some text → loads text.toList = some value → ∃ items,
        document text.toList = some items ∧ value = .obj (ofPairs items) ∧
        (header.map Prod.fst).Perm RECORD_HEADER_FIELDS ∧
        (∀ field ∈ RECORD_HEADER_FIELDS, find? header field = find? items field) ∧
        ∀ field ∈ RECORD_HEADER_FIELDS, (items.map Prod.fst).count field ≤ 1 →
          find? header field = find? (ofPairs items) field) ∧
    ∀ record : Record F, record.headerText.length ≤ MAX_RECORD_HEADER_BYTES →
      readRecordHeader record.bytes = .ok record.header := by
  refine ⟨fun data text header value read whole loaded => ?_, readRecordHeader_written⟩
  obtain ⟨items, found, same, fields, first⟩ := header_of_document read whole loaded
  refine ⟨items, found, same, fields, first, fun field listed once => ?_⟩
  rw [first field listed, find?_ofPairs, find?_reverse items once]

/-- A record that names its operation twice. -/
def repeated : String :=
  "\x7b\"created_at\":0,\"gateway_record_id\":0,\"kernels\":0,\"operation\":1,\"operation\":2\x7d"

def operationNumber (items : Dict OnlyNan) : Option Int :=
  match find? items "operation" with
  | some (.int n) => some n
  | _ => none

/-- A header has the first of two operations, and the whole document the last. -/
theorem repeated_operation_is_read : decode (encode repeated) = some repeated ∧
    (readRecordHeader (encode repeated)).toOption.bind operationNumber = some 1 ∧
      (loads repeated.toList).bind (fun value => operationNumber (Schema.membersOf value)) = some 2 := by
  have short : (encode repeated).length ≤ MAX_RECORD_HEADER_BYTES := by decide +kernel
  refine ⟨decode_encode repeated, ?_, by decide +kernel⟩
  unfold readRecordHeader
  rw [List.take_of_length_le short, decode_encode]
  decide +kernel

end AtrexAgent.Records
