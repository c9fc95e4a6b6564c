import AtrexAgent.Evaluation.PublicResult
import AtrexAgent.Library.Items
import AtrexAgent.Library.JsonSize
import AtrexAgent.Library.Traversal
import AtrexAgent.Wiki.Query

/-! The answer of a query as a JSON document, and the budget that its weakest records are dropped for. -/

namespace AtrexAgent.WikiQuery

open AtrexAgent.Binary64 AtrexAgent.Json AtrexAgent.Evaluation

variable {F : Type} [FloatText F]

/-! ### Serving a record -/

def CODE_KEYS : List String := ["snippet", "dispatch_snippet"]

def BRIEF_KEYS : List String :=
  ["goal", "problem", "what", "when", "verdict", "lesson", "attempted", "change", "mechanism", "cost", "established_fact"]

omit [FloatText F] in
/-- `len(value)` -/
def len? : Json F → Option Nat
  | .str s => some s.length
  | .arr items => some items.length
  | .obj items => some items.length
  | _ => none

/-- The size of a code text is noted where it is left out. -/
def omitCode (members omitted : Dict F) (key : String) : Option (Dict F) :=
  if isTruthy ((Items.get? members key).getD .null) then
    (len? ((Items.get? members key).getD .null)).map fun n => Items.set omitted ("implementation." ++ key) (.int n)
  else some omitted

/-- What is kept of a payload and what is omitted, after one more of its members. -/
def briefMember (parts : Dict F × Dict F) (item : String × Json F) : Option (Dict F × Dict F) :=
  if item.1 ∈ BRIEF_KEYS then some (Items.set parts.1 item.1 item.2, parts.2)
  else match item.1, item.2 with
    | "implementation", .obj members => do
        let omitted ← CODE_KEYS.foldlM (omitCode members) parts.2
        let trimmed := members.filter fun member => member.1 ∉ CODE_KEYS
        return (if trimmed.isEmpty then parts.1 else Items.set parts.1 "implementation" (.obj trimmed), omitted)
    | key, value => some (parts.1, Items.set parts.2 key (.int (dumps value).length))

def briefPayload (payload : Json F) : Option (Json F) := do
  let .obj members := payload | none
  let (out, omitted) ← members.foldlM briefMember ([], [])
  return .obj (if omitted.isEmpty then out else Items.set out "omitted_by_brief"
    (.obj [("fields", .obj omitted), ("how_to_get_them", .str "re-query this id without --brief")]))

def Reach.label : Reach → String
  | .exact => "exact"
  | .neutral => "architecture-neutral"
  | .other => "other-architecture"

/-- The index of a store and its record files. -/
structure Store (F : Type) where
  entries : List Entry
  read : String → Option (Json F)

/-- A record as it is served; without its file or one of its fields there is none. -/
def serveRecord (store : Store F) (brief : Bool) (entry : Entry) (reach : Reach) : Option (Json F) := do
  let .obj record ← store.read entry.path | none
  let .obj retrieval ← Items.get? record "retrieval" | none
  let payload ← Items.get? record "payload"
  let type ← Items.get? record "type"
  let payload ← if brief then briefPayload payload else some payload
  return .obj [("source", .str "kernel_wiki"), ("type", type), ("applies_to", (Items.get? retrieval "scope").getD (.obj [])),
    ("match", .obj [("arch", .str reach.label)]), ("payload", payload)]

/-! ### Choosing the records -/

/-- A query with what only its answer depends on. The sampler is `random.Random(seed).sample`. -/
structure Query extends Args where
  terms : List String
  limit : Int
  brief : Bool
  fallback : Bool
  fallbackRatio : ℚ
  sample : List (Entry × Reach) → Nat → List (Entry × Reach)
  symptomNote : Option String
  symptomAlternatives : List String

/-- `items[:limit]` -/
def sliceTo {α : Type} (items : List α) (limit : Int) : List α :=
  items.take (if limit < 0 then items.length + limit else limit).toNat

/-- `fallback(pool, ratio, limit, seed)` -/
def fallbackSample (query : Query) (pool : List (Entry × Reach)) : List (Entry × Reach) :=
  if pool.isEmpty then []
  else
    let share := nearest (pool.length * query.fallbackRatio)
    let whole := share.num.tdiv share.den
    query.sample pool (max 1 (min (min (pool.length : Int) (if whole = 0 then 1 else whole)) query.limit)).toNat

def rankedHits (entries : List Entry) (query : Query) : List (Entry × Reach) :=
  sliceTo ((ranked (scopedPool entries query.toArgs) query.terms query.toArgs).map fun hit => (hit.entry, hit.reach)) query.limit

inductive Kind where
  | matched | fallback | empty

def Kind.label : Kind → String
  | .matched => "matches"
  | .fallback => "fallback"
  | .empty => "empty"

/-- The ranked hits, or where there are none the sample in their place. -/
def chosenHits (entries : List Entry) (query : Query) : Kind × List (Entry × Reach) :=
  match rankedHits entries query with
  | [] =>
      let sample := if query.fallback then fallbackSample query (scopedPool entries query.toArgs) else []
      (if sample.isEmpty then .empty else .fallback, sample)
  | hits => (.matched, hits)

/-! ### Why there are none -/

def matchCount (entries : List Entry) (terms : List String) (args : Args) : Nat :=
  (ranked (scopedPool entries args) terms args).length

/-- The filters of a scope with how one of them is dropped. -/
def SCOPE_FILTERS : List (String × (Args → Option String) × (Args → Args)) :=
  [("--arch", Args.arch, fun args => { args with arch := none }),
    ("--dsl", Args.dsl, fun args => { args with dsl := none }),
    ("--family", Args.family, fun args => { args with family := none }),
    ("--operator", Args.operator, fun args => { args with operator := none }),
    ("--type", Args.type, fun args => { args with type := none }),
    ("--level", Args.level, fun args => { args with level := none }),
    ("--status", Args.status, fun args => { args with status := none }),
    ("--tier", Args.tier, fun args => { args with tier := none }),
    ("--symptom", Args.symptom, fun args => { args with symptom := none })]

def emptyBecause (entries : List Entry) (query : Query) : List (String × Nat) :=
  let probes := (SCOPE_FILTERS.filter fun probe => (probe.2.1 query.toArgs).isSome).map fun probe =>
    (probe.1, matchCount entries query.terms (probe.2.2 query.toArgs))
  let freed := if query.terms.isEmpty then [] else [("the free-text terms", matchCount entries [] query.toArgs)]
  ((probes ++ freed).filter fun removal => removal.2 ≠ 0).mergeSort fun a b => b.2 ≤ a.2

/-- How many records match under the vendor's other architectures. -/
def matchesElsewhere (entries : List Entry) (query : Query) : Nat :=
  if (given query.arch).isSome ∧ ¬ query.crossArch ∧ ¬ query.strictArch then
    matchCount entries query.terms { query.toArgs with crossArch := true }
  else 0

/-! ### The document -/

def optional (value : Option String) : Json F := value.elim .null .str

def resolvedScope (entries : List Entry) (query : Query) : Json F :=
  let asked := (given query.arch).isSome
  let symptomMode := (given query.symptom).map fun symptom =>
    if (scopedPool entries query.toArgs).any fun hit => symptomMatch hit.1 symptom = some .signal then "signal" else "text"
  .obj [("terms", .arr (query.terms.map .str)), ("arch", optional query.arch), ("vendor", optional query.vendor),
    ("dsl", optional query.dsl), ("family", optional query.family), ("operator", optional query.operator),
    ("type", optional query.type), ("tier", optional query.tier), ("symptom", optional query.symptom),
    ("architecture_neutral_included", .bool (asked && !query.strictArch)),
    ("other_architectures_included", .bool (asked && query.crossArch)),
    ("vendor_gate", optional (if (given query.vendor).isNone then (given query.arch).bind fun arch => ARCH_VENDOR.lookup arch else none)),
    ("symptom_note", optional query.symptomNote), ("symptom_alternatives", .arr (query.symptomAlternatives.map .str)),
    ("symptom_match_mode", optional symptomMode)]

def FALLBACK_NOTE : String :=
  "NOT query matches: nothing in scope matched, so this is a random sample of the scoped pool, offered only to show what " ++
    "kind of knowledge exists here. Do not treat it as advice about the queried problem."

structure Answer (F : Type) where
  query : Json F
  result : Dict F
  records : Dict F

def Answer.json (answer : Answer F) : Json F :=
  .obj [("query", answer.query), ("result", .obj answer.result), ("records", .obj answer.records)]

/-- `json.dumps(out, ensure_ascii=False)` -/
def Answer.text (answer : Answer F) : Text := dumps answer.json

/-- How many records stay when the last one is dropped while there are others and the budget is exceeded. -/
def keptRecords (exceeds : Nat → Bool) : Nat → Nat
  | 0 => 0
  | 1 => 1
  | n + 2 => if exceeds (n + 2) then keptRecords exceeds (n + 1) else n + 2

/-- The answer with its first records only, as it is measured while records are dropped. -/
def Answer.leading (answer : Answer F) (n : Nat) : Answer F := { answer with records := answer.records.take n }

/-- The answer with its first records, and how many others are dropped. -/
def Answer.noted (answer : Answer F) (n : Nat) : Answer F :=
  if answer.records.length - n = 0 then answer.leading n
  else { answer.leading n with
    result := Items.set (Items.set answer.result "dropped_for_budget" (.int (answer.records.length - n : Nat))) "served" (.int n) }

def Answer.exceeds (budget : Int) (answer : Answer F) : Bool := budget < answer.text.length

def Answer.fit (budget : Int) (answer : Answer F) : Answer F :=
  let fitted := answer.noted (keptRecords (fun n => (answer.leading n).exceeds budget) answer.records.length)
  if fitted.exceeds budget then { fitted with result := Items.set fitted.result "over_budget" (.bool true) } else fitted

def envelope (query : Json F) (records : Dict F) (kind : Kind) (poolSize total : Nat) (maxBytes : Option Int) : Answer F :=
  let result : Dict F := [("kind", .str kind.label), ("served", .int records.length), ("scoped_pool", .int poolSize),
    ("store_total", .int total), ("note", match kind with | .fallback => .str FALLBACK_NOTE | _ => .null)]
  let out : Answer F := ⟨query, result, records⟩
  match maxBytes with
  | none => out
  | some budget => if budget = 0 then out else out.fit budget

def availableElsewhere (n : Nat) : Json F :=
  .obj [("matches_on_other_architectures_of_this_vendor", .int n),
    ("how_to_reach_them", .str "re-run with --cross-arch; those hits are labelled match.arch=other-architecture")]

def diagnosis (removals : List (String × Nat)) : Json F :=
  .obj [("diagnosis", .str "over-constrained scope, not an empty store"),
    ("single_filter_removals_that_would_match",
      .arr (removals.map fun removal => .obj [("drop", .str removal.1), ("would_match", .int removal.2)]))]

/-- What is added to a result without a ranked hit once its size has been measured. -/
def emptyNotes (entries : List Entry) (query : Query) : Dict F :=
  if rankedHits entries query ≠ [] then []
  else
    (if matchesElsewhere entries query = 0 then [] else [("available_elsewhere", availableElsewhere (matchesElsewhere entries query))]) ++
      (if (emptyBecause entries query).isEmpty then [] else [("empty_because", diagnosis (emptyBecause entries query))])

/-- The records of the hits by their ids. -/
def servedRecords (store : Store F) (query : Query) : Option (Dict F) :=
  ((chosenHits store.entries query).2.mapM fun hit => (serveRecord store query.brief hit.1 hit.2).map fun record => (hit.1.id, record)).map
    (Items.update [])

/-- What is printed with `--emit-json`. -/
def emitJson (store : Store F) (query : Query) (maxBytes : Option Int) : Option (Answer F) :=
  (servedRecords store query).map fun records =>
    let doc := envelope (resolvedScope store.entries query) records (chosenHits store.entries query).1
      (scopedPool store.entries query.toArgs).length store.entries.length maxBytes
    { doc with result := Items.update doc.result (emptyNotes store.entries query) }

/-! ### What is kept -/

/-- The most records that are within the budget, or one record where none is. -/
def Kept (exceeds : Nat → Bool) (total n : Nat) : Prop :=
  n ≤ total ∧ (n ≤ 1 ∨ exceeds n = false) ∧ ∀ i, n < i → i ≤ total → 1 < i ∧ exceeds i = true

theorem kept_keptRecords (exceeds : Nat → Bool) (total : Nat) : Kept exceeds total (keptRecords exceeds total) := by
  fun_induction keptRecords exceeds total with
  | case1 => exact ⟨Nat.le_refl 0, .inl (Nat.zero_le 1), fun i more less => by omega⟩
  | case2 => exact ⟨Nat.le_refl 1, .inl (Nat.le_refl 1), fun i more less => by omega⟩
  | case3 n beyond ih =>
      refine ⟨Nat.le_succ_of_le ih.1, ih.2.1, fun i more less => ?_⟩
      by_cases last : i = n + 2
      · rw [last]
        exact ⟨by omega, beyond⟩
      · exact ih.2.2 i more (by omega)
  | case4 n within => exact ⟨Nat.le_refl _, .inr (Bool.eq_false_of_not_eq_true within), fun i more less => by omega⟩

theorem kept_unique {exceeds : Nat → Bool} {total n m : Nat} (first : Kept exceeds total n) (second : Kept exceeds total m) : n = m := by
  have less {n m : Nat} (first : Kept exceeds total n) (second : Kept exceeds total m) : ¬ n < m := by
    intro less
    obtain ⟨large, beyond⟩ := first.2.2 m less second.1
    rcases second.2.1 with small | within
    · omega
    · rw [within] at beyond
      cases beyond
  exact Nat.le_antisymm (Nat.not_lt.mp (less second first)) (Nat.not_lt.mp (less first second))

theorem kept_pos {exceeds : Nat → Bool} {total n : Nat} (kept : Kept exceeds total n) (some_record : 0 < total) : 0 < n := by
  by_contra none_kept
  have := kept.2.2 1 (by omega) (by omega)
  omega

/-! ### The size of an answer -/

theorem utf8Length_append (a b : Text) : utf8Length (a ++ b) = utf8Length a + utf8Length b := by
  rw [utf8Length, List.map_append, List.sum_append]
  rfl

/-- Fields of the result that are added later stand in one place of the text. -/
theorem text_more (answer : Answer F) (some_field : answer.result ≠ []) (more : Dict F) : ∃ before after : Text,
    answer.text = before ++ after ∧
      ({ answer with result := answer.result ++ more } : Answer F).text = before ++ more.flatMap furtherMember ++ after := by
  refine ⟨'{' :: (memberText ("query", answer.query) ++
      (',' :: ' ' :: (quoted "result".toList ++ (':' :: ' ' :: '{' :: dumpsMembers answer.result)))),
    '}' :: (furtherMember ("records", .obj answer.records) ++ ['}']), ?_, ?_⟩
  · simp [Answer.text, Answer.json, dumps, dumpsMembers_cons, furtherMember, memberText]
  · simp [Answer.text, Answer.json, dumps, dumpsMembers_cons, furtherMember, memberText, dumpsMembers_append some_field]

/-- The bytes that a text has more than characters. -/
def surplus (text : Text) : Nat := utf8Length text - text.length

theorem utf8Length_more (answer : Answer F) (some_field : answer.result ≠ []) (more : Dict F) :
    utf8Length ({ answer with result := answer.result ++ more } : Answer F).text =
      answer.text.length + surplus answer.text + utf8Length (more.flatMap furtherMember) := by
  obtain ⟨before, after, plain, extended⟩ := text_more answer some_field more
  have wide := length_le_utf8Length answer.text
  have sum : utf8Length answer.text = utf8Length before + utf8Length after := by rw [plain, utf8Length_append]
  rw [extended, utf8Length_append, utf8Length_append, surplus]
  omega

/-! ### What is meant -/

/-- The ids of the hits, each once. -/
def distinctIds (hits : List (Entry × Reach)) : List String := (hits.map fun hit => hit.1.id).eraseDups

/-- An answer within its budget or declared to exceed it, with the first ones of the hits. -/
structure Declared (store : Store F) (query : Query) (budget : Int) (answer : Answer F) : Prop where
  bounded : utf8Length answer.text ≤ budget ∨
    (Items.get? answer.result "over_budget" = some (.bool true) ∧ answer.records.length = 1)
  leading : answer.records.map Prod.fst <+: distinctIds (chosenHits store.entries query).2
  contents : ∀ record ∈ answer.records, ∃ hit ∈ (chosenHits store.entries query).2,
    hit.1.id = record.1 ∧ serveRecord store query.brief hit.1 hit.2 = some record.2
  someone : (chosenHits store.entries query).2 ≠ [] → answer.records ≠ []
  counted : ∃ served dropped : Nat, served + dropped = (distinctIds (chosenHits store.entries query).2).length ∧
    served = answer.records.length ∧ Items.get? answer.result "served" = some (.int served) ∧
    Items.get? answer.result "dropped_for_budget" = if dropped = 0 then none else some (.int dropped)

/-- The answer with all records, before anything is measured. -/
def wholeAnswer (store : Store F) (query : Query) (records : Dict F) : Answer F :=
  envelope (resolvedScope store.entries query) records (chosenHits store.entries query).1
    (scopedPool store.entries query.toArgs).length store.entries.length none

/-- What a measure in characters does not see of an answer: the further bytes of its characters, and later fields. -/
def unseen (answer : Answer F) (notes : Dict F) : Nat := surplus answer.text + utf8Length (notes.flatMap furtherMember)

/-- The records that are kept leave room for what is not seen, or the only one of them is seen to exceed the budget. -/
def Roomy (budget : Int) (whole : Answer F) (notes : Dict F) : Prop :=
  budget ≠ 0 ∧ ∀ n, Kept (fun i => (whole.leading i).exceeds budget) whole.records.length n →
    (n = 1 ∧ budget < (whole.noted n).text.length) ∨ (whole.noted n).text.length + unseen (whole.noted n) notes ≤ budget

/-! ### The fields of the result -/

def FIELDS : List String := ["kind", "served", "scoped_pool", "store_total", "note"]

section

variable {whole : Answer F} {n : Nat}

omit [FloatText F] in
theorem noted_records (whole : Answer F) (n : Nat) : (whole.noted n).records = whole.records.take n := by
  unfold Answer.noted
  split <;> rfl

omit [FloatText F] in
theorem noted_keys (fields : whole.result.map Prod.fst = FIELDS) :
    (whole.noted n).result.map Prod.fst = FIELDS ++ if whole.records.length - n = 0 then [] else ["dropped_for_budget"] := by
  unfold Answer.noted
  split
  · rw [List.append_nil]
    exact fields
  · rw [Items.keys_set, Items.keys_set, fields]
    rfl

omit [FloatText F] in
theorem noted_served (counted : Items.get? whole.result "served" = some (.int whole.records.length)) (within : n ≤ whole.records.length) :
    Items.get? (whole.noted n).result "served" = some (.int n) := by
  unfold Answer.noted
  split
  · rename_i all
    have same : n = whole.records.length := by omega
    rw [same]
    exact counted
  · rw [Items.get?_set, if_pos rfl]

omit [FloatText F] in
theorem noted_dropped (fields : whole.result.map Prod.fst = FIELDS) : Items.get? (whole.noted n).result "dropped_for_budget" =
    if whole.records.length - n = 0 then none else some (.int (whole.records.length - n : Nat)) := by
  have absent : Items.get? whole.result "dropped_for_budget" = none := by
    rw [Items.get?_eq_none]
    intro item member same
    have inside := List.mem_map_of_mem (f := Prod.fst) member
    rw [fields, same] at inside
    exact absurd inside (by decide)
  unfold Answer.noted
  split
  · exact absent
  · rw [Items.get?_set, if_neg (by decide), Items.get?_set, if_pos rfl]

omit [FloatText F] in
/-- A field that is looked for in vain is in none of the keys. -/
theorem get?_absent {items : Dict F} {keys : List String} (same : items.map Prod.fst = keys) {key : String} (absent : key ∉ keys) :
    Items.get? items key = none := by
  rw [Items.get?_eq_none]
  intro item member here
  apply absent
  rw [← same, ← here]
  exact List.mem_map_of_mem member

/-- The field that tells that the budget is exceeded. -/
def flag (exceeded : Bool) : Dict F := if exceeded then [("over_budget", .bool true)] else []

theorem fit_eq (fields : whole.result.map Prod.fst = FIELDS) (budget : Int) :
    whole.fit budget = { whole.noted (keptRecords (fun i => (whole.leading i).exceeds budget) whole.records.length) with
      result := (whole.noted (keptRecords (fun i => (whole.leading i).exceeds budget) whole.records.length)).result ++
        flag ((whole.noted (keptRecords (fun i => (whole.leading i).exceeds budget) whole.records.length)).exceeds budget) } := by
  unfold Answer.fit
  generalize keptRecords (fun i => (whole.leading i).exceeds budget) whole.records.length = n
  by_cases exceeded : (whole.noted n).exceeds budget = true
  · have absent : Items.get? (whole.noted n).result "over_budget" = none := by
      refine get?_absent (noted_keys fields) fun inside => ?_
      split at inside <;> revert inside <;> decide
    simp only [exceeded, if_true, flag, Items.keys_set_absent absent]
  · simp [exceeded, flag]

end

omit [FloatText F] in
theorem emptyNotes_keys (entries : List Entry) (query : Query) :
    ((emptyNotes (F := F) entries query).map Prod.fst).Sublist ["available_elsewhere", "empty_because"] := by
  unfold emptyNotes
  repeat' split
  all_goals simp

theorem whole_fields (store : Store F) (query : Query) (records : Dict F) :
    (wholeAnswer store query records).result.map Prod.fst = FIELDS := rfl

/-- What is printed within a budget: the whole answer without what is dropped, and with what is added. -/
theorem emitJson_spec {store : Store F} {query : Query} {budget : Int} {answer : Answer F} (asked : budget ≠ 0)
    (printed : emitJson store query (some budget) = some answer) : ∃ records n, servedRecords store query = some records ∧
      Kept (fun i => ((wholeAnswer store query records).leading i).exceeds budget) records.length n ∧
      answer = { (wholeAnswer store query records).noted n with
        result := ((wholeAnswer store query records).noted n).result ++
          (flag (((wholeAnswer store query records).noted n).exceeds budget) ++ emptyNotes store.entries query) } := by
  obtain ⟨records, served, rfl⟩ := Option.map_eq_some_iff.mp printed
  refine ⟨records, _, served, kept_keptRecords _ _, ?_⟩
  have fitted := fit_eq (whole_fields store query records) budget
  have same : envelope (resolvedScope store.entries query) records (chosenHits store.entries query).1
      (scopedPool store.entries query.toArgs).length store.entries.length (some budget) =
        (wholeAnswer store query records).fit budget := if_neg asked
  have fresh (n : Nat) (exceeded : Bool) : Items.update (((wholeAnswer store query records).noted n).result ++ flag exceeded)
      (emptyNotes store.entries query) =
        ((wholeAnswer store query records).noted n).result ++ flag exceeded ++ emptyNotes store.entries query := by
    have keys := emptyNotes_keys (F := F) store.entries query
    refine Items.update_fresh (keys.nodup (by decide)) fun key inside before => ?_
    rw [List.map_append, noted_keys (whole_fields store query records)] at before
    have known := keys.subset inside
    simp only [List.mem_cons, List.not_mem_nil, or_false] at known
    rcases known with rfl | rfl <;> cases exceeded <;> split at before <;> revert before <;> simp [FIELDS, flag]
  simp only [same, fitted, fresh, List.append_assoc]
  rfl

/-- The records are served under the ids of the hits. -/
theorem servedRecords_spec {store : Store F} {query : Query} {records : Dict F} (served : servedRecords store query = some records) :
    records.map Prod.fst = distinctIds (chosenHits store.entries query).2 ∧
      ∀ record ∈ records, ∃ hit ∈ (chosenHits store.entries query).2,
        hit.1.id = record.1 ∧ serveRecord store query.brief hit.1 hit.2 = some record.2 := by
  obtain ⟨items, read, rfl⟩ := Option.map_eq_some_iff.mp served
  have each := (mapM_some_iff _ _ _).mp read
  have ids : List.Forall₂ (· = ·) (items.map Prod.fst) ((chosenHits store.entries query).2.map fun hit => hit.1.id) := by
    rw [List.forall₂_map_left_iff, List.forall₂_map_right_iff]
    refine each.flip.imp fun item hit here => ?_
    obtain ⟨record, _, rfl⟩ := Option.map_eq_some_iff.mp here
    rfl
  rw [List.forall₂_eq_eq_eq] at ids
  refine ⟨by rw [Items.keys_update, ids, distinctIds], fun record member => ?_⟩
  obtain ⟨hit, inside, here⟩ := forall₂_mem_right each record (Items.mem_update member)
  obtain ⟨value, made, rfl⟩ := Option.map_eq_some_iff.mp here
  exact ⟨hit, inside, rfl, made⟩

theorem declared_of_bounded {store : Store F} {query : Query} {budget : Int} {records : Dict F} {n : Nat} {exceeded : Bool}
    (served : servedRecords store query = some records)
    (kept : Kept (fun i => ((wholeAnswer store query records).leading i).exceeds budget) records.length n)
    {answer : Answer F} (same : answer = { (wholeAnswer store query records).noted n with
      result := ((wholeAnswer store query records).noted n).result ++ (flag exceeded ++ emptyNotes store.entries query) })
    (bounded : utf8Length answer.text ≤ budget ∨
      (Items.get? answer.result "over_budget" = some (.bool true) ∧ answer.records.length = 1)) :
    Declared store query budget answer := by
  obtain ⟨ids, contents⟩ := servedRecords_spec served
  have first : answer.records = records.take n := by
    rw [same]
    exact noted_records (wholeAnswer store query records) n
  have long : answer.records.length = n := by
    rw [first, List.length_take]
    exact Nat.min_eq_left kept.1
  have total : (distinctIds (chosenHits store.entries query).2).length = records.length := by rw [← ids, List.length_map]
  refine ⟨bounded, ?_, ?_, ?_, n, records.length - n, ?_, long.symm, ?_, ?_⟩
  · rw [← ids, first, List.map_take]
    exact List.take_prefix n _
  · intro record member
    rw [first] at member
    exact contents record (List.mem_of_mem_take member)
  · intro some_hit none_served
    have positive : 0 < records.length := by
      rw [← total, List.length_pos_iff, distinctIds]
      intro none_id
      cases hits : (chosenHits store.entries query).2 with
      | nil => exact some_hit hits
      | cons hit hits' =>
          rw [hits, List.map_cons, List.eraseDups_cons] at none_id
          cases none_id
    have := kept_pos kept positive
    rw [none_served, List.length_nil] at long
    omega
  · rw [total]
    exact Nat.add_sub_cancel' kept.1
  · rw [same, Items.get?_append, noted_served rfl kept.1]
    rfl
  · have keys := emptyNotes_keys (F := F) store.entries query
    have later : Items.get? (flag exceeded ++ emptyNotes store.entries query : Dict F) "dropped_for_budget" = none := by
      have absent : Items.get? (emptyNotes store.entries query : Dict F) "dropped_for_budget" = none :=
        get?_absent rfl fun inside => absurd (keys.subset inside) (by decide)
      rw [Items.get?_append, absent]
      cases exceeded <;> rfl
    rw [same, Items.get?_append, noted_dropped (whole_fields store query records), later, Option.or_none]
    rfl

theorem over_budget_eq (store : Store F) (query : Query) (records : Dict F) (n : Nat) (exceeded : Bool) :
    Items.get? (((wholeAnswer store query records).noted n).result ++ (flag exceeded ++ emptyNotes store.entries query)) "over_budget" =
      if exceeded then some (.bool true) else none := by
  have before : Items.get? ((wholeAnswer store query records).noted n).result "over_budget" = none := by
    refine get?_absent (noted_keys (whole_fields store query records)) fun inside => ?_
    split at inside <;> revert inside <;> decide
  have keys := emptyNotes_keys (F := F) store.entries query
  have after : Items.get? (emptyNotes store.entries query : Dict F) "over_budget" = none :=
    get?_absent rfl fun inside => absurd (keys.subset inside) (by decide)
  rw [Items.get?_append, before, Option.none_or, Items.get?_append, after, Option.or_none]
  cases exceeded <;> rfl

theorem noted_some_field (store : Store F) (query : Query) (records : Dict F) (n : Nat) :
    ((wholeAnswer store query records).noted n).result ≠ [] := by
  intro none_field
  have keys := noted_keys (n := n) (whole_fields store query records)
  rw [none_field] at keys
  cases keys

/-- An answer is within its budget, or declared, where what is not measured fits into what the measured text leaves. -/
theorem bounded_iff (store : Store F) (query : Query) (records : Dict F) (budget : Int) {n : Nat} (within : n ≤ records.length) {answer : Answer F}
    (same : answer = { (wholeAnswer store query records).noted n with
      result := ((wholeAnswer store query records).noted n).result ++
        (flag (((wholeAnswer store query records).noted n).exceeds budget) ++ emptyNotes store.entries query) }) :
    (utf8Length answer.text ≤ budget ∨ (Items.get? answer.result "over_budget" = some (.bool true) ∧ answer.records.length = 1)) ↔
      (n = 1 ∧ budget < ((wholeAnswer store query records).noted n).text.length) ∨
        ((wholeAnswer store query records).noted n).text.length +
          unseen ((wholeAnswer store query records).noted n) (emptyNotes store.entries query) ≤ budget := by
  have long : answer.records.length = n := by
    rw [same, noted_records, List.length_take]
    exact Nat.min_eq_left within
  have told := over_budget_eq store query records n (((wholeAnswer store query records).noted n).exceeds budget)
  have size := utf8Length_more ((wholeAnswer store query records).noted n) (noted_some_field store query records n)
    (flag (((wholeAnswer store query records).noted n).exceeds budget) ++ emptyNotes store.entries query)
  rw [← same] at size
  have result : answer.result = ((wholeAnswer store query records).noted n).result ++
      (flag (((wholeAnswer store query records).noted n).exceeds budget) ++ emptyNotes store.entries query) := by rw [same]
  rw [← result] at told
  rw [told, size, long, unseen]
  by_cases exceeded : ((wholeAnswer store query records).noted n).exceeds budget = true
  · have beyond : budget < ((wholeAnswer store query records).noted n).text.length := of_decide_eq_true exceeded
    rw [if_pos exceeded]
    constructor
    · intro bounded
      rcases bounded with small | ⟨_, single⟩
      · omega
      · exact .inl ⟨single, beyond⟩
    · intro room
      rcases room with ⟨single, _⟩ | small
      · exact .inr ⟨rfl, single⟩
      · omega
  · have inside : ¬ budget < ((wholeAnswer store query records).noted n).text.length := fun beyond => exceeded (decide_eq_true beyond)
    rw [if_neg exceeded, Bool.eq_false_of_not_eq_true exceeded]
    have none_told : ¬ ((none : Option (Json F)) = some (.bool true)) := fun told => nomatch told
    simp only [none_told, inside, false_and, and_false, or_false, false_or, flag, Bool.false_eq_true, if_false, List.nil_append]
    omega

/-- A budget of no bytes is none: nothing is dropped, and nothing is declared. -/
theorem unbounded_answer {store : Store F} {query : Query} {answer : Answer F} (printed : emitJson store query (some 0) = some answer) :
    ¬ (utf8Length answer.text ≤ (0 : Int) ∨ (Items.get? answer.result "over_budget" = some (.bool true) ∧ answer.records.length = 1)) := by
  obtain ⟨records, served, rfl⟩ := Option.map_eq_some_iff.mp printed
  intro bounded
  rcases bounded with small | ⟨told, _⟩
  · have wide := length_le_utf8Length
      ({ wholeAnswer store query records with
        result := Items.update (wholeAnswer store query records).result (emptyNotes store.entries query) } : Answer F).text
    have some_text : 0 < ({ wholeAnswer store query records with
        result := Items.update (wholeAnswer store query records).result (emptyNotes store.entries query) } : Answer F).text.length := by
      rw [Answer.text, Answer.json, dumps]
      exact Nat.zero_lt_succ _
    have none_left := Int.le_of_ofNat_le_ofNat small
    exact absurd (Nat.lt_of_lt_of_le some_text wide) (Nat.not_lt.mpr none_left)
  · have keys := emptyNotes_keys (F := F) store.entries query
    have later : Items.get? (emptyNotes store.entries query : Dict F).reverse "over_budget" = none := by
      refine get?_absent (List.map_reverse (f := Prod.fst)) fun inside => ?_
      exact absurd (keys.subset (List.mem_reverse.mp inside)) (by decide)
    have before : Items.get? (wholeAnswer store query records).result "over_budget" = none :=
      get?_absent (whole_fields store query records) (by decide)
    have none_told : Items.get? (Items.update (wholeAnswer store query records).result (emptyNotes store.entries query)) "over_budget" = none := by
      rw [Items.get?_update, later, before]
      rfl
    cases none_told.symm.trans told

/-- The budget of an answer holds or is declared exactly where it is one and what is not measured has room. -/
theorem budget_declared_iff (store : Store F) (query : Query) (budget : Int) (answer : Answer F)
    (printed : emitJson store query (some budget) = some answer) : Declared store query budget answer ↔
      ∀ records, servedRecords store query = some records →
        Roomy budget (wholeAnswer store query records) (emptyNotes store.entries query) := by
  by_cases asked : budget = 0
  · subst asked
    obtain ⟨records, served, _⟩ := Option.map_eq_some_iff.mp printed
    constructor
    · intro declared
      exact absurd declared.bounded (unbounded_answer printed)
    · intro roomy
      exact absurd rfl (roomy records served).1
  · obtain ⟨records, n, served, kept, same⟩ := emitJson_spec asked printed
    have bounded := bounded_iff store query records budget kept.1 same
    constructor
    · intro declared records' served'
      cases served.symm.trans served'
      refine ⟨asked, fun n' kept' => ?_⟩
      cases kept_unique kept kept'
      exact bounded.mp declared.bounded
    · intro roomy
      exact declared_of_bounded served kept same (bounded.mpr ((roomy records served).2 n kept))

/-- A store of one record with a letter outside ASCII. -/
def accentStore : Store OnlyNan where
  entries := [⟨"r", "records/r.json", "technique-card", "L1", none, none, ⟨none, none, [], none, none, []⟩, none, [], "", none, none, none⟩]
  read _ := some (.obj [("type", .str "technique-card"), ("retrieval", .obj []), ("payload", .obj [("goal", .str "réduire")])])

def plainQuery : Query where
  arch := none
  vendor := none
  dsl := none
  family := none
  operator := none
  type := none
  level := none
  status := none
  tier := none
  symptom := none
  strictArch := false
  crossArch := false
  minImportance := none
  minGain := none
  minSpeedup := none
  exclude := []
  any := false
  rank := .blend
  weightImportance := 1
  terms := []
  limit := 8
  brief := false
  fallback := true
  fallbackRatio := 1 / 10
  sample pool n := pool.take n
  symptomNote := none
  symptomAlternatives := []

theorem budget_declared_iff_accent : ∃ answer, emitJson accentStore plainQuery (some 1) = some answer ∧
    Declared accentStore plainQuery 1 answer := by
  have some_answer : (emitJson accentStore plainQuery (some 1)).isSome = true := by decide +kernel
  obtain ⟨answer, printed⟩ := Option.isSome_iff_exists.mp some_answer
  refine ⟨answer, printed, (budget_declared_iff accentStore plainQuery 1 answer printed).mpr fun records served => ?_⟩
  have ids := congrArg List.length (servedRecords_spec served).1
  have single : records.length = 1 := by
    rw [← List.length_map, ids]
    decide +kernel
  refine ⟨by decide, fun n kept => .inl ?_⟩
  have positive := kept_pos kept (by rw [show (wholeAnswer accentStore plainQuery records).records = records from rfl, single]; decide)
  have within : n ≤ records.length := kept.1
  refine ⟨by omega, ?_⟩
  simp [Answer.text, Answer.json, dumps]

/-- The budget is measured in characters: a letter of two bytes is over it, and nothing says so. -/
theorem letter_exceeds_budget : ¬ ∀ (store : Store OnlyNan) (query : Query) (budget : Int) (answer : Answer OnlyNan),
    emitJson store query (some budget) = some answer → Declared store query budget answer := by
  intro all
  have facts : (emitJson accentStore plainQuery (some 567)).map (fun answer =>
      (utf8Length answer.text, (Items.get? answer.result "over_budget").isSome)) = some (568, false) := by decide +kernel
  obtain ⟨answer, printed, same⟩ := Option.map_eq_some_iff.mp facts
  obtain ⟨size, untold⟩ := Prod.mk.inj same
  rcases (all accentStore plainQuery 567 answer printed).bounded with small | ⟨told, _⟩
  · rw [size] at small
    exact absurd small (by decide)
  · rw [told] at untold
    cases untold

end AtrexAgent.WikiQuery
