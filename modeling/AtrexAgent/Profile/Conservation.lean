import AtrexAgent.Library.Traversal
import AtrexAgent.Profile.Timeline
import Mathlib.Algebra.Group.Nat.Defs

/-! Decoding loses and invents nothing: the committed slots are the records, and every record is in one event. -/

namespace AtrexAgent.Timeline

open AtrexAgent.Brackets

/-! ### Slots -/

/-- The slots of the capture that are committed, owner after owner. -/
def committedSlots (raw : List UInt8) (header : Header) : List Slot :=
  ((List.finRange header.ownerCount).flatMap fun (owner : Fin header.ownerCount) => ownerSlots raw header owner).filter Slot.committed

variable {raw : List UInt8} {header : Header} {info : ManifestInfo header} {sites : List (ℕ × Site)} {ownerInfo : OwnerInfo}
  {scan : Scan} {slot : Slot} {record : Record} {records : List Record}

/-- A record holds what its slot does. -/
def ShowsBy (header : Header) (sites : List (ℕ × Site)) (ownerInfo : OwnerInfo) (slot : Slot) (record : Record) : Prop :=
  ∃ site, Items.get? sites slot.siteId = some site ∧ record = recordOf header ownerInfo site slot

def Shows (info : ManifestInfo header) (sites : List (ℕ × Site)) (slot : Slot) (record : Record) : Prop :=
  ∃ owner : Fin header.ownerCount, slot.owner = owner ∧ ShowsBy header sites (info.owners owner) slot record

theorem complain_eq_nil {condition : Prop} [Decidable condition] {message : String} : complain condition message = [] ↔ ¬ condition := by
  unfold complain
  split <;> simp_all

/-- A slot that raises no error leaves its record where it is committed, and nothing otherwise. -/
theorem scanSlot_clean (clean : (scanSlot header ownerInfo sites scan slot).errors = []) : scan.errors = [] ∧
    if slot.committed then ∃ record, ShowsBy header sites ownerInfo slot record ∧ scan.previous ≤ slot.timestamp ∧
      (scanSlot header ownerInfo sites scan slot).records = scan.records ++ [record] ∧
      (scanSlot header ownerInfo sites scan slot).previous = slot.timestamp
    else (scanSlot header ownerInfo sites scan slot).records = scan.records ∧
      (scanSlot header ownerInfo sites scan slot).previous = scan.previous := by
  unfold scanSlot at clean ⊢
  dsimp only at clean ⊢
  by_cases committed : slot.committed = true
  · rw [if_pos committed] at clean ⊢
    rw [if_pos committed]
    cases here : Items.get? sites slot.siteId with
    | none =>
        rw [here] at clean
        simp at clean
    | some site =>
        rw [here] at clean
        simp only [List.append_eq_nil_iff, complain_eq_nil] at clean
        obtain ⟨⟨⟨⟨⟨before, -⟩, -⟩, -⟩, -⟩, ordered⟩ := clean
        exact ⟨before, _, ⟨site, here, rfl⟩, by omega, rfl, rfl⟩
  · rw [if_neg committed] at clean ⊢
    rw [if_neg committed]
    simp only [List.append_eq_nil_iff] at clean
    exact ⟨clean.1, rfl, rfl⟩

/-- The records of an owner, in the order of their times. -/
theorem scanSlots_clean {slots : List Slot} (clean : (slots.foldl (scanSlot header ownerInfo sites) scan).errors = []) :
    scan.errors = [] ∧ ∃ own, (slots.foldl (scanSlot header ownerInfo sites) scan).records = scan.records ++ own ∧
      List.Forall₂ (ShowsBy header sites ownerInfo) (slots.filter Slot.committed) own ∧
      own.Pairwise (fun a b => a.rawTimestamp ≤ b.rawTimestamp) ∧ ∀ record ∈ own, scan.previous ≤ record.rawTimestamp := by
  induction slots generalizing scan with
  | nil => exact ⟨clean, [], (List.append_nil _).symm, .nil, .nil, by simp⟩
  | cons slot slots ih =>
      rw [List.foldl_cons] at clean ⊢
      obtain ⟨clean, own, collected, shown, ordered, least⟩ := ih clean
      obtain ⟨before, here⟩ := scanSlot_clean clean
      refine ⟨before, ?_⟩
      split at here
      · rename_i committed
        obtain ⟨record, shows_, later, added, now⟩ := here
        have at_slot : record.rawTimestamp = slot.timestamp := by
          obtain ⟨site, -, rfl⟩ := shows_
          rfl
        rw [now] at least
        refine ⟨record :: own, ?_, ?_, List.pairwise_cons.mpr ⟨fun other member => ?_, ordered⟩, fun other member => ?_⟩
        · rw [collected, added, List.append_assoc]
          rfl
        · rw [List.filter_cons_of_pos committed]
          exact .cons shows_ shown
        · have after := least other member
          omega
        · rcases List.mem_cons.mp member with rfl | member
          · omega
          · have after := least other member
            omega
      · rename_i empty
        rw [here.2] at least
        rw [here.1] at collected
        refine ⟨own, collected, ?_, ordered, least⟩
        rw [List.filter_cons_of_neg empty]
        exact shown

theorem showsBy_owner (shown : ShowsBy header sites ownerInfo slot record) : record.owner = slot.owner := by
  obtain ⟨site, -, rfl⟩ := shown
  rfl

theorem mem_ownerSlots {n : ℕ} (member : slot ∈ ownerSlots raw header n) : slot.owner = n := by
  obtain ⟨sequence, -, rfl⟩ := List.mem_map.mp member
  rfl

theorem scanOwners_clean {owners : List (Fin header.ownerCount)} (distinct : owners.Nodup)
    (clean : (owners.foldl (scanOwner raw header info sites) scan).errors = []) :
    scan.errors = [] ∧ ∃ own, (owners.foldl (scanOwner raw header info sites) scan).records = scan.records ++ own ∧
      List.Forall₂ (Shows info sites) ((owners.flatMap fun (owner : Fin header.ownerCount) => ownerSlots raw header owner).filter Slot.committed) own ∧
      own.Pairwise (fun a b => a.owner = b.owner → a.rawTimestamp ≤ b.rawTimestamp) ∧
      ∀ record ∈ own, ∃ owner ∈ owners, record.owner = owner := by
  induction owners generalizing scan with
  | nil => exact ⟨clean, [], (List.append_nil _).symm, .nil, .nil, by simp⟩
  | cons owner owners ih =>
      rw [List.nodup_cons] at distinct
      rw [List.foldl_cons] at clean ⊢
      obtain ⟨clean, later, collected, shown, ordered, among⟩ := ih distinct.2 clean
      obtain ⟨claimed, own, added, shown_own, ordered_own, -⟩ := scanSlots_clean clean
      have at_owner : ∀ record ∈ own, record.owner = owner := by
        intro record member
        obtain ⟨slot, inside, shows_⟩ := forall₂_mem_right shown_own record member
        rw [showsBy_owner shows_, mem_ownerSlots (List.mem_of_mem_filter inside)]
      have own_ordered : own.Pairwise fun a b => a.owner = b.owner → a.rawTimestamp ≤ b.rawTimestamp := by
        apply ordered_own.imp
        intro a b le _
        exact le
      refine ⟨(List.append_eq_nil_iff.mp claimed).1, own ++ later, ?_, ?_, ?_, fun record member => ?_⟩
      · rw [collected, ← List.append_assoc]
        exact congrArg (· ++ later) added
      · rw [List.flatMap_cons, List.filter_append]
        refine List.rel_append ?_ shown
        exact forall₂_imp_mem shown_own fun slot member record shows_ =>
          ⟨owner, mem_ownerSlots (List.mem_of_mem_filter member), shows_⟩
      · refine List.pairwise_append.mpr ⟨own_ordered, ordered, fun a first b second same => ?_⟩
        obtain ⟨other, inside, at_other⟩ := among b second
        have equal : (owner : ℕ) = other := by rw [← at_owner a first, same, at_other]
        exact absurd (Fin.ext equal ▸ inside) distinct.1
      · rcases List.mem_append.mp member with here | there
        · exact ⟨owner, List.mem_cons_self, at_owner record here⟩
        · obtain ⟨other, inside, same⟩ := among record there
          exact ⟨other, List.mem_cons_of_mem _ inside, same⟩

/-- Records come in the order of sequence and time of their owner. -/
def Ordered (records : List Record) : Prop :=
  records.Pairwise fun a b => a.owner = b.owner → a.sequence < b.sequence ∧ a.rawTimestamp ≤ b.rawTimestamp

theorem forall₂_pairwise {α β : Type} {R : α → β → Prop} {P : α → α → Prop} {Q : β → β → Prop} {xs : List α} {ys : List β}
    (related : List.Forall₂ R xs ys) (carried : ∀ a b a' b', R a a' → R b b' → P a b → Q a' b') (held : xs.Pairwise P) : ys.Pairwise Q := by
  induction related with
  | nil => exact .nil
  | cons here rest ih =>
      rw [List.pairwise_cons] at held ⊢
      refine ⟨fun other member => ?_, ih held.2⟩
      obtain ⟨source, inside, related⟩ := forall₂_mem_right rest other member
      exact carried _ _ _ _ here related (held.1 source inside)

theorem slots_ordered (raw : List UInt8) (header : Header) :
    (committedSlots raw header).Pairwise fun a b => a.owner = b.owner → a.sequence < b.sequence := by
  apply List.Pairwise.filter
  rw [List.flatMap_def, List.pairwise_flatten]
  constructor
  · intro slots member
    obtain ⟨owner, -, rfl⟩ := List.mem_map.mp member
    rw [ownerSlots, List.pairwise_map]
    apply List.pairwise_lt_range.imp
    intro earlier later less _
    exact less
  · rw [List.pairwise_map]
    apply (List.nodup_finRange header.ownerCount).imp
    intro owner other different a first b second same
    have equal : (owner : ℕ) = other := by rw [← mem_ownerSlots first, same, mem_ownerSlots second]
    exact absurd (Fin.ext equal) different

/-- Accepted records are those of the committed slots. -/
theorem decodeRecords_spec (accepted : decodeRecords raw header info sites = .ok records) :
    List.Forall₂ (Shows info sites) (committedSlots raw header) records ∧ Ordered records := by
  unfold decodeRecords at accepted
  dsimp only at accepted
  split at accepted
  · rename_i clean
    obtain ⟨-, own, collected, shown, ordered, -⟩ := scanOwners_clean (List.nodup_finRange header.ownerCount) clean
    cases accepted
    rw [collected, List.nil_append]
    refine ⟨shown, ?_⟩
    have sequences : own.Pairwise fun a b => a.owner = b.owner → a.sequence < b.sequence := by
      apply forall₂_pairwise shown _ (slots_ordered raw header)
      intro slot slot' record record' here there before same
      obtain ⟨_, -, site, -, rfl⟩ := here
      obtain ⟨_, -, site', -, rfl⟩ := there
      exact before same
    exact (sequences.and ordered).imp fun both same => ⟨both.1 same, both.2 same⟩
  · cases accepted

/-! ### Pairing -/

def Kind.shape : Kind → Shape
  | .start => .opening
  | .finish => .closing
  | .instant => .single
  | .counter => .single

def matched (records : List Record) : Matching (ℕ × ℕ) Record := run Record.key (fun record => record.kind.shape) records

def eventOf : Piece Record → Event
  | .pair first last => rangeEvent first last
  | .single record => pointEvent record

/-- The loop pairs as the matching does. -/
structure Pairs (pairing : Pairing) (matching : Matching (ℕ × ℕ) Record) : Prop where
  stackTable : pairing.stackTable = matching.stackTable
  events : pairing.events = matching.pieces.map eventOf
  unmatched : pairing.errors = [] → matching.unmatched = []

theorem pairRecord_pairs {pairing : Pairing} {matching : Matching (ℕ × ℕ) Record} (pairs : Pairs pairing matching) (record : Record) :
    Pairs (pairRecord pairing record) (step Record.key (fun record => record.kind.shape) matching record) := by
  obtain ⟨stackTable, events, unmatched⟩ := pairs
  unfold pairRecord step
  rw [← stackTable]
  cases kind : record.kind with
  | start =>
      simp only [kind, Kind.shape]
      exact ⟨rfl, events, unmatched⟩
  | finish =>
      simp only [kind, Kind.shape]
      cases stackOf pairing.stackTable record.key with
      | nil => exact ⟨rfl, events, fun none_left => by simp at none_left⟩
      | cons top rest => exact ⟨rfl, by simp [events, eventOf], unmatched⟩
  | instant =>
      simp only [kind, Kind.shape]
      exact ⟨rfl, by simp [events, eventOf], unmatched⟩
  | counter =>
      simp only [kind, Kind.shape]
      exact ⟨rfl, by simp [events, eventOf], unmatched⟩

theorem pairing_matched (records : List Record) : Pairs (records.foldl pairRecord ⟨[], [], []⟩) (matched records) := by
  induction records using List.reverseRecOn with
  | nil => exact ⟨rfl, rfl, fun _ => rfl⟩
  | append_singleton records record ih =>
      rw [matched, run_append, List.foldl_append]
      exact pairRecord_pairs ih record

theorem shape_opening {kind : Kind} : kind.shape = .opening ↔ kind = .start := by cases kind <;> simp [Kind.shape]

theorem shape_closing {kind : Kind} : kind.shape = .closing ↔ kind = .finish := by cases kind <;> simp [Kind.shape]

theorem shape_single {kind : Kind} : kind.shape = .single ↔ kind = .instant ∨ kind = .counter := by cases kind <;> simp [Kind.shape]

theorem Ordered.nested (ordered : Ordered records) :
    Nested Record.key (fun record => record.kind.shape) Record.sequence (matched records).stackTable (matched records).pieces := by
  apply run_nested
  apply List.Pairwise.imp _ ordered
  intro a b later same
  exact (later (congrArg Prod.fst same)).1

/-! ### Origins -/

/-- The first record of an owner in the list is the one with the lowest sequence. -/
theorem firstRecord_find (ordered : Ordered records) : ∀ owner,
    Items.get? (records.foldl firstRecord []) owner = records.find? fun record => record.owner = owner := by
  induction records using List.reverseRecOn with
  | nil => exact fun _ => rfl
  | append_singleton records record ih =>
      obtain ⟨earlier, -, later⟩ := List.pairwise_append.mp ordered
      have ih := ih earlier
      intro owner
      rw [List.foldl_append, List.foldl_cons, List.foldl_nil, List.find?_append, ← ih owner, List.find?_singleton, firstRecord]
      cases here : Items.get? (records.foldl firstRecord []) record.owner with
      | some first =>
          have found := (ih record.owner).symm.trans here
          have same := List.find?_some found
          rw [decide_eq_true_eq] at same
          have before := (later first (List.mem_of_find?_eq_some found) record (List.mem_singleton_self record) same).1
          dsimp only
          rw [if_neg (by omega)]
          by_cases mine : record.owner = owner
          · rw [← mine, here]
            rfl
          · simp [mine]
      | none =>
          dsimp only
          rw [Items.get?_set]
          by_cases mine : record.owner = owner
          · rw [← mine, here]
            simp
          · simp [mine, Ne.symm mine]

theorem find_least (ordered : Ordered records) {owner : ℕ} {first : Record}
    (found : records.find? (fun record => record.owner = owner) = some first) (member : record ∈ records) (same : record.owner = owner) :
    first.rawTimestamp ≤ record.rawTimestamp := by
  induction records with
  | nil => cases member
  | cons head records ih =>
      obtain ⟨later, rest⟩ := List.pairwise_cons.mp ordered
      rw [List.find?_cons] at found
      by_cases here : head.owner = owner
      · rw [decide_eq_true here] at found
        cases found
        rcases List.mem_cons.mp member with rfl | inside
        · exact Nat.le_refl _
        · exact (later record inside (here.trans same.symm)).2
      · rw [decide_eq_false here] at found
        apply ih rest found
        rcases List.mem_cons.mp member with rfl | inside
        · exact absurd same here
        · exact inside

theorem Ordered.times (ordered : Ordered records) {first last : Record} (begun : first ∈ records) (ended : last ∈ records)
    (owner : first.owner = last.owner) (before : first.sequence < last.sequence) : first.rawTimestamp ≤ last.rawTimestamp := by
  induction records with
  | nil => cases begun
  | cons head records ih =>
      obtain ⟨later, rest⟩ := List.pairwise_cons.mp ordered
      rcases List.mem_cons.mp begun with same | inside
      · rcases List.mem_cons.mp ended with same' | inside'
        · exact Nat.le_of_eq (congrArg Record.rawTimestamp (same.trans same'.symm))
        · rw [same] at owner ⊢
          exact (later last inside' owner).2
      · rcases List.mem_cons.mp ended with same' | inside'
        · rw [same'] at owner before
          have after := (later first inside owner.symm).1
          omega
        · exact ih rest inside inside'

/-- `origins[owner]` is a time that no record of the owner comes before. -/
theorem origin_least (ordered : Ordered records) (member : record ∈ records) :
    (Items.get? ((records.foldl firstRecord []).map fun first => (first.1, first.2.rawTimestamp)) record.owner).getD 0 ≤
      record.rawTimestamp := by
  rw [Items.get?_mapValue, firstRecord_find ordered]
  cases here : records.find? fun other => other.owner = record.owner with
  | none => exact absurd (decide_eq_true rfl) (List.find?_eq_none.mp here record member)
  | some first => exact find_least ordered here member rfl

/-! ### Events -/

/-- The accepted events are those of the matching, with their times since the origin of the owner. -/
theorem canonicalize_spec {ownerCount : ℕ} {events : List Placed} {origins : List (ℕ × ℕ)}
    (accepted : canonicalize records ownerCount = .ok (events, origins)) :
    (events.map Placed.event).Perm ((matched records).pieces.map eventOf) ∧
    ((matched records).pieces.flatMap Piece.tokens).Perm records ∧
    ∀ placed ∈ events, placed.ownerRelativeStartNs = placed.event.rawStart -
      ((Items.get? ((records.foldl firstRecord []).map fun first => (first.1, first.2.rawTimestamp)) placed.event.place.owner).getD 0 : ℕ) := by
  unfold canonicalize at accepted
  dsimp only at accepted
  split at accepted
  · rename_i clean
    cases accepted
    obtain ⟨stackTable, made, unmatched⟩ := pairing_matched records
    simp only [List.append_eq_nil_iff, List.flatMap_eq_nil_iff, complain_eq_nil] at clean
    refine ⟨?_, ?_, fun placed member => ?_⟩
    · apply ((List.mergeSort_perm _ _).map Placed.event).trans
      rw [List.map_map, ← made]
      exact (List.map_id _).symm ▸ List.Perm.refl _
    · have whole : (matched records).tokens.Perm records := run_tokens records
      have open_ : pending (matched records).stackTable = [] := by
        rw [← stackTable, pending, List.flatMap_eq_nil_iff]
        intro item member
        exact not_not.mp (clean.1.2 item member)
      have all : (matched records).tokens = (matched records).pieces.flatMap Piece.tokens := by
        rw [Matching.tokens, open_, unmatched clean.1.1]
        simp
      exact all ▸ whole
    · obtain ⟨event, -, rfl⟩ := List.mem_map.mp ((List.mergeSort_perm _ _).mem_iff.mp member)
      rfl
  · cases accepted

def Event.isRange : Event → Bool
  | .range .. => true
  | .point .. => false

def Event.isPoint (kind : Kind) : Event → Bool
  | .range .. => false
  | .point type .. => type = kind

def Event.durationNs? : Event → Option ℤ
  | .range _ _ _ _ _ durationNs _ _ => some durationNs
  | .point .. => none

/-- Two ranges of one owner and site share no record, or one of them lies inside of the other. -/
def NestedOrDisjoint : Event → Event → Prop
  | .range place first last _ _ _ _ _, .range place' first' last' _ _ _ _ _ =>
      place.owner = place'.owner → place.siteId = place'.siteId → Laminar first last first' last'
  | _, _ => True

theorem nestedOrDisjoint_symm {a b : Event} (held : NestedOrDisjoint a b) : NestedOrDisjoint b a := by
  cases a with
  | range =>
      cases b with
      | range => exact fun owner site => (held owner.symm site.symm).symm
      | point => trivial
  | point => cases b <;> trivial

variable {pieces : List (Piece Record)}

/-- What the pieces of accepted records are. -/
structure Matched (records : List Record) (pieces : List (Piece Record)) : Prop where
  tokens : (pieces.flatMap Piece.tokens).Perm records
  pairs : ∀ first last, Piece.pair first last ∈ pieces → first.kind = .start ∧ last.kind = .finish ∧ first.owner = last.owner ∧
    first.siteId = last.siteId ∧ first.sequence < last.sequence
  singles : ∀ record, Piece.single record ∈ pieces → record.kind = .instant ∨ record.kind = .counter
  lifo : ∀ first last first' last', Piece.pair first last ∈ pieces → Piece.pair first' last' ∈ pieces → first.owner = first'.owner →
    first.siteId = first'.siteId → first.sequence < first'.sequence → first'.sequence < last.sequence → last'.sequence < last.sequence
  laminar : (pieces.map eventOf).Pairwise NestedOrDisjoint

theorem Ordered.matched (ordered : Ordered records) (tokens : ((matched records).pieces.flatMap Piece.tokens).Perm records) :
    Matched records (Timeline.matched records).pieces := by
  have nested := ordered.nested
  refine ⟨tokens, fun first last member => ?_, fun record member => shape_single.mp (nested.singles record member), ?_, ?_⟩
  · obtain ⟨same, before, opening, closing⟩ := nested.pairs first last member
    exact ⟨shape_opening.mp opening, shape_closing.mp closing, congrArg Prod.fst same, congrArg Prod.snd same, before⟩
  · intro first last first' last' member member' owner site
    exact nested.lifo member member' (Prod.ext owner site)
  · rw [List.pairwise_map]
    apply nested.laminar.imp_of_mem
    intro a b first second laminar
    cases a with
    | single => cases b <;> trivial
    | pair begun ended =>
        cases b with
        | single => trivial
        | pair begun' ended' =>
            intro owner site
            have same := (nested.pairs begun ended first).1
            have same' := (nested.pairs begun' ended' second).1
            exact laminar _ _ _ _ rfl rfl (same.trans ((Prod.ext owner site : ended.key = ended'.key).trans same'.symm))

/-- Two records for a range, one for an instant or a counter. -/
theorem count_pieces (singles : ∀ record, Piece.single record ∈ pieces → record.kind = .instant ∨ record.kind = .counter) :
    2 * (pieces.map eventOf).countP Event.isRange + (pieces.map eventOf).countP (Event.isPoint .instant) +
      (pieces.map eventOf).countP (Event.isPoint .counter) = (pieces.flatMap Piece.tokens).length := by
  induction pieces with
  | nil => rfl
  | cons piece pieces ih =>
      have ih := ih fun record member => singles record (List.mem_cons_of_mem _ member)
      rw [List.map_cons, List.countP_cons, List.countP_cons, List.countP_cons, List.flatMap_cons, List.length_append, ← ih]
      cases piece with
      | pair first last =>
          simp only [eventOf, rangeEvent, Event.isRange, Event.isPoint, Piece.tokens, List.length_cons, List.length_nil]
          simp
          omega
      | single record =>
          rcases singles record List.mem_cons_self with kind | kind
          all_goals
            simp only [eventOf, pointEvent, Event.isRange, Event.isPoint, Piece.tokens, List.length_cons, List.length_nil, kind]
            simp
            omega

/-- The times of an event of accepted records. -/
theorem piece_times (ordered : Ordered records) (whole : Matched records pieces) {piece : Piece Record} (member : piece ∈ pieces) :
    (Items.get? ((records.foldl firstRecord []).map fun first => (first.1, first.2.rawTimestamp)) (eventOf piece).place.owner).getD 0 ≤
      (eventOf piece).rawStart ∧ ∀ duration ∈ (eventOf piece).durationNs?, 0 ≤ duration := by
  have held : ∀ record ∈ piece.tokens, record ∈ records := fun record inside =>
    whole.tokens.mem_iff.mp (List.mem_flatMap.mpr ⟨piece, member, inside⟩)
  cases piece with
  | single record =>
      refine ⟨origin_least ordered (held record (List.mem_singleton_self record)), fun duration given => ?_⟩
      cases given
  | pair first last =>
      obtain ⟨-, -, owner, -, before⟩ := whole.pairs first last member
      have begun := held first (by simp [Piece.tokens])
      have ended := held last (by simp [Piece.tokens])
      refine ⟨?_, fun duration given => ?_⟩
      · have least := origin_least ordered begun
        rw [owner] at least
        exact least
      · cases given
        have later := ordered.times begun ended owner before
        omega

/-- The events of accepted records. -/
theorem canonicalize_sound {ownerCount : ℕ} {events : List Placed} {origins : List (ℕ × ℕ)} (ordered : Ordered records)
    (accepted : canonicalize records ownerCount = .ok (events, origins)) :
    ∃ pieces, Matched records pieces ∧ (events.map Placed.event).Perm (pieces.map eventOf) ∧
      2 * (events.map Placed.event).countP Event.isRange + (events.map Placed.event).countP (Event.isPoint .instant) +
        (events.map Placed.event).countP (Event.isPoint .counter) = records.length ∧
      (∀ placed ∈ events, 0 ≤ placed.ownerRelativeStartNs ∧ ∀ duration ∈ placed.event.durationNs?, 0 ≤ duration) ∧
      (events.map Placed.event).Pairwise NestedOrDisjoint := by
  obtain ⟨same, tokens, relative⟩ := canonicalize_spec accepted
  have whole := ordered.matched tokens
  refine ⟨_, whole, same, ?_, fun placed member => ?_, (same.pairwise_iff nestedOrDisjoint_symm).mpr whole.laminar⟩
  · rw [same.countP_eq, same.countP_eq, same.countP_eq, count_pieces whole.singles, tokens.length_eq]
  · obtain ⟨piece, inside, here⟩ := List.mem_map.mp (same.mem_iff.mp (List.mem_map_of_mem member))
    obtain ⟨start, durations⟩ := piece_times ordered whole inside
    rw [relative placed member, ← here]
    exact ⟨by omega, durations⟩

/-- Every committed record of an accepted capture is in one event, and ranges are what the stacks of owners and sites pair. -/
theorem decode_sound (raw : List UInt8) (validateManifest : (header : Header) → Except String (ManifestInfo header))
    (loadSites : {header : Header} → ManifestInfo header → Except String (List (ℕ × Site))) (events : List Placed)
    (accepted : decode raw validateManifest loadSites = .ok events) :
    ∃ (header : Header) (info : ManifestInfo header) (sites : List (ℕ × Site)) (records : List Record) (pieces : List (Piece Record)),
      parseHeader raw = .ok header ∧ validateManifest header = .ok info ∧ loadSites info = .ok sites ∧
      List.Forall₂ (Shows info sites) (committedSlots raw header) records ∧
      (pieces.flatMap Piece.tokens).Perm records ∧ (events.map Placed.event).Perm (pieces.map eventOf) ∧
      (∀ first last, Piece.pair first last ∈ pieces → first.kind = .start ∧ last.kind = .finish ∧ first.owner = last.owner ∧
        first.siteId = last.siteId ∧ first.sequence < last.sequence) ∧
      (∀ record, Piece.single record ∈ pieces → record.kind = .instant ∨ record.kind = .counter) ∧
      (∀ first last first' last', Piece.pair first last ∈ pieces → Piece.pair first' last' ∈ pieces → first.owner = first'.owner →
        first.siteId = first'.siteId → first.sequence < first'.sequence → first'.sequence < last.sequence →
          last'.sequence < last.sequence) ∧
      2 * (events.map Placed.event).countP Event.isRange + (events.map Placed.event).countP (Event.isPoint .instant) +
        (events.map Placed.event).countP (Event.isPoint .counter) = (committedSlots raw header).length ∧
      (∀ placed ∈ events, 0 ≤ placed.ownerRelativeStartNs ∧ ∀ duration ∈ placed.event.durationNs?, 0 ≤ duration) ∧
      (events.map Placed.event).Pairwise NestedOrDisjoint := by
  obtain ⟨header, parsed, accepted⟩ := (bind_ok_iff _ _ _).mp accepted
  obtain ⟨info, validated, accepted⟩ := (bind_ok_iff _ _ _).mp accepted
  obtain ⟨sites, loaded, accepted⟩ := (bind_ok_iff _ _ _).mp accepted
  obtain ⟨records, decoded, accepted⟩ := (bind_ok_iff _ _ _).mp accepted
  obtain ⟨⟨_, origins⟩, placed, accepted⟩ := (bind_ok_iff _ _ _).mp accepted
  cases accepted
  obtain ⟨shown, ordered⟩ := decodeRecords_spec decoded
  obtain ⟨pieces, whole, same, counts, times, laminar⟩ := canonicalize_sound ordered placed
  rw [← shown.length_eq] at counts
  exact ⟨header, info, sites, records, pieces, parsed, validated, loaded, shown, whole.tokens, same, whole.pairs, whole.singles,
    whole.lifo, counts, times, laminar⟩

def little (width value : ℕ) : List UInt8 := (List.range width).map fun i => UInt8.ofNat (value / 256 ^ i)

/-- A capture of one owner with a range from tick 5 to tick 9 at site 7. -/
def oneRange : List UInt8 :=
  little 8 MAGIC ++ little 2 1 ++ little 2 0 ++ little 2 64 ++ little 2 16 ++ little 4 2 ++ little 4 1 ++ little 4 2 ++ little 4 0 ++
    (List.replicate 6 1).flatMap (little 4) ++ little 8 0 ++
    little 8 5 ++ little 4 0 ++ little 4 (2 ^ 31 + 7) ++ little 8 9 ++ little 4 0 ++ little 4 (2 ^ 31 + 2 ^ 16 + 7) ++
    little 8 (2 ^ 32 + 1)

def oneSite : Site := ⟨"tile", .range, "observation", none, "issue", "sync", "kernel.cu"⟩

def decodedRange : Except String (List Placed) :=
  decode oneRange (fun _ => .ok ⟨fun _ => ⟨0, 0, "warp", "probe"⟩⟩) fun _ => .ok [(7, oneSite)]

theorem decode_sound_range : ∃ events, decodedRange = .ok events ∧ ∀ placed ∈ events, 0 ≤ placed.ownerRelativeStartNs := by
  have decoded : decodedRange.toBool = true := by decide +kernel
  cases accepted : decodedRange with
  | error message =>
      rw [accepted] at decoded
      cases decoded
  | ok events =>
      obtain ⟨_, _, _, _, _, -, -, -, -, -, -, -, -, -, -, times, -⟩ := decode_sound _ _ _ events accepted
      exact ⟨events, rfl, fun placed member => (times placed member).1⟩

end AtrexAgent.Timeline
