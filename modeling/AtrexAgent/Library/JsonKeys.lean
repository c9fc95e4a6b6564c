import Mathlib.Data.String.Basic
import Mathlib.Data.List.Sort
import AtrexAgent.Library.JsonText

/-! JSON values whose objects have their items in the order of their keys, and how much text
the strings of a value need. -/

namespace AtrexAgent.Json

variable {F : Type}

/-! ### Order of keys -/

mutual

def sortKeys : Json F → Json F
  | .arr items => .arr (sortItems items)
  | .obj items => .obj ((sortMembers items).insertionSort fun a b => a.1 ≤ b.1)
  | .null => .null
  | .bool value => .bool value
  | .int value => .int value
  | .float value => .float value
  | .str value => .str value

def sortItems : List (Json F) → List (Json F)
  | [] => []
  | item :: rest => sortKeys item :: sortItems rest

def sortMembers : Dict F → Dict F
  | [] => []
  | (key, value) :: rest => (key, sortKeys value) :: sortMembers rest

end

mutual

/-- The items of every object are in the order of their keys, which are distinct. -/
def Canonical : Json F → Prop
  | .arr items => CanonicalItems items
  | .obj items => (items.map Prod.fst).Pairwise (· < ·) ∧ CanonicalMembers items
  | _ => True

def CanonicalItems : List (Json F) → Prop
  | [] => True
  | item :: rest => Canonical item ∧ CanonicalItems rest

def CanonicalMembers : Dict F → Prop
  | [] => True
  | (_, value) :: rest => Canonical value ∧ CanonicalMembers rest

end

theorem keys_nodup {keys : List String} (sorted : keys.Pairwise (· < ·)) : keys.Nodup :=
  sorted.imp fun less => ne_of_lt less

mutual

theorem canonical_distinct (v : Json F) (canonical : Canonical v) : Distinct v := by
  cases v with
  | arr items => exact canonicalItems_distinct items canonical
  | obj items =>
      rw [Distinct]
      exact ⟨keys_nodup canonical.1, canonicalMembers_distinct items canonical.2⟩
  | _ => trivial

theorem canonicalItems_distinct (items : List (Json F)) (canonical : CanonicalItems items) :
    DistinctItems items := by
  cases items with
  | nil => trivial
  | cons item rest => exact ⟨canonical_distinct item canonical.1, canonicalItems_distinct rest canonical.2⟩

theorem canonicalMembers_distinct (items : Dict F) (canonical : CanonicalMembers items) :
    DistinctMembers items := by
  cases items with
  | nil => trivial
  | cons item rest =>
      exact ⟨canonical_distinct item.2 canonical.1, canonicalMembers_distinct rest canonical.2⟩

end

mutual

/-- A value in order is left as it is. -/
theorem sortKeys_canonical (v : Json F) (canonical : Canonical v) : sortKeys v = v := by
  cases v with
  | arr items => rw [sortKeys, sortItems_canonical items canonical]
  | obj items =>
      rw [sortKeys, sortMembers_canonical items canonical.2, List.Pairwise.insertionSort_eq]
      exact (List.pairwise_map.mp canonical.1).imp le_of_lt
  | _ => rfl

theorem sortItems_canonical (items : List (Json F)) (canonical : CanonicalItems items) :
    sortItems items = items := by
  cases items with
  | nil => rfl
  | cons item rest =>
      rw [sortItems, sortKeys_canonical item canonical.1, sortItems_canonical rest canonical.2]

theorem sortMembers_canonical (items : Dict F) (canonical : CanonicalMembers items) :
    sortMembers items = items := by
  cases items with
  | nil => rfl
  | cons item rest =>
      rw [sortMembers, sortKeys_canonical item.2 canonical.1, sortMembers_canonical rest canonical.2]

end

theorem keys_sortMembers (items : Dict F) : (sortMembers items).map Prod.fst = items.map Prod.fst := by
  induction items with
  | nil => rfl
  | cons item rest ih => rw [sortMembers, List.map_cons, List.map_cons, ih]

mutual

theorem distinct_sortKeys (v : Json F) (distinct : Distinct v) : Distinct (sortKeys v) := by
  cases v with
  | arr items => exact distinct_sortItems items distinct
  | obj items =>
      have keys : (sortMembers items).map Prod.fst = items.map Prod.fst := keys_sortMembers items
      have perm := List.perm_insertionSort (fun a b : String × Json F => a.1 ≤ b.1) (sortMembers items)
      refine ⟨?_, distinct_members _ fun item member => ?_⟩
      · rw [(perm.map Prod.fst).nodup_iff, keys]
        exact distinct.1
      · exact distinct_member _ (distinct_sortMembers items distinct.2) item (perm.mem_iff.mp member)
  | _ => trivial

theorem distinct_sortItems (items : List (Json F)) (distinct : DistinctItems items) :
    DistinctItems (sortItems items) := by
  cases items with
  | nil => trivial
  | cons item rest => exact ⟨distinct_sortKeys item distinct.1, distinct_sortItems rest distinct.2⟩

theorem distinct_sortMembers (items : Dict F) (distinct : DistinctMembers items) :
    DistinctMembers (sortMembers items) := by
  cases items with
  | nil => trivial
  | cons item rest => exact ⟨distinct_sortKeys item.2 distinct.1, distinct_sortMembers rest distinct.2⟩

end

theorem sorted_keys {items : Dict F} (nodup : (items.map Prod.fst).Nodup) :
    ((items.insertionSort fun a b => a.1 ≤ b.1).map Prod.fst).Pairwise (· < ·) := by
  have perm := (List.perm_insertionSort (fun a b : String × Json F => a.1 ≤ b.1) items).map Prod.fst
  have ordered : ((items.insertionSort fun a b => a.1 ≤ b.1).map Prod.fst).Pairwise (· ≤ ·) := by
    rw [List.pairwise_map]
    exact List.pairwise_insertionSort _ _
  exact (ordered.and (perm.nodup_iff.mpr nodup)).imp fun le => lt_of_le_of_ne le.1 le.2

theorem canonicalMembers_iff (items : Dict F) : CanonicalMembers items ↔ ∀ item ∈ items, Canonical item.2 := by
  induction items with
  | nil => exact ⟨fun _ _ member => absurd member List.not_mem_nil, fun _ => trivial⟩
  | cons item rest ih => rw [CanonicalMembers, ih, List.forall_mem_cons]

mutual

theorem canonical_sortKeys (v : Json F) (distinct : Distinct v) : Canonical (sortKeys v) := by
  cases v with
  | arr items => exact canonical_sortItems items distinct
  | obj items =>
      refine ⟨sorted_keys (by rw [keys_sortMembers]; exact distinct.1), ?_⟩
      rw [canonicalMembers_iff]
      intro item member
      exact (canonicalMembers_iff _).mp (canonical_sortMembers items distinct.2) item
        ((List.mem_insertionSort _).mp member)
  | _ => trivial

theorem canonical_sortItems (items : List (Json F)) (distinct : DistinctItems items) :
    CanonicalItems (sortItems items) := by
  cases items with
  | nil => trivial
  | cons item rest => exact ⟨canonical_sortKeys item distinct.1, canonical_sortItems rest distinct.2⟩

theorem canonical_sortMembers (items : Dict F) (distinct : DistinctMembers items) :
    CanonicalMembers (sortMembers items) := by
  cases items with
  | nil => trivial
  | cons item rest => exact ⟨canonical_sortKeys item.2 distinct.1, canonical_sortMembers rest distinct.2⟩

end

theorem canonical_get {items : Dict F} (canonical : CanonicalMembers items) {key : String} {value : Json F}
    (found : find? items key = some value) : Canonical value := by
  unfold find? at found
  obtain ⟨item, member, rfl⟩ := Option.map_eq_some_iff.mp found
  exact (canonicalMembers_iff items).mp canonical item (List.mem_of_find?_eq_some member)

/-! ### Strings of a value -/

mutual

/-- No string of the value has more than `n` characters. -/
def Within (n : Nat) : Json F → Prop
  | .str s => s.toList.length ≤ n
  | .arr items => WithinItems n items
  | .obj items => WithinMembers n items
  | _ => True

def WithinItems (n : Nat) : List (Json F) → Prop
  | [] => True
  | item :: rest => Within n item ∧ WithinItems n rest

def WithinMembers (n : Nat) : Dict F → Prop
  | [] => True
  | (_, value) :: rest => Within n value ∧ WithinMembers n rest

end

theorem withinMembers_iff (n : Nat) (items : Dict F) :
    WithinMembers n items ↔ ∀ item ∈ items, Within n item.2 := by
  induction items with
  | nil => exact ⟨fun _ _ member => absurd member List.not_mem_nil, fun _ => trivial⟩
  | cons item rest ih => rw [WithinMembers, ih, List.forall_mem_cons]

theorem within_get {n : Nat} {items : Dict F} (within : WithinMembers n items) {key : String}
    {value : Json F} (found : find? items key = some value) : Within n value := by
  unfold find? at found
  obtain ⟨item, member, rfl⟩ := Option.map_eq_some_iff.mp found
  exact (withinMembers_iff n items).mp within item (List.mem_of_find?_eq_some member)

mutual

theorem within_more {n m : Nat} (more : n ≤ m) (v : Json F) (within : Within n v) : Within m v := by
  cases v with
  | str s => exact Nat.le_trans within more
  | arr items => exact withinItems_more more items within
  | obj items => exact withinMembers_more more items within
  | _ => trivial

theorem withinItems_more {n m : Nat} (more : n ≤ m) (items : List (Json F)) (within : WithinItems n items) :
    WithinItems m items := by
  cases items with
  | nil => trivial
  | cons item rest => exact ⟨within_more more item within.1, withinItems_more more rest within.2⟩

theorem withinMembers_more {n m : Nat} (more : n ≤ m) (items : Dict F) (within : WithinMembers n items) :
    WithinMembers m items := by
  cases items with
  | nil => trivial
  | cons item rest => exact ⟨within_more more item.2 within.1, withinMembers_more more rest within.2⟩

end

mutual

theorem within_sortKeys (n : Nat) (v : Json F) (within : Within n v) : Within n (sortKeys v) := by
  cases v with
  | arr items => exact withinItems_sort n items within
  | obj items =>
      rw [sortKeys, Within, withinMembers_iff]
      intro item member
      exact (withinMembers_iff n _).mp (withinMembers_sort n items within) item
        ((List.mem_insertionSort _).mp member)
  | _ => exact within

theorem withinItems_sort (n : Nat) (items : List (Json F)) (within : WithinItems n items) :
    WithinItems n (sortItems items) := by
  cases items with
  | nil => trivial
  | cons item rest => exact ⟨within_sortKeys n item within.1, withinItems_sort n rest within.2⟩

theorem withinMembers_sort (n : Nat) (items : Dict F) (within : WithinMembers n items) :
    WithinMembers n (sortMembers items) := by
  cases items with
  | nil => trivial
  | cons item rest => exact ⟨within_sortKeys n item.2 within.1, withinMembers_sort n rest within.2⟩

end

theorem scanString_shorter (s text rest : Text) (scanned : scanString s = some (text, rest)) :
    text.length + rest.length ≤ s.length := by
  fun_induction scanString s generalizing text rest <;> simp_all [push] <;> grind

/-! ### What the decoder leaves -/

theorem dropPrefix_shorter {start s rest : Text} (dropped : dropPrefix start s = some rest) :
    rest.length ≤ s.length := by
  rw [(dropPrefix_eq_some start s rest).mp dropped, List.length_append]
  omega

theorem dropWhile_shorter (p : Char → Bool) (s : Text) : (s.dropWhile p).length ≤ s.length :=
  (List.dropWhile_suffix p).length_le

theorem scanWhole_shorter {s whole rest : Text} (scanned : scanWhole s = some (whole, rest)) :
    rest.length ≤ s.length := by
  cases s with
  | nil => cases scanned
  | cons c s =>
      have := dropWhile_shorter isDigit s
      rw [scanWhole] at scanned
      split at scanned
      · cases scanned
        simp
      · split at scanned
        · cases scanned
          simp only [List.length_cons]
          omega
        · cases scanned

theorem scanFraction_shorter (s : Text) : (scanFraction s).2.length ≤ s.length := by
  cases s with
  | nil => exact Nat.le_refl _
  | cons c s =>
      have := dropWhile_shorter isDigit s
      rw [scanFraction]
      split
      · simp only [List.length_cons]
        omega
      · exact Nat.le_refl _

theorem scanExponentSign_shorter (s : Text) : (scanExponentSign s).2.length ≤ s.length := by
  cases s with
  | nil => exact Nat.le_refl _
  | cons c s =>
      rw [scanExponentSign]
      split <;> simp

theorem scanExponent_shorter (s : Text) : (scanExponent s).2.length ≤ s.length := by
  cases s with
  | nil => exact Nat.le_refl _
  | cons c s =>
      have sign := scanExponentSign_shorter s
      have digits := dropWhile_shorter isDigit (scanExponentSign s).2
      rw [scanExponent]
      dsimp only
      split
      · simp only [List.length_cons]
        omega
      · exact Nat.le_refl _

theorem scanNumeral_shorter {s : Text} {scanned : Numeral × Text} (here : scanNumeral s = some scanned) :
    scanned.2.length ≤ s.length := by
  unfold scanNumeral at here
  have sign : (scanSign s).2.length ≤ s.length := by
    unfold scanSign
    split <;> simp
  obtain ⟨whole, found, here⟩ := Option.bind_eq_some_iff.mp here
  have whole_ := scanWhole_shorter found
  have fraction := scanFraction_shorter whole.2
  have exponent := scanExponent_shorter (scanFraction whole.2).2
  cases here
  exact Nat.le_trans exponent (Nat.le_trans fraction (Nat.le_trans whole_ sign))

section Decoder

variable [FloatText F]

omit [FloatText F] in
theorem scanKeyword_shorter {s : Text} {words : List (Text × Json F)} {scanned : Json F × Text}
    (here : scanKeyword s words = some scanned) : scanned.2.length ≤ s.length := by
  induction words with
  | nil => cases here
  | cons word rest ih =>
      rw [scanKeyword] at here
      split at here
      · rename_i after dropped
        cases here
        exact dropPrefix_shorter dropped
      · exact ih here

omit [FloatText F] in
theorem scanKeyword_plain {n : Nat} {s : Text} {words : List (Text × Json F)} {scanned : Json F × Text}
    (plain : ∀ word ∈ words, Within n word.2) (here : scanKeyword s words = some scanned) :
    Within n scanned.1 := by
  induction words with
  | nil => cases here
  | cons word rest ih =>
      rw [scanKeyword] at here
      split at here
      · cases here
        exact plain word List.mem_cons_self
      · exact ih (fun other member => plain other (List.mem_cons_of_mem _ member)) here

theorem scanAtom_within {s : Text} {scanned : Json F × Text} (here : scanAtom s = some scanned) (n : Nat) :
    Within n scanned.1 ∧ scanned.2.length ≤ s.length := by
  unfold scanAtom at here
  split at here
  · rename_i found
    cases here
    refine ⟨scanKeyword_plain ?_ found, scanKeyword_shorter found⟩
    simp [keywords, Within]
  · obtain ⟨r, numeral, rfl⟩ := Option.map_eq_some_iff.mp here
    refine ⟨?_, scanNumeral_shorter numeral⟩
    dsimp only
    unfold numeralValue
    split <;> trivial

omit [FloatText F] in
theorem within_ofPairs {n : Nat} (pairs : Dict F) (within : WithinMembers n pairs) :
    WithinMembers n (ofPairs pairs) := by
  have fold : ∀ pairs d : Dict F, WithinMembers n pairs → WithinMembers n d →
      WithinMembers n (pairs.foldl (fun d p => set d p.1 p.2) d) := by
    intro pairs
    induction pairs with
    | nil => exact fun d _ within => within
    | cons p rest ih =>
        intro d values within
        rw [List.foldl_cons]
        refine ih _ values.2 ((withinMembers_iff n _).mpr fun item member => ?_)
        rcases mem_set d p.1 p.2 item member with old | rfl
        · exact (withinMembers_iff n d).mp within item old
        · exact values.1
  exact fold pairs [] within trivial

/-- The strings of a value come from the text that it is read from. -/
theorem scan_within (fuel : Nat) :
    (∀ s (scanned : Json F × Text), scanValue fuel s = some scanned →
      Within s.length scanned.1 ∧ scanned.2.length ≤ s.length) ∧
    (∀ s (scanned : List (Json F) × Text), scanItems fuel s = some scanned →
      WithinItems s.length scanned.1 ∧ scanned.2.length ≤ s.length) ∧
    (∀ s (scanned : List (String × Json F) × Text), scanMembers fuel s = some scanned →
      WithinMembers s.length scanned.1 ∧ scanned.2.length ≤ s.length) := by
  induction fuel with
  | zero =>
      refine ⟨?_, ?_, ?_⟩
      · intro s scanned here
        rw [scanValue] at here
        cases here
      · intro s scanned here
        rw [scanItems] at here
        cases here
      · intro s scanned here
        rw [scanMembers] at here
        cases here
  | succ fuel ih =>
      obtain ⟨values, items, members⟩ := ih
      refine ⟨?_, ?_, ?_⟩
      · intro s scanned here
        unfold scanValue at here
        split at here
        · rename_i rest
          obtain ⟨r, string, rfl⟩ := Option.map_eq_some_iff.mp here
          have shorter := scanString_shorter rest r.1 r.2 string
          simp only [Within, String.toList_ofList, List.length_cons]
          omega
        · rename_i rest
          have gap := dropWhile_shorter isSpace rest
          split at here
          · rename_i after closed
            cases here
            have := congrArg List.length closed
            simp only [Within, WithinItems, List.length_cons, true_and] at this ⊢
            omega
          · obtain ⟨r, inner, rfl⟩ := Option.map_eq_some_iff.mp here
            obtain ⟨within, shorter⟩ := items _ r inner
            simp only [Within, List.length_cons]
            exact ⟨withinItems_more (by omega) _ within, by omega⟩
        · rename_i rest
          have gap := dropWhile_shorter isSpace rest
          split at here
          · rename_i after closed
            cases here
            have := congrArg List.length closed
            simp only [Within, WithinMembers, List.length_cons, true_and] at this ⊢
            omega
          · obtain ⟨r, inner, rfl⟩ := Option.map_eq_some_iff.mp here
            obtain ⟨within, shorter⟩ := members _ r inner
            simp only [Within, List.length_cons]
            exact ⟨withinMembers_more (by omega) _ (within_ofPairs _ within), by omega⟩
        · exact scanAtom_within here _
      · intro s scanned here
        unfold scanItems at here
        obtain ⟨item, first, here⟩ := Option.bind_eq_some_iff.mp here
        obtain ⟨own, shorter⟩ := values _ item first
        have gap := dropWhile_shorter isSpace item.2
        split at here
        · rename_i rest closed
          cases here
          have := congrArg List.length closed
          rw [List.length_cons] at this
          exact ⟨⟨own, trivial⟩, by dsimp only; omega⟩
        · rename_i rest closed
          obtain ⟨r, later, rfl⟩ := Option.map_eq_some_iff.mp here
          have := congrArg List.length closed
          rw [List.length_cons] at this
          obtain ⟨within, shorter'⟩ := items _ r later
          have gap' := dropWhile_shorter isSpace rest
          exact ⟨⟨own, withinItems_more (by omega) _ within⟩, by dsimp only; omega⟩
        · cases here
      · intro s scanned here
        unfold scanMembers at here
        split at here
        · rename_i opened
          obtain ⟨key, string, here⟩ := Option.bind_eq_some_iff.mp here
          have shorter := scanString_shorter opened key.1 key.2 string
          have gap := dropWhile_shorter isSpace key.2
          split at here
          · rename_i rest colon
            have := congrArg List.length colon
            rw [List.length_cons] at this
            have gap' := dropWhile_shorter isSpace rest
            obtain ⟨value, first, here⟩ := Option.bind_eq_some_iff.mp here
            obtain ⟨own, shorter'⟩ := values _ value first
            have after := dropWhile_shorter isSpace value.2
            rw [List.length_cons]
            split at here
            · rename_i rest' closed
              cases here
              have := congrArg List.length closed
              rw [List.length_cons] at this
              exact ⟨⟨within_more (by omega) _ own, trivial⟩, by dsimp only; omega⟩
            · rename_i rest' closed
              obtain ⟨r, later, rfl⟩ := Option.map_eq_some_iff.mp here
              have := congrArg List.length closed
              rw [List.length_cons] at this
              obtain ⟨within, shorter⟩ := members _ r later
              have after' := dropWhile_shorter isSpace rest'
              exact ⟨⟨within_more (by omega) _ own, withinMembers_more (by omega) _ within⟩, by
                dsimp only; omega⟩
            · cases here
          · cases here
        · cases here

theorem loads_within (s : Text) (value : Json F) (here : loads s = some value) : Within s.length value := by
  unfold loads at here
  split at here
  · cases here
  · split at here
    · rename_i value' rest scanned
      split at here
      · cases here
        have gap := dropWhile_shorter isSpace s
        exact within_more gap value ((scan_within _).1 _ _ scanned).1
      · cases here
    · cases here

end Decoder

end AtrexAgent.Json
