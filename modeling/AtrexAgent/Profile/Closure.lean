import AtrexAgent.Library.Traversal
import AtrexAgent.Profile.CriticalPath

/-! Closure of the critical-path accounting: every component has its occurrence, and union and gap make up the parent. -/

namespace AtrexAgent.Profile

open AtrexAgent.Binary64
open AtrexAgent.Intervals
open MeasureTheory

/-! ### Floats that are whole -/

theorem addFloat_nat {a b : ℕ} (small : a + b < 2 ^ 53) : addFloat a b = (a + b : ℕ) := by
  have sum : (a : ℚ) + b = (a + b : ℕ) := by push_cast; rfl
  rw [addFloat, nearest_natCast (by omega), nearest_natCast (by omega), sum, nearest_natCast small]

theorem subFloat_nat {a b : ℕ} (less : b ≤ a) (small : a < 2 ^ 53) : subFloat a b = (a - b : ℕ) := by
  have difference : (a : ℚ) - b = (a - b : ℕ) := (Nat.cast_sub less).symm
  rw [subFloat, nearest_natCast small, nearest_natCast (by omega), difference, nearest_natCast (by omega)]

def castInterval (interval : ℕ × ℕ) : ℚ × ℚ := (interval.1, interval.2)

/-- The lengths of intervals. -/
def lengths (intervals : List (ℕ × ℕ)) : ℕ := (intervals.map fun interval => interval.2 - interval.1).sum

/-- With ends up to `last` and lengths up to `sum`, the loop rounds nothing. -/
theorem unionLoop_exact {last sum : ℕ} (small : sum + last < 2 ^ 53) {start stop total : ℕ} {rest : List (ℕ × ℕ)}
    (ordered : start ≤ stop) (within : stop ≤ last) (later : ∀ interval ∈ rest, interval.1 ≤ interval.2 ∧ interval.2 ≤ last)
    (room : total + (stop - start) + lengths rest ≤ sum) :
    unionLoop start stop total (rest.map castInterval) = scanUnion start stop total rest := by
  induction rest generalizing start stop total with
  | nil =>
      rw [List.map_nil, unionLoop, scanUnion, addFloat_nat (by omega), subFloat_nat (by omega) (by omega)]
  | cons interval rest ih =>
      obtain ⟨nextStart, nextStop⟩ := interval
      obtain ⟨wide, ends⟩ := later _ List.mem_cons_self
      have rest_later := fun interval member => later interval (List.mem_cons_of_mem (nextStart, nextStop) member)
      simp only [lengths, List.map_cons, List.sum_cons] at room
      rw [List.map_cons, castInterval, unionLoop, scanUnion]
      by_cases touching : nextStart ≤ stop
      · have longer : (max (stop : ℚ) nextStop) = (max stop nextStop : ℕ) := by push_cast; rfl
        rw [if_pos touching, if_pos (by exact_mod_cast touching), longer]
        apply ih (by omega) (by omega) rest_later
        rw [lengths]
        omega
      · rw [if_neg touching, if_neg (by exact_mod_cast touching), subFloat_nat ordered (by omega), addFloat_nat (by omega)]
        apply ih wide ends rest_later
        rw [lengths]
        omega

def lexLeNat (a b : ℕ × ℕ) : Bool := a.1 < b.1 ∨ (a.1 = b.1 ∧ a.2 ≤ b.2)

theorem lexLe_cast (a b : ℕ × ℕ) : lexLeNat a b = lexLe (castInterval a) (castInterval b) := by
  simp [lexLeNat, lexLe, castInterval]

theorem sorted_starts (intervals : List (ℕ × ℕ)) : (intervals.mergeSort lexLeNat).Pairwise fun a b => a.1 ≤ b.1 := by
  have sorted : (intervals.mergeSort lexLeNat).Pairwise fun a b => lexLeNat a b := by
    apply List.pairwise_mergeSort
    · intro a b c first second
      simp only [lexLeNat, decide_eq_true_eq] at first second ⊢
      omega
    · intro a b
      simp only [lexLeNat, Bool.or_eq_true, decide_eq_true_eq]
      omega
  refine sorted.imp fun {a b} le => ?_
  simp only [lexLeNat, decide_eq_true_eq] at le
  omega

/-- The union of whole intervals is the measure of what they cover. -/
theorem intervalUnion_measure (last sum : ℕ) (small : sum + last < 2 ^ 53) {intervals : List (ℕ × ℕ)}
    (ordered : ∀ interval ∈ intervals, interval.1 ≤ interval.2 ∧ interval.2 ≤ last) (room : lengths intervals ≤ sum) :
    ∃ covered : ℕ, intervalUnionNs (intervals.map castInterval) = covered ∧ (covered : ℝ) = volume.real (cover intervals) := by
  have same : (intervals.map castInterval).mergeSort lexLe = (intervals.mergeSort lexLeNat).map castInterval :=
    (List.map_mergeSort fun a _ b _ => lexLe_cast a b).symm
  have perm := List.mergeSort_perm intervals lexLeNat
  have sorted := sorted_starts intervals
  rw [intervalUnionNs, same, ← cover_perm perm]
  have ordered' : ∀ interval ∈ intervals.mergeSort lexLeNat, interval.1 ≤ interval.2 ∧ interval.2 ≤ last :=
    fun interval member => ordered interval (perm.mem_iff.mp member)
  have room' : lengths (intervals.mergeSort lexLeNat) ≤ sum := by
    rw [lengths, (perm.map _).sum_eq]
    exact room
  cases here : intervals.mergeSort lexLeNat with
  | nil => exact ⟨0, by simp, by simp⟩
  | cons interval rest =>
      rw [here] at sorted ordered' room'
      rw [List.pairwise_cons] at sorted
      obtain ⟨wide, ends⟩ := ordered' interval List.mem_cons_self
      simp only [lengths, List.map_cons, List.sum_cons] at room'
      refine ⟨scanUnion interval.1 interval.2 0 rest, ?_, ?_⟩
      · have exact : unionLoop interval.1 interval.2 (0 : ℕ) (rest.map castInterval) = scanUnion interval.1 interval.2 0 rest :=
          unionLoop_exact small wide ends (fun other member => ordered' other (List.mem_cons_of_mem _ member)) (by rw [lengths]; omega)
        exact_mod_cast exact
      · rw [scanUnion_measure 0 wide (fun other member => ⟨sorted.1 other member, (ordered' other (List.mem_cons_of_mem _ member)).1⟩)
          sorted.2, cover_cons]
        simp

/-! ### Occurrences -/

variable {plan : Plan} {events : List Event} {owner k : ℕ} {parents : List Event} {parent event : Event}

/-- A component lies in its occurrence, and its place there is that of the raw times. -/
theorem occurrence?_spec (here : occurrence? parents event = some k) : ∃ parent, parents[k]? = some parent ∧
    parent.rawStart ≤ event.rawStart ∧ event.rawEnd ≤ parent.rawEnd ∧
      (event.relativeStart : ℤ) - parent.relativeStart = event.rawStart - parent.rawStart := by
  unfold occurrence? at here
  split at here
  · cases here
  · rename_i n counted
    obtain ⟨parent, at_n, here⟩ := Option.bind_eq_some_iff.mp here
    split at here
    · rename_i inside
      cases here
      refine ⟨parent, at_n, ?_, inside⟩
      obtain ⟨bound, same⟩ := List.getElem?_eq_some_iff.mp at_n
      have reached : k < (parents.takeWhile fun parent => decide (parent.rawStart ≤ event.rawStart)).length := by
        rw [bisectRight] at counted
        omega
      have held := List.mem_takeWhile_imp (List.getElem_mem reached)
      rw [List.IsPrefix.getElem (List.takeWhile_prefix _), same] at held
      exact of_decide_eq_true held
    · cases here

theorem mem_componentEvents : event ∈ componentEvents plan events owner ↔
    event ∈ events ∧ event.owner = owner ∧ event.siteId ∈ plan.components.map Prod.fst := by
  simp only [componentEvents, List.mem_flatMap, grouped, List.mem_filter, decide_eq_true_eq, List.mem_map]
  constructor
  · intro ⟨component, member, inside, same, site⟩
    exact ⟨inside, same, component, member, site.symm⟩
  · intro ⟨inside, same, component, member, site⟩
    exact ⟨component, member, inside, same, site.symm⟩

/-! ### Room -/

def durations (events : List Event) : ℕ := (events.map Event.duration).sum

theorem durations_filter (p : Event → Bool) (events : List Event) : durations (events.filter p) ≤ durations events :=
  List.Sublist.sum_le_sum ((List.filter_sublist).map _) (by simp)

theorem durations_cons (event : Event) (events : List Event) : durations (event :: events) = event.duration + durations events := by
  rw [durations, List.map_cons, List.sum_cons, durations]

/-- One range is at one of the sites at most. -/
theorem share_once {sites : List ℕ} (distinct : sites.Nodup) (event : Event) (owner : ℕ) :
    (sites.map fun site => if event.owner = owner ∧ event.siteId = site then event.duration else 0).sum ≤ event.duration := by
  induction sites with
  | nil => simp
  | cons site sites ih =>
      rw [List.nodup_cons] at distinct
      rw [List.map_cons, List.sum_cons]
      by_cases here : event.owner = owner ∧ event.siteId = site
      · have others : (sites.map fun site => if event.owner = owner ∧ event.siteId = site then event.duration else 0).sum = 0 := by
          apply List.sum_eq_zero
          intro time member
          obtain ⟨other, inside, rfl⟩ := List.mem_map.mp member
          apply if_neg
          intro there
          exact distinct.1 (here.2 ▸ there.2 ▸ inside)
        rw [if_pos here, others, add_zero]
      · rw [if_neg here, zero_add]
        exact ih distinct.2

/-- Ranges of different sites share the time of all ranges. -/
theorem durations_grouped {sites : List ℕ} (distinct : sites.Nodup) (events : List Event) (owner : ℕ) :
    (sites.map fun site => durations (grouped events owner site)).sum ≤ durations events := by
  induction events with
  | nil => simp [grouped, durations]
  | cons event events ih =>
      have split (site : ℕ) : durations (grouped (event :: events) owner site) =
          (if event.owner = owner ∧ event.siteId = site then event.duration else 0) + durations (grouped events owner site) := by
        unfold grouped
        rw [List.filter_cons]
        by_cases here : event.owner = owner ∧ event.siteId = site
        · rw [if_pos (decide_eq_true here), if_pos here, durations_cons]
        · rw [if_neg (by simpa using here), if_neg here, zero_add]
      simp only [split, List.sum_map_add, durations_cons]
      exact add_le_add (share_once distinct event owner) ih

theorem durations_append (events others : List Event) : durations (events ++ others) = durations events + durations others := by
  rw [durations, List.map_append, List.sum_append, durations, durations]

theorem durations_flatMap {ι : Type} (groups : List ι) (group : ι → List Event) :
    durations (groups.flatMap group) = (groups.map fun i => durations (group i)).sum := by
  induction groups with
  | nil => rfl
  | cons i groups ih =>
      rw [List.flatMap_cons, durations_append, List.map_cons, List.sum_cons, ih]

theorem durations_component {ι : Type} {groups : List ι} {group : ι → List Event} {i : ι} (member : i ∈ groups) :
    durations (group i) ≤ durations (groups.flatMap group) := by
  rw [durations_flatMap]
  exact List.single_le_sum (by simp) _ (List.mem_map_of_mem member)

/-- A parent and the components of its owner share the time of all ranges. -/
theorem durations_owner (plan : Plan) (events : List Event) (owner : ℕ) :
    durations (grouped events owner plan.parent) + durations (componentEvents plan events owner) ≤ durations events := by
  have whole := durations_grouped (List.nodup_cons.mpr ⟨plan.apart, plan.siteIds⟩) events owner
  rw [List.map_cons, List.sum_cons, List.map_map] at whole
  rw [componentEvents, durations_flatMap]
  exact whole

theorem parentsOf_perm (plan : Plan) (events : List Event) (owner : ℕ) :
    (parentsOf plan events owner).Perm (grouped events owner plan.parent) := List.mergeSort_perm _ _

theorem occurrence_room (member : parent ∈ parentsOf plan events owner) :
    parent.duration + durations (componentsOf plan events owner k) ≤ durations events := by
  have one : parent.duration ≤ durations (grouped events owner plan.parent) :=
    List.single_le_sum (by simp) _ (List.mem_map_of_mem ((parentsOf_perm plan events owner).mem_iff.mp member))
  have some_components : durations (componentsOf plan events owner k) ≤ durations (componentEvents plan events owner) :=
    durations_filter _ _
  have whole := durations_owner plan events owner
  omega

/-! ### Tallies -/

theorem foldl_addFloat (total : ℕ) {events : List Event} (small : total + durations events < 2 ^ 53) :
    events.foldl (fun total event => addFloat total event.duration) (total : ℚ) = (total + durations events : ℕ) := by
  induction events generalizing total with
  | nil => simp [durations]
  | cons event events ih =>
      rw [durations_cons] at small ⊢
      rw [List.foldl_cons, addFloat_nat (by omega), ih _ (by omega), add_assoc]

section Tally

variable {α : Type} {zero : α} {add : α → Event → α} {table : List (String × α)} {name : String}

theorem tallyStep_named (plan : Plan) (zero : α) (add : α → Event → α) (table : List (String × α)) {event : Event}
    (here : (event.siteId, name) ∈ plan.components) :
    tallyStep plan zero add table event = Items.set table name (add ((Items.get? table name).getD zero) event) := by
  rw [tallyStep, Items.get?_of_mem plan.siteIds here]
  rfl

/-- More components of the last name. -/
theorem tally_more {group : List Event} (sites : ∀ event ∈ group, (event.siteId, name) ∈ plan.components)
    (absent : Items.get? table name = none) (value : α) :
    group.foldl (tallyStep plan zero add) (table ++ [(name, value)]) = table ++ [(name, group.foldl add value)] := by
  induction group generalizing value with
  | nil => rfl
  | cons event group ih =>
      rw [List.foldl_cons, List.foldl_cons, tallyStep_named plan zero add _ (sites event List.mem_cons_self), Items.set_append absent,
        Items.get?_append, absent, Option.none_or]
      simpa using ih (fun other member => sites other (List.mem_cons_of_mem _ member)) (add value event)

/-- A name that has components. -/
def tallied (zero : α) (add : α → Event → α) (group : ℕ × String → List Event) (component : ℕ × String) : Option (String × α) :=
  if group component = [] then none else some (component.2, (group component).foldl add zero)

theorem tally_group {component : ℕ × String} (member : component ∈ plan.components) {group : ℕ × String → List Event}
    (sites : ∀ event ∈ group component, event.siteId = component.1) (absent : Items.get? table component.2 = none) :
    (group component).foldl (tallyStep plan zero add) table = table ++ (tallied zero add group component).toList := by
  have named : ∀ event ∈ group component, (event.siteId, component.2) ∈ plan.components := by
    intro event inside
    rw [sites event inside]
    exact member
  unfold tallied
  cases here : group component with
  | nil => simp
  | cons event rest =>
      rw [here] at named
      rw [List.foldl_cons, tallyStep_named plan zero add _ (named event List.mem_cons_self), absent, Items.keys_set_absent absent,
        tally_more (fun other inside => named other (List.mem_cons_of_mem _ inside)) absent]
      simp

theorem tallied_name {group : ℕ × String → List Event} {components : List (ℕ × String)} {item : String × α}
    (member : item ∈ components.filterMap (tallied zero add group)) : item.1 ∈ components.map Prod.snd := by
  obtain ⟨component, inside, made⟩ := List.mem_filterMap.mp member
  unfold tallied at made
  split at made
  · cases made
  · cases made
    exact List.mem_map_of_mem inside

/-- Components that come site after site are tallied site by site. -/
theorem tally_flatMap (plan : Plan) (zero : α) (add : α → Event → α) {group : ℕ × String → List Event}
    (sites : ∀ component ∈ plan.components, ∀ event ∈ group component, event.siteId = component.1) :
    tally plan zero add (plan.components.flatMap group) = plan.components.filterMap (tallied zero add group) := by
  have front : ∀ before after, plan.components = before ++ after →
      (before.flatMap group).foldl (tallyStep plan zero add) [] = before.filterMap (tallied zero add group) := by
    intro before
    induction before using List.reverseRecOn with
    | nil =>
        intro after _
        rfl
    | append_singleton before component ih =>
        intro after same
        have member : component ∈ plan.components := by
          rw [same]
          simp
        have fresh : component.2 ∉ before.map Prod.snd := by
          have distinct := plan.names
          rw [same, List.map_append, List.map_append, List.append_assoc, List.nodup_append] at distinct
          intro inside
          exact distinct.2.2 _ inside _ (by simp) rfl
        have absent : Items.get? (before.filterMap (tallied zero add group)) component.2 = none :=
          Items.get?_eq_none.mpr fun item inside at_name => fresh (at_name ▸ tallied_name inside)
        rw [List.flatMap_append, List.foldl_append, ih ([component] ++ after) (by rw [same, List.append_assoc]),
          List.flatMap_singleton, tally_group member (sites component member) absent, List.filterMap_append]
        cases made : tallied zero add group component <;> simp [made]
  exact front plan.components [] (List.append_nil _).symm

end Tally

/-! ### One occurrence -/

/-- The components of one site in an occurrence. -/
def groupOf (plan : Plan) (events : List Event) (owner k : ℕ) (component : ℕ × String) : List Event :=
  (grouped events owner component.1).filter fun event => occurrence? (parentsOf plan events owner) event = some k

theorem componentsOf_groups (plan : Plan) (events : List Event) (owner k : ℕ) :
    componentsOf plan events owner k = plan.components.flatMap (groupOf plan events owner k) := by
  rw [componentsOf, componentEvents, List.filter_flatMap]
  rfl

theorem groupOf_site {component : ℕ × String} (member : event ∈ groupOf plan events owner k component) : event.siteId = component.1 := by
  have inside := List.mem_of_mem_filter member
  simp only [grouped, List.mem_filter, decide_eq_true_eq] at inside
  exact inside.2.2

/-- The interval of a component in ticks since its parent began. -/
def ticks (parent event : Event) : ℕ × ℕ := (event.rawStart - parent.rawStart, event.rawEnd - parent.rawStart)

/-- What a component has in its occurrence. -/
structure Inside (parent event : Event) : Prop where
  start : parent.rawStart ≤ event.rawStart
  stop : event.rawEnd ≤ parent.rawEnd
  relative : (event.relativeStart : ℤ) - parent.relativeStart = event.rawStart - parent.rawStart
  length : event.rawStart + event.duration = event.rawEnd

theorem Inside.relativeInterval (inside : Inside parent event) (small : parent.rawEnd - parent.rawStart < 2 ^ 53) :
    relativeInterval parent event = castInterval (ticks parent event) := by
  have first := inside.start
  have last := inside.stop
  have length := inside.length
  have since : ((event.relativeStart : ℤ) - parent.relativeStart : ℤ) = ((event.rawStart - parent.rawStart : ℕ) : ℤ) := by
    rw [inside.relative]
    omega
  have start : (((event.relativeStart : ℤ) - parent.relativeStart : ℤ) : ℚ) = ((event.rawStart - parent.rawStart : ℕ) : ℚ) := by
    rw [since, Int.cast_natCast]
  have ends : event.rawStart - parent.rawStart + event.duration = event.rawEnd - parent.rawStart := by omega
  unfold Profile.relativeInterval castInterval ticks
  dsimp only
  rw [start, addFloat_nat (by omega), ends]

theorem lengths_ticks {components : List Event} (inside : ∀ event ∈ components, Inside parent event) :
    lengths (components.map (ticks parent)) = durations components := by
  rw [lengths, durations, List.map_map]
  congr 1
  apply List.map_congr_left
  intro event member
  have first := (inside event member).start
  have length := (inside event member).length
  simp only [Function.comp_apply, ticks]
  omega

/-- The union of the components is the measure of what they cover. -/
theorem components_union {components : List Event} (inside : ∀ event ∈ components, Inside parent event)
    (whole : parent.rawStart + parent.duration = parent.rawEnd) (small : parent.duration + durations components < 2 ^ 53) :
    ∃ covered : ℕ, intervalUnionNs (components.map (relativeInterval parent)) = covered ∧
      (covered : ℝ) = volume.real (cover (components.map (ticks parent))) := by
  have casts : components.map (relativeInterval parent) = (components.map (ticks parent)).map castInterval := by
    rw [List.map_map]
    exact List.map_congr_left fun event member => (inside event member).relativeInterval (by omega)
  rw [casts]
  refine intervalUnion_measure parent.duration (durations components) (by omega) ?_ (lengths_ticks inside).le
  intro interval member
  obtain ⟨event, here, rfl⟩ := List.mem_map.mp member
  have first := (inside event here).start
  have last := (inside event here).stop
  have length := (inside event here).length
  simp only [ticks]
  omega

/-- The durations by name, where nothing is rounded. -/
theorem componentDurations_exact {group : ℕ × String → List Event}
    (sites : ∀ component ∈ plan.components, ∀ event ∈ group component, event.siteId = component.1)
    (small : ∀ component ∈ plan.components, durations (group component) < 2 ^ 53) :
    componentDurations plan (plan.components.flatMap group) = plan.components.filterMap fun component =>
      if group component = [] then none else some (component.2, (durations (group component) : ℚ)) := by
  rw [componentDurations, tally_flatMap plan _ _ sites]
  apply List.filterMap_congr
  intro component member
  have exact := foldl_addFloat 0 (by simpa using small component member)
  rw [Nat.cast_zero, zero_add] at exact
  rw [tallied, exact]

theorem componentOccurrences_exact {group : ℕ × String → List Event}
    (sites : ∀ component ∈ plan.components, ∀ event ∈ group component, event.siteId = component.1) :
    componentOccurrences plan (plan.components.flatMap group) = plan.components.filterMap fun component =>
      if group component = [] then none else some (component.2, (group component).length) := by
  rw [componentOccurrences, tally_flatMap plan _ _ sites]
  apply List.filterMap_congr
  intro component _
  rw [tallied]
  have counts (events : List Event) (count : ℕ) : events.foldl (fun count _ => count + 1) count = count + events.length := by
    induction events generalizing count with
    | nil => rfl
    | cons event events ih =>
        rw [List.foldl_cons, ih, List.length_cons]
        omega
  rw [counts, zero_add]

theorem foldl_addFloat_nat (total : ℕ) {values : List ℕ} (small : total + values.sum < 2 ^ 53) :
    (values.map fun (value : ℕ) => (value : ℚ)).foldl addFloat (total : ℚ) = (total + values.sum : ℕ) := by
  induction values generalizing total with
  | nil => simp
  | cons value values ih =>
      rw [List.sum_cons] at small ⊢
      rw [List.map_cons, List.foldl_cons, addFloat_nat (by omega), ih _ (by omega), add_assoc]

/-- The sum over the names is the sum over the components. -/
theorem componentSum_exact {group : ℕ × String → List Event}
    (sites : ∀ component ∈ plan.components, ∀ event ∈ group component, event.siteId = component.1)
    (small : durations (plan.components.flatMap group) < 2 ^ 53) :
    ((componentDurations plan (plan.components.flatMap group)).map Prod.snd).foldl addFloat 0 =
      durations (plan.components.flatMap group) := by
  let value (component : ℕ × String) : Option ℕ := if group component = [] then none else some (durations (group component))
  have values : (componentDurations plan (plan.components.flatMap group)).map Prod.snd =
      (plan.components.filterMap value).map fun (value : ℕ) => (value : ℚ) := by
    rw [componentDurations_exact sites fun component member => (durations_component member).trans_lt small, List.map_filterMap,
      List.map_filterMap]
    apply List.filterMap_congr
    intro component _
    by_cases empty : group component = [] <;> simp [value, empty]
  have whole (components : List (ℕ × String)) : (components.filterMap value).sum = durations (components.flatMap group) := by
    induction components with
    | nil => rfl
    | cons component components ih =>
        rw [List.flatMap_cons, durations_append, ← ih, List.filterMap_cons]
        by_cases empty : group component = [] <;> simp [value, empty, durations]
  have below : 0 + (plan.components.filterMap value).sum < 2 ^ 53 := by
    rw [whole]
    omega
  have exact := foldl_addFloat_nat 0 below
  rw [whole, Nat.cast_zero, zero_add] at exact
  rw [values, exact]

/-- Union and gap make up the parent; the union is what the components cover. -/
theorem instance?_closes {group : ℕ × String → List Event} {made : Instance}
    (here : instance? plan owner k parent (plan.components.flatMap group) = some made)
    (sites : ∀ component ∈ plan.components, ∀ event ∈ group component, event.siteId = component.1)
    (inside : ∀ event ∈ plan.components.flatMap group, Inside parent event) (whole : parent.rawStart + parent.duration = parent.rawEnd)
    (small : parent.duration + durations (plan.components.flatMap group) < 2 ^ 53) :
    made.parentDuration = parent.duration ∧ made.componentSum = durations (plan.components.flatMap group) ∧
    (made.componentUnion : ℝ) = volume.real (cover ((plan.components.flatMap group).map (ticks parent))) ∧
    made.componentUnion ≤ made.parentDuration ∧ made.componentUnion ≤ made.componentSum ∧
    (made.uncoveredGap = if plan.components = [] then none else some (made.parentDuration - made.componentUnion)) := by
  obtain ⟨covered, union, measured⟩ := components_union inside whole small
  have sum := componentSum_exact sites (by omega)
  have parent_whole : nearest (parent.duration : ℚ) = parent.duration := nearest_natCast (by omega)
  have at_most_sum : covered ≤ durations (plan.components.flatMap group) := by
    have most := cover_le_sum ((plan.components.flatMap group).map (ticks parent))
    rw [← measured, ← lengths, lengths_ticks inside] at most
    exact_mod_cast most
  unfold instance? at here
  split at here
  · dsimp only at here
    rw [union, sum, parent_whole] at here
    split at here
    · rename_i within
      cases here
      have at_most : covered ≤ parent.duration := by exact_mod_cast within
      refine ⟨rfl, rfl, ?_, within, ?_, ?_⟩
      · rw [← measured]
        norm_cast
      · exact Nat.cast_le.mpr at_most_sum
      · rw [subFloat_nat at_most (by omega), Nat.cast_sub at_most]
        simp only [List.isEmpty_iff]
    · cases here
  · cases here

/-- Within a site the order of the components does not matter. -/
theorem instance?_perm {group other : ℕ × String → List Event} (perm : ∀ component ∈ plan.components, (group component).Perm (other component))
    (sites : ∀ component ∈ plan.components, ∀ event ∈ group component, event.siteId = component.1)
    (inside : ∀ event ∈ plan.components.flatMap group, Inside parent event) (whole : parent.rawStart + parent.duration = parent.rawEnd)
    (small : parent.duration + durations (plan.components.flatMap group) < 2 ^ 53) :
    instance? plan owner k parent (plan.components.flatMap other) = instance? plan owner k parent (plan.components.flatMap group) := by
  have all : (plan.components.flatMap other).Perm (plan.components.flatMap group) :=
    List.Perm.flatMap_left _ fun component member => (perm component member).symm
  have same_durations : durations (plan.components.flatMap other) = durations (plan.components.flatMap group) := (all.map _).sum_eq
  have sites' : ∀ component ∈ plan.components, ∀ event ∈ other component, event.siteId = component.1 :=
    fun component member event here => sites component member event ((perm component member).mem_iff.mpr here)
  have inside' : ∀ event ∈ plan.components.flatMap other, Inside parent event := fun event member => inside event (all.mem_iff.mp member)
  have each (component) (member : component ∈ plan.components) : durations (group component) < 2 ^ 53 :=
    (durations_component member).trans_lt (by omega)
  have each_same (component) (member : component ∈ plan.components) : durations (other component) = durations (group component) :=
    ((perm component member).symm.map _).sum_eq
  have empty_same (component) (member : component ∈ plan.components) : other component = [] ↔ group component = [] := by
    constructor
    · intro none_there
      exact List.Perm.eq_nil (none_there ▸ perm component member)
    · intro none_here
      exact List.Perm.eq_nil (none_here ▸ (perm component member).symm)
  have table : componentDurations plan (plan.components.flatMap other) = componentDurations plan (plan.components.flatMap group) := by
    rw [componentDurations_exact sites' fun component member => (each_same component member).trans_lt (each component member),
      componentDurations_exact sites each]
    apply List.filterMap_congr
    intro component member
    simp only [empty_same component member, each_same component member]
  have counted : Profile.componentOccurrences plan (plan.components.flatMap other) =
      Profile.componentOccurrences plan (plan.components.flatMap group) := by
    rw [componentOccurrences_exact sites', componentOccurrences_exact sites]
    apply List.filterMap_congr
    intro component member
    simp only [empty_same component member, (perm component member).length_eq]
  have union : intervalUnionNs ((plan.components.flatMap other).map (relativeInterval parent)) =
      intervalUnionNs ((plan.components.flatMap group).map (relativeInterval parent)) := by
    obtain ⟨covered, here, measured⟩ := components_union inside whole small
    obtain ⟨covered', here', measured'⟩ := components_union inside' whole (same_durations ▸ small)
    rw [cover_perm (all.map _), ← measured] at measured'
    have same : covered' = covered := by exact_mod_cast measured'
    rw [here, here', same]
  have checks : (∀ event ∈ plan.components.flatMap other, 0 < event.duration) ↔ ∀ event ∈ plan.components.flatMap group, 0 < event.duration :=
    forall_congr' fun event => by rw [all.mem_iff]
  unfold instance?
  simp only [checks, table, counted, union]

/-! ### One owner -/

/-- Every range is as long as its raw times say. -/
def Consistent (events : List Event) : Prop := ∀ event ∈ events, (event.duration : ℤ) = event.rawEnd - event.rawStart

theorem Consistent.length (consistent : Consistent events) (member : event ∈ events) :
    event.rawStart + event.duration = event.rawEnd := by
  have whole := consistent event member
  omega

theorem mem_parentsOf (member : parent ∈ parentsOf plan events owner) : parent ∈ events :=
  List.mem_of_mem_filter ((parentsOf_perm plan events owner).mem_iff.mp member)

theorem mem_componentsOf : event ∈ componentsOf plan events owner k ↔
    event ∈ componentEvents plan events owner ∧ occurrence? (parentsOf plan events owner) event = some k := by
  rw [componentsOf, List.mem_filter, decide_eq_true_eq]

theorem componentsOf_inside (consistent : Consistent events) (at_k : (parentsOf plan events owner)[k]? = some parent) :
    ∀ event ∈ componentsOf plan events owner k, Inside parent event := by
  intro event member
  obtain ⟨inside, assigned⟩ := mem_componentsOf.mp member
  obtain ⟨other, here, start, stop, relative⟩ := occurrence?_spec assigned
  cases at_k.symm.trans here
  exact ⟨start, stop, relative, consistent.length (mem_componentEvents.mp inside).1⟩

theorem ownerInstances_spec {instances : List Instance} (here : ownerInstances plan events owner = some instances) :
    separate (parentsOf plan events owner) = true ∧
    (∀ event ∈ componentEvents plan events owner, (occurrence? (parentsOf plan events owner) event).isSome = true) ∧
    (parentsOf plan events owner).zipIdx.mapM
      (fun (parent, k) => instance? plan owner k parent (componentsOf plan events owner k)) = some instances := by
  rw [ownerInstances] at here
  dsimp only at here
  split at here
  · rename_i checks
    exact ⟨checks.2.1, checks.2.2, here⟩
  · cases here

theorem mapM_congr {α β : Type} {f g : α → Option β} {items : List α} (same : ∀ item ∈ items, f item = g item) :
    items.mapM f = items.mapM g := by
  induction items with
  | nil => rfl
  | cons item items ih =>
      rw [List.mapM_cons, List.mapM_cons, same item List.mem_cons_self,
        ih fun other member => same other (List.mem_cons_of_mem _ member)]

theorem instance?_positive {components : List Event} {made : Instance} (here : instance? plan owner k parent components = some made) :
    0 < parent.duration := by
  unfold instance? at here
  split at here
  · rename_i checks
    exact checks.1
  · cases here

theorem instance?_place {components : List Event} {made : Instance} (here : instance? plan owner k parent components = some made) :
    made.owner = owner ∧ made.occurrence = k := by
  unfold instance? at here
  split at here
  · dsimp only at here
    split at here
    · cases here
      exact ⟨rfl, rfl⟩
    · cases here
  · cases here

/-- Parents that take time and do not overlap come one after the other. -/
theorem separate_pairwise {parents : List Event} (apart : separate parents = true)
    (positive : ∀ parent ∈ parents, parent.rawStart < parent.rawEnd) :
    parents.Pairwise fun a b => a.rawEnd ≤ b.rawStart := by
  induction parents with
  | nil => exact .nil
  | cons left rest ih =>
      cases rest with
      | nil => simp
      | cons right rest =>
          simp only [separate, Bool.and_eq_true, decide_eq_true_eq] at apart
          have others := ih apart.2 fun parent member => positive parent (List.mem_cons_of_mem _ member)
          refine List.pairwise_cons.mpr ⟨fun other member => ?_, others⟩
          rcases List.mem_cons.mp member with rfl | later
          · exact apart.1
          · have between := positive right (by simp)
            have next := (List.pairwise_cons.mp others).1 other later
            omega

variable {instances : List Instance}

/-- The instances of an owner, one for each parent. -/
theorem ownerInstances_each (here : ownerInstances plan events owner = some instances) :
    List.Forall₂ (fun (place : Event × ℕ) made =>
      instance? plan owner place.2 place.1 (componentsOf plan events owner place.2) = some made)
      (parentsOf plan events owner).zipIdx instances := by
  have collected := (ownerInstances_spec here).2.2
  rw [mapM_some_iff] at collected
  exact collected

theorem parents_positive (here : ownerInstances plan events owner = some instances) (consistent : Consistent events) :
    ∀ parent ∈ parentsOf plan events owner, parent.rawStart < parent.rawEnd := by
  intro parent member
  obtain ⟨k, at_k⟩ := List.mem_iff_getElem?.mp member
  obtain ⟨made, -, accepted⟩ := forall₂_mem_left (ownerInstances_each here) (parent, k) (List.mem_zipIdx_iff_getElem?.mpr at_k)
  have positive : 0 < parent.duration := instance?_positive accepted
  have whole := consistent.length (mem_parentsOf member)
  omega

theorem parents_apart (here : ownerInstances plan events owner = some instances) (consistent : Consistent events) :
    (parentsOf plan events owner).Pairwise fun a b => a.rawEnd ≤ b.rawStart :=
  separate_pairwise (ownerInstances_spec here).1 (parents_positive here consistent)

theorem parentsOf_sorted (plan : Plan) (events : List Event) (owner : ℕ) :
    (parentsOf plan events owner).Pairwise fun a b => a.rawStart ≤ b.rawStart := by
  have sorted : (parentsOf plan events owner).Pairwise fun a b => decide (a.rawStart ≤ b.rawStart) = true := by
    apply List.pairwise_mergeSort
    · intro a b c first second
      simp only [decide_eq_true_eq] at first second ⊢
      omega
    · intro a b
      simp only [Bool.or_eq_true, decide_eq_true_eq]
      omega
  exact sorted.imp of_decide_eq_true

/-- Accepted parents come in one order, however the events are listed. -/
theorem parentsOf_perm_eq {others : List Event} (perm : others.Perm events)
    (here : ownerInstances plan events owner = some instances) (consistent : Consistent events) :
    parentsOf plan others owner = parentsOf plan events owner := by
  have positive := parents_positive here consistent
  have apart := parents_apart here consistent
  have starts : ((parentsOf plan events owner).map Event.rawStart).Nodup := by
    rw [List.Nodup, List.pairwise_map]
    apply apart.imp_of_mem
    intro a b first _ before
    have wide := positive a first
    omega
  have same : (parentsOf plan others owner).Perm (parentsOf plan events owner) :=
    ((parentsOf_perm plan others owner).trans (perm.filter _)).trans (parentsOf_perm plan events owner).symm
  apply List.Perm.eq_of_pairwise _ (parentsOf_sorted plan others owner) (parentsOf_sorted plan events owner) same
  intro a b first second le ge
  exact List.inj_on_of_nodup_map starts (same.mem_iff.mp first) second (by omega)

/-- An owner has one report, however the events are listed. -/
theorem ownerInstances_perm {others : List Event} (perm : others.Perm events)
    (here : ownerInstances plan events owner = some instances) (consistent : Consistent events) (small : durations events < 2 ^ 53) :
    ownerInstances plan others owner = some instances := by
  have parents_same := parentsOf_perm_eq perm here consistent
  have checks : (∀ event ∈ componentEvents plan others owner, (occurrence? (parentsOf plan events owner) event).isSome = true) ↔
      ∀ event ∈ componentEvents plan events owner, (occurrence? (parentsOf plan events owner) event).isSome = true :=
    forall_congr' fun event => by rw [mem_componentEvents, mem_componentEvents, perm.mem_iff]
  have groups_perm (k : ℕ) (component : ℕ × String) :
      (groupOf plan events owner k component).Perm (groupOf plan others owner k component) := by
    rw [groupOf, groupOf, parents_same]
    exact ((perm.symm.filter _).filter _)
  rw [← here, ownerInstances, ownerInstances, parents_same]
  simp only [checks]
  congr 1
  apply mapM_congr
  intro ⟨parent, k⟩ member
  have at_k : (parentsOf plan events owner)[k]? = some parent := List.mem_zipIdx_iff_getElem?.mp member
  have inside := componentsOf_inside consistent at_k
  have whole : parent.rawStart + parent.duration = parent.rawEnd := consistent.length (mem_parentsOf (List.mem_of_getElem? at_k))
  have room := (occurrence_room (k := k) (List.mem_of_getElem? at_k)).trans_lt small
  rw [componentsOf_groups] at inside room
  dsimp only
  rw [componentsOf_groups, componentsOf_groups]
  exact instance?_perm (fun component _ => groups_perm k component) (fun _ _ _ => groupOf_site) inside whole room

/-! ### The capture -/

theorem account_spec {capture : Capture} (accepted : account plan capture = some instances) : Consistent capture.events ∧
    ∃ reports, List.Forall₂ (fun owner report => ownerInstances plan capture.events owner = some report) capture.owners reports ∧
      reports.flatten = instances := by
  rw [account] at accepted
  split at accepted
  · rename_i consistent
    obtain ⟨reports, each, rfl⟩ := Option.map_eq_some_iff.mp accepted
    exact ⟨consistent, reports, (mapM_some_iff _ _ _).mp each, rfl⟩
  · cases accepted

theorem account_perm {capture other : Capture} (accepted : account plan capture = some instances)
    (small : durations capture.events < 2 ^ 53) (owners : other.owners = capture.owners) (perm : other.events.Perm capture.events) :
    account plan other = some instances := by
  obtain ⟨consistent, reports, each, rfl⟩ := account_spec accepted
  have consistent' : ∀ event ∈ other.events, (event.duration : ℤ) = event.rawEnd - event.rawStart :=
    fun event member => consistent event (perm.mem_iff.mp member)
  have each' := each.imp fun owner report here => ownerInstances_perm perm here consistent small
  rw [account, if_pos consistent', owners, (mapM_some_iff _ _ _).mpr each']
  rfl

theorem account_owner {capture : Capture} (accepted : account plan capture = some instances) (listed : owner ∈ capture.owners) :
    ∃ report, ownerInstances plan capture.events owner = some report ∧ report ⊆ instances := by
  obtain ⟨-, reports, each, rfl⟩ := account_spec accepted
  obtain ⟨report, inside, here⟩ := forall₂_mem_left each owner listed
  exact ⟨report, here, fun made member => List.mem_flatten_of_mem inside member⟩

/-- Every parent occurrence of a listed owner has its instance. -/
theorem parent_instance {capture : Capture} (accepted : account plan capture = some instances) (listed : owner ∈ capture.owners)
    (at_k : (parentsOf plan capture.events owner)[k]? = some parent) : ∃ made ∈ instances, made.owner = owner ∧ made.occurrence = k := by
  obtain ⟨report, here, among⟩ := account_owner accepted listed
  obtain ⟨made, inside, made_there⟩ := forall₂_mem_left (ownerInstances_each here) (parent, k) (List.mem_zipIdx_iff_getElem?.mpr at_k)
  exact ⟨made, among inside, instance?_place made_there⟩

/-- A component has one occurrence, and it is the only parent that it lies in. -/
theorem component_occurrence {capture : Capture} (accepted : account plan capture = some instances) (listed : owner ∈ capture.owners)
    (component : event ∈ componentEvents plan capture.events owner) :
    ∃ k parent, (parentsOf plan capture.events owner)[k]? = some parent ∧ parent.rawStart ≤ event.rawStart ∧ event.rawEnd ≤ parent.rawEnd ∧
      ∀ j, event ∈ componentsOf plan capture.events owner j ↔ j = k := by
  obtain ⟨report, here, -⟩ := account_owner accepted listed
  obtain ⟨k, assigned⟩ := Option.isSome_iff_exists.mp ((ownerInstances_spec here).2.1 event component)
  obtain ⟨parent, at_k, start, stop, -⟩ := occurrence?_spec assigned
  refine ⟨k, parent, at_k, start, stop, fun j => ?_⟩
  rw [mem_componentsOf, assigned, Option.some_inj]
  exact ⟨fun both => both.2.symm, fun same => ⟨component, same.symm⟩⟩

/-- The parent occurrence of an instance. -/
theorem instance_parent {capture : Capture} (accepted : account plan capture = some instances) {made : Instance} (member : made ∈ instances) :
    ∃ parent, (parentsOf plan capture.events made.owner)[made.occurrence]? = some parent ∧
      instance? plan made.owner made.occurrence parent (componentsOf plan capture.events made.owner made.occurrence) = some made := by
  obtain ⟨consistent, reports, each, rfl⟩ := account_spec accepted
  obtain ⟨report, inside, member⟩ := List.mem_flatten.mp member
  obtain ⟨owner, -, here⟩ := forall₂_mem_right each report inside
  obtain ⟨⟨parent, k⟩, at_k, made_there⟩ := forall₂_mem_right (ownerInstances_each here) made member
  have place := List.mem_zipIdx_iff_getElem?.mp at_k
  have named := instance?_place made_there
  rw [named.1, named.2]
  exact ⟨parent, place, made_there⟩

/-- Where the ranges take less than `2 ^ 53` ns together, nothing is rounded and the accounting closes. -/
theorem accounting_closes (plan : Plan) (capture : Capture) (instances : List Instance) (accepted : account plan capture = some instances)
    (small : durations capture.events < 2 ^ 53) :
    (∀ owner ∈ capture.owners, ∀ event ∈ componentEvents plan capture.events owner,
      ∃ k parent, (parentsOf plan capture.events owner)[k]? = some parent ∧ parent.rawStart ≤ event.rawStart ∧ event.rawEnd ≤ parent.rawEnd ∧
        ∀ j, event ∈ componentsOf plan capture.events owner j ↔ j = k) ∧
    (∀ owner ∈ capture.owners, ∀ k parent, (parentsOf plan capture.events owner)[k]? = some parent →
      ∃ made ∈ instances, made.owner = owner ∧ made.occurrence = k) ∧
    (∀ made ∈ instances, ∃ parent, (parentsOf plan capture.events made.owner)[made.occurrence]? = some parent ∧
      made.parentDuration = parent.duration ∧
      made.componentSum = durations (componentsOf plan capture.events made.owner made.occurrence) ∧
      (made.componentUnion : ℝ) =
        volume.real (cover ((componentsOf plan capture.events made.owner made.occurrence).map (ticks parent))) ∧
      made.componentUnion ≤ made.parentDuration ∧ made.componentUnion ≤ made.componentSum ∧
      made.uncoveredGap = if plan.components = [] then none else some (made.parentDuration - made.componentUnion)) ∧
    ∀ other : Capture, other.owners = capture.owners → other.events.Perm capture.events → account plan other = some instances := by
  refine ⟨fun owner listed event component => component_occurrence accepted listed component,
    fun owner listed k parent at_k => parent_instance accepted listed at_k, fun made member => ?_,
    fun other owners perm => account_perm accepted small owners perm⟩
  obtain ⟨parent, at_k, made_there⟩ := instance_parent accepted member
  have consistent := (account_spec accepted).1
  have inside := componentsOf_inside consistent at_k
  have whole : parent.rawStart + parent.duration = parent.rawEnd := consistent.length (mem_parentsOf (List.mem_of_getElem? at_k))
  have room := (occurrence_room (k := made.occurrence) (List.mem_of_getElem? at_k)).trans_lt small
  rw [componentsOf_groups] at made_there inside room ⊢
  exact ⟨parent, at_k, instance?_closes made_there (fun _ _ _ => groupOf_site) inside whole room⟩

def tracePlan : Plan := ⟨0, [(1, "load")], by decide, by decide, by decide⟩

/-- A parent range with one component in it. -/
def oneOwner (duration : ℕ) : Capture := ⟨[0], [⟨0, 0, 0, duration, 0, duration⟩, ⟨0, 1, 0, 1, 0, 1⟩], by simp, by simp⟩

theorem accounting_closes_owner : ∃ instances, account tracePlan (oneOwner 3) = some instances ∧
    ∀ made ∈ instances, made.componentUnion ≤ made.parentDuration := by
  have reported : (account tracePlan (oneOwner 3)).isSome = true := by decide +kernel
  obtain ⟨instances, accepted⟩ := Option.isSome_iff_exists.mp reported
  refine ⟨instances, accepted, fun made member => ?_⟩
  obtain ⟨-, -, each, -⟩ := accounting_closes tracePlan (oneOwner 3) instances accepted (by decide)
  obtain ⟨parent, -, -, -, -, at_most, -⟩ := each made member
  exact at_most

/-- A parent of `2 ^ 54` ns with a component of one: the gap is rounded up to the parent. -/
theorem accounting_open : ¬ ∀ (plan : Plan) (capture : Capture) (instances : List Instance), account plan capture = some instances →
    ∀ made ∈ instances, ∀ gap, made.uncoveredGap = some gap → made.parentDuration = made.componentUnion + gap := by
  intro closes
  have report : (account tracePlan (oneOwner (2 ^ 54))).map
      (List.map fun made => (made.parentDuration, made.componentUnion, made.uncoveredGap)) = some [(2 ^ 54, 1, some (2 ^ 54))] := by
    decide +kernel
  obtain ⟨instances, accepted, fields⟩ := Option.map_eq_some_iff.mp report
  obtain ⟨made, rfl, one⟩ := List.map_eq_singleton_iff.mp fields
  simp only [Prod.mk.injEq] at one
  have sum := closes _ _ _ accepted made List.mem_cons_self _ one.2.2
  rw [one.1, one.2.1] at sum
  norm_num at sum

end AtrexAgent.Profile
