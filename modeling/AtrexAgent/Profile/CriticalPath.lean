import AtrexAgent.Library.Binary64
import AtrexAgent.Library.Intervals
import AtrexAgent.Library.Items

/-! Critical-path accounting of a canonical capture: components are assigned to occurrences of their parent, and what they
cover of it is measured in floats. -/

namespace AtrexAgent.Profile

open AtrexAgent.Binary64
open AtrexAgent.Intervals

/-- A range event of a capture. -/
structure Event where
  owner : ℕ
  siteId : ℕ
  rawStart : ℕ
  rawEnd : ℕ
  relativeStart : ℕ
  duration : ℕ
  deriving DecidableEq

/-- The parent site and the component sites with their names, as `_plan` accepts them. -/
structure Plan where
  parent : ℕ
  components : List (ℕ × String)
  siteIds : (components.map Prod.fst).Nodup
  names : (components.map Prod.snd).Nodup
  apart : parent ∉ components.map Prod.fst

/-- A capture as the decoder writes it: every range is of a listed owner. -/
structure Capture where
  owners : List ℕ
  events : List Event
  distinct : owners.Nodup
  listed : ∀ event ∈ events, event.owner ∈ owners

/-- `events_by_owner_site[(owner, site_id)]` -/
def grouped (events : List Event) (owner siteId : ℕ) : List Event :=
  events.filter fun event => event.owner = owner ∧ event.siteId = siteId

def parentsOf (plan : Plan) (events : List Event) (owner : ℕ) : List Event :=
  (grouped events owner plan.parent).mergeSort fun a b => a.rawStart ≤ b.rawStart

/-- No two consecutive parents overlap. -/
def separate : List Event → Bool
  | left :: right :: rest => decide (left.rawEnd ≤ right.rawStart) && separate (right :: rest)
  | _ => true

/-- `bisect_right(parent_starts, value)`, where the starts are sorted. -/
def bisectRight (parents : List Event) (value : ℕ) : ℕ := (parents.takeWhile fun parent => parent.rawStart ≤ value).length

/-- The occurrence that a component lies in. -/
def occurrence? (parents : List Event) (event : Event) : Option ℕ :=
  match bisectRight parents event.rawStart with
  | 0 => none
  | k + 1 => parents[k]?.bind fun parent =>
      if event.rawEnd ≤ parent.rawEnd ∧
          (event.relativeStart : ℤ) - parent.relativeStart = event.rawStart - parent.rawStart then some k else none

/-- The component ranges of an owner, site after site. -/
def componentEvents (plan : Plan) (events : List Event) (owner : ℕ) : List Event :=
  plan.components.flatMap fun component => grouped events owner component.1

def componentsOf (plan : Plan) (events : List Event) (owner k : ℕ) : List Event :=
  (componentEvents plan events owner).filter fun event => occurrence? (parentsOf plan events owner) event = some k

/-! ### Floats -/

/-- `float + float` -/
def addFloat (a b : ℚ) : ℚ := nearest (nearest a + nearest b)

def subFloat (a b : ℚ) : ℚ := nearest (nearest a - nearest b)

def lexLe (a b : ℚ × ℚ) : Bool := a.1 < b.1 ∨ (a.1 = b.1 ∧ a.2 ≤ b.2)

/-- The loop of `_interval_union_ns`. -/
def unionLoop (start stop total : ℚ) : List (ℚ × ℚ) → ℚ
  | [] => subFloat (addFloat total stop) start
  | (nextStart, nextStop) :: rest =>
      if nextStart ≤ stop then unionLoop start (max stop nextStop) total rest
      else unionLoop nextStart nextStop (addFloat total (subFloat stop start)) rest

def intervalUnionNs (intervals : List (ℚ × ℚ)) : ℚ :=
  match intervals.mergeSort lexLe with
  | [] => 0
  | (start, stop) :: rest => unionLoop start stop 0 rest

/-- `table[name] += value` for a component. -/
def tallyStep {α : Type} (plan : Plan) (zero : α) (add : α → Event → α) (table : List (String × α)) (event : Event) : List (String × α) :=
  let name := (Items.get? plan.components event.siteId).getD ""
  Items.set table name (add ((Items.get? table name).getD zero) event)

/-- The components of an occurrence by name, in the order in which a name comes first. -/
def tally {α : Type} (plan : Plan) (zero : α) (add : α → Event → α) (events : List Event) : List (String × α) :=
  events.foldl (tallyStep plan zero add) []

def componentDurations (plan : Plan) (events : List Event) : List (String × ℚ) :=
  tally plan 0 (fun total event => addFloat total event.duration) events

def componentOccurrences (plan : Plan) (events : List Event) : List (String × ℕ) :=
  tally plan 0 (fun count _ => count + 1) events

/-- The interval of a component, relative to its parent. -/
def relativeInterval (parent event : Event) : ℚ × ℚ :=
  let relativeStart : ℤ := event.relativeStart - parent.relativeStart
  (relativeStart, addFloat relativeStart event.duration)

/-! ### Instances -/

structure Instance where
  owner : ℕ
  occurrence : ℕ
  parentDuration : ℚ
  componentDuration : List (String × ℚ)
  componentOccurrences : List (String × ℕ)
  componentSum : ℚ
  componentUnion : ℚ
  componentOverlap : ℚ
  uncoveredGap : Option ℚ
  unionFraction : Option ℚ

/-- One occurrence of the parent, or nothing where a check fails. -/
def instance? (plan : Plan) (owner k : ℕ) (parent : Event) (components : List Event) : Option Instance :=
  if 0 < parent.duration ∧ ∀ event ∈ components, 0 < event.duration then
    let parentDuration := nearest parent.duration
    let durations := componentDurations plan components
    let componentSum := (durations.map Prod.snd).foldl addFloat 0
    let componentUnion := intervalUnionNs (components.map (relativeInterval parent))
    if componentUnion ≤ parentDuration then
      some {
        owner
        occurrence := k
        parentDuration
        componentDuration := durations
        componentOccurrences := Profile.componentOccurrences plan components
        componentSum
        componentUnion
        componentOverlap := max 0 (subFloat componentSum componentUnion)
        uncoveredGap := if plan.components.isEmpty then none else some (subFloat parentDuration componentUnion)
        unionFraction := if plan.components.isEmpty then none else some (nearest (componentUnion / parentDuration)) }
    else none
  else none

def ownerInstances (plan : Plan) (events : List Event) (owner : ℕ) : Option (List Instance) :=
  let parents := parentsOf plan events owner
  if parents ≠ [] ∧ separate parents = true ∧
      ∀ event ∈ componentEvents plan events owner, (occurrence? parents event).isSome = true then
    parents.zipIdx.mapM fun (parent, k) => instance? plan owner k parent (componentsOf plan events owner k)
  else none

/-- The instances of a capture, owner after owner, or nothing where it is rejected. -/
def account (plan : Plan) (capture : Capture) : Option (List Instance) :=
  if ∀ event ∈ capture.events, (event.duration : ℤ) = event.rawEnd - event.rawStart then
    (capture.owners.mapM (ownerInstances plan capture.events)).map List.flatten
  else none

end AtrexAgent.Profile
