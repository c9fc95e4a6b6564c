import AtrexAgent.Library.Brackets
import Mathlib.Data.Int.Notation

/-! The timeline decoder: records of many owners in fixed slots, read from the raw capture and paired to events. -/

namespace AtrexAgent.Timeline

open AtrexAgent.Brackets (stackOf)

/-! ### Header -/

/-- `struct` integers are little-endian. -/
def readLittle (raw : List UInt8) (offset width : ℕ) : ℕ :=
  ((raw.drop offset).take width).foldr (fun byte rest => byte.toNat + 256 * rest) 0

def MAGIC : ℕ := 0x0000314C54555050

def ABI_MAJOR : ℕ := 1

def ABI_MINOR : ℕ := 0

def HEADER_BYTES : ℕ := 64

def RECORD_BYTES : ℕ := 16

def STATUS_NAMES : List (ℕ × String) := [(1, "overflow"), (2, "bad_header"), (4, "bad_owner"), (8, "duplicate_owner")]

structure Header where
  magic : ℕ
  abiMajor : ℕ
  abiMinor : ℕ
  headerBytes : ℕ
  recordBytes : ℕ
  capacity : ℕ
  ownerCount : ℕ
  recordsPerOwner : ℕ
  status : ℕ
  grid : ℕ × ℕ × ℕ
  block : ℕ × ℕ × ℕ
  launchId : ℕ

/-- `<Q4H10IQ` -/
def unpackHeader (raw : List UInt8) : Header where
  magic := readLittle raw 0 8
  abiMajor := readLittle raw 8 2
  abiMinor := readLittle raw 10 2
  headerBytes := readLittle raw 12 2
  recordBytes := readLittle raw 14 2
  capacity := readLittle raw 16 4
  ownerCount := readLittle raw 20 4
  recordsPerOwner := readLittle raw 24 4
  status := readLittle raw 28 4
  grid := (readLittle raw 32 4, readLittle raw 36 4, readLittle raw 40 4)
  block := (readLittle raw 44 4, readLittle raw 48 4, readLittle raw 52 4)
  launchId := readLittle raw 56 8

def require (condition : Prop) [Decidable condition] (message : String) : Except String Unit :=
  if condition then .ok () else .error message

def statusMessage (status : ℕ) : String :=
  let known := (STATUS_NAMES.filter fun bit => status &&& bit.1 ≠ 0).map Prod.snd
  let unknown := status - (status &&& 15)
  "device rejected capture: " ++ String.intercalate ", "
    (if unknown ≠ 0 then known ++ ["unknown_status_0x" ++ String.ofList (Nat.toDigits 16 unknown)] else known)

def expectedBytes (header : Header) : ℕ := header.headerBytes + header.capacity * header.recordBytes + header.ownerCount * 8

def parseHeader (raw : List UInt8) : Except String Header := do
  require (HEADER_BYTES ≤ raw.length) "raw capture is smaller than the 64-byte header"
  let header := unpackHeader raw
  require (header.magic = MAGIC) "raw capture has the wrong PPU timeline magic"
  require (header.abiMajor = ABI_MAJOR) "unsupported PPU timeline ABI major"
  require (header.abiMinor = ABI_MINOR) "unsupported PPU timeline ABI minor"
  require (header.headerBytes = HEADER_BYTES) "header size does not match ABI v1"
  require (header.recordBytes = RECORD_BYTES) "record size does not match ABI v1"
  require (0 < header.ownerCount) "owner_count must be positive"
  require (0 < header.recordsPerOwner) "records_per_owner must be positive"
  require (header.capacity = header.ownerCount * header.recordsPerOwner) "capacity must equal owner_count * records_per_owner"
  require (raw.length = expectedBytes header) s!"raw capture has {raw.length} bytes; expected {expectedBytes header}"
  require (header.status = 0) (statusMessage header.status)
  return header

/-! ### Manifest and dictionary -/

structure OwnerInfo where
  block : ℕ
  thread : ℕ
  label : String
  purpose : String

/-- What the manifest tells of the owners, which are dense and ordered from zero. -/
structure ManifestInfo (header : Header) where
  owners : Fin header.ownerCount → OwnerInfo

inductive SiteKind where
  | range | instant | counter | any
  deriving DecidableEq

structure Site where
  name : String
  kind : SiteKind
  role : String
  owners : Option (List ℕ)
  boundarySemantics : String
  asyncDomain : String
  sourceAnchor : String

/-! ### Records -/

inductive Kind where
  | start | finish | instant | counter
  deriving DecidableEq

/-- `KIND_NAMES` -/
def kindOf : ℕ → Kind
  | 0 => .start
  | 1 => .finish
  | 2 => .instant
  | _ => .counter

def Kind.name : Kind → String
  | .start => "begin"
  | .finish => "end"
  | .instant => "instant"
  | .counter => "counter"

def SiteKind.name : SiteKind → String
  | .range => "range"
  | .instant => "instant"
  | .counter => "counter"
  | .any => "any"

/-- A slot of the capture. -/
structure Slot where
  owner : ℕ
  sequence : ℕ
  timestamp : ℕ
  payload : ℕ
  tag : ℕ

def Slot.committed (slot : Slot) : Bool := slot.tag.testBit 31

def Slot.siteId (slot : Slot) : ℕ := slot.tag &&& 0xFFFF

def Slot.kind (slot : Slot) : Kind := kindOf ((slot.tag >>> 16) &&& 3)

def Slot.flags (slot : Slot) : ℕ := (slot.tag >>> 18) &&& 0x1FFF

def slotNumber (header : Header) (owner sequence : ℕ) : ℕ := owner * header.recordsPerOwner + sequence

/-- `<QII` -/
def readSlot (raw : List UInt8) (header : Header) (owner sequence : ℕ) : Slot :=
  let offset := header.headerBytes + slotNumber header owner sequence * header.recordBytes
  ⟨owner, sequence, readLittle raw offset 8, readLittle raw (offset + 8) 4, readLittle raw (offset + 12) 4⟩

structure Record where
  owner : ℕ
  ownerInfo : OwnerInfo
  blockXyz : ℕ × ℕ × ℕ
  sequence : ℕ
  rawTimestamp : ℕ
  payload : ℕ
  flags : ℕ
  siteId : ℕ
  site : Site
  kind : Kind

def blockXyz (block : ℕ) (grid : ℕ × ℕ × ℕ) : ℕ × ℕ × ℕ :=
  (block % grid.1, block / grid.1 % grid.2.1, block / (grid.1 * grid.2.1))

def recordOf (header : Header) (ownerInfo : OwnerInfo) (site : Site) (slot : Slot) : Record where
  owner := slot.owner
  ownerInfo := ownerInfo
  blockXyz := blockXyz ownerInfo.block header.grid
  sequence := slot.sequence
  rawTimestamp := slot.timestamp
  payload := slot.payload
  flags := slot.flags
  siteId := slot.siteId
  site := site
  kind := slot.kind

structure Scan where
  errors : List String
  records : List Record
  sawHole : Bool
  previous : ℤ

/-- An error where a condition holds. -/
def complain (condition : Prop) [Decidable condition] (message : String) : List String := if condition then [message] else []

def kindErrors (site : Site) (slot : Slot) (number : ℕ) : List String :=
  if site.kind = .range ∧ slot.kind ≠ .start ∧ slot.kind ≠ .finish then
    [s!"slot {number} kind {slot.kind.name} does not match range site"]
  else if site.kind ≠ .any ∧ site.kind ≠ .range ∧ site.kind.name ≠ slot.kind.name then
    [s!"slot {number} kind {slot.kind.name} does not match {site.kind.name}"]
  else []

/-- The body of the loop over the slots of an owner. -/
def scanSlot (header : Header) (ownerInfo : OwnerInfo) (sites : List (ℕ × Site)) (scan : Scan) (slot : Slot) : Scan :=
  let number := slotNumber header slot.owner slot.sequence
  if slot.committed then
    let errors := scan.errors ++ complain scan.sawHole s!"owner {slot.owner} has a committed record after a hole"
    match Items.get? sites slot.siteId with
    | none => { scan with errors := errors ++ [s!"slot {number} references unknown site {slot.siteId}"] }
    | some site => {
        errors := errors ++ kindErrors site slot number ++
          complain (∃ allowed ∈ site.owners, slot.owner ∉ allowed) s!"site {slot.siteId} excludes emitting owner {slot.owner}" ++
          complain (slot.timestamp = 0) s!"slot {number} has a zero timestamp" ++
          complain (slot.timestamp < scan.previous) s!"owner {slot.owner} timestamps decrease at sequence {slot.sequence}"
        records := scan.records ++ [recordOf header ownerInfo site slot]
        sawHole := scan.sawHole
        previous := slot.timestamp }
  else { scan with
    errors := scan.errors ++
      complain (slot.timestamp ≠ 0 ∨ slot.payload ≠ 0 ∨ slot.tag ≠ 0) s!"slot {number} is nonzero without commit"
    sawHole := true }

/-- What is wrong with the writer claim of an owner. -/
def claimErrors (raw : List UInt8) (header : Header) (owner : ℕ) (ownerInfo : OwnerInfo) : List String :=
  let claim := readLittle raw (header.headerBytes + header.capacity * header.recordBytes + owner * 8) 8
  let claimedBlock : ℤ := ((claim >>> 32) &&& 0xFFFFFFFF : ℕ) - 1
  let claimedThread : ℤ := (claim &&& 0xFFFFFFFF : ℕ) - 1
  if claim = 0 then [s!"owner {owner} has no writer claim"]
  else
    complain (claimedBlock ≠ ownerInfo.block) s!"owner {owner} claims block {claimedBlock}; expected {ownerInfo.block}" ++
      complain (claimedThread ≠ ownerInfo.thread) s!"owner {owner} claims thread {claimedThread}; expected {ownerInfo.thread}"

def ownerSlots (raw : List UInt8) (header : Header) (owner : ℕ) : List Slot :=
  (List.range header.recordsPerOwner).map (readSlot raw header owner)

def scanOwner (raw : List UInt8) (header : Header) (info : ManifestInfo header) (sites : List (ℕ × Site)) (scan : Scan)
    (owner : Fin header.ownerCount) : Scan :=
  (ownerSlots raw header owner).foldl (scanSlot header (info.owners owner) sites)
    ⟨scan.errors ++ claimErrors raw header owner (info.owners owner), scan.records, false, -1⟩

def decodeRecords (raw : List UInt8) (header : Header) (info : ManifestInfo header) (sites : List (ℕ × Site)) :
    Except String (List Record) :=
  let scan := (List.finRange header.ownerCount).foldl (scanOwner raw header info sites) ⟨[], [], false, -1⟩
  if scan.errors = [] then .ok scan.records else .error (String.intercalate "; " scan.errors)

/-! ### Events -/

/-- Where an event comes from. -/
structure Place where
  name : String
  role : String
  owner : ℕ
  ownerInfo : OwnerInfo
  blockXyz : ℕ × ℕ × ℕ
  siteId : ℕ
  boundarySemantics : String
  asyncDomain : String
  sourceAnchor : String

def Record.place (record : Record) : Place where
  name := record.site.name
  role := record.site.role
  owner := record.owner
  ownerInfo := record.ownerInfo
  blockXyz := record.blockXyz
  siteId := record.siteId
  boundarySemantics := record.site.boundarySemantics
  asyncDomain := record.site.asyncDomain
  sourceAnchor := record.site.sourceAnchor

inductive Event where
  | range (place : Place) (beginSequence endSequence rawStart rawEnd : ℕ) (durationNs : ℤ) (beginPayload endPayload : ℕ)
  | point (type : Kind) (place : Place) (sequence rawTimestamp payload : ℕ)

def Event.place : Event → Place
  | .range place .. => place
  | .point _ place .. => place

/-- `event.get("raw_start", event.get("raw_timestamp"))` -/
def Event.rawStart : Event → ℕ
  | .range _ _ _ rawStart .. => rawStart
  | .point _ _ _ rawTimestamp _ => rawTimestamp

def rangeEvent (begun record : Record) : Event :=
  .range record.place begun.sequence record.sequence begun.rawTimestamp record.rawTimestamp
    (record.rawTimestamp - begun.rawTimestamp) begun.payload record.payload

def pointEvent (record : Record) : Event := .point record.kind record.place record.sequence record.rawTimestamp record.payload

/-- `stacks` is a `defaultdict(list)`; the top of a stack comes first here. -/
structure Pairing where
  stackTable : List ((ℕ × ℕ) × List Record)
  events : List Event
  errors : List String

def Record.key (record : Record) : ℕ × ℕ := (record.owner, record.siteId)

/-- The body of the loop over the records. -/
def pairRecord (pairing : Pairing) (record : Record) : Pairing :=
  match record.kind with
  | .start => { pairing with stackTable := Items.set pairing.stackTable record.key (record :: stackOf pairing.stackTable record.key) }
  | .finish =>
      match stackOf pairing.stackTable record.key with
      | [] => { pairing with
          stackTable := Items.set pairing.stackTable record.key []
          errors := pairing.errors ++ [s!"owner {record.owner} site {record.siteId} has unmatched end"] }
      | begun :: rest => { pairing with
          stackTable := Items.set pairing.stackTable record.key rest
          events := pairing.events ++ [rangeEvent begun record] }
  | .instant => { pairing with events := pairing.events ++ [pointEvent record] }
  | .counter => { pairing with events := pairing.events ++ [pointEvent record] }

/-- `first_records[owner]` is the record of an owner with the lowest sequence. -/
def firstRecord (first : List (ℕ × Record)) (record : Record) : List (ℕ × Record) :=
  match Items.get? first record.owner with
  | some earlier => if record.sequence < earlier.sequence then Items.set first record.owner record else first
  | none => Items.set first record.owner record

structure Placed where
  event : Event
  ownerRelativeStartNs : ℤ

/-- `(owner, owner_relative_start_ns, site_id)` in their order. -/
def Placed.before (a b : Placed) : Bool :=
  let ownerA := a.event.place.owner
  let ownerB := b.event.place.owner
  ownerA < ownerB ∨ ownerA = ownerB ∧ (a.ownerRelativeStartNs < b.ownerRelativeStartNs ∨
    a.ownerRelativeStartNs = b.ownerRelativeStartNs ∧ a.event.place.siteId ≤ b.event.place.siteId)

def canonicalize (records : List Record) (ownerCount : ℕ) : Except String (List Placed × List (ℕ × ℕ)) :=
  let pairing := records.foldl pairRecord ⟨[], [], []⟩
  let pendingErrors := pairing.stackTable.flatMap fun ((owner, siteId), open_) =>
    complain (open_ ≠ []) s!"owner {owner} site {siteId} has {open_.length} unmatched begin record(s)"
  let origins := (records.foldl firstRecord []).map fun first => (first.1, first.2.rawTimestamp)
  let missing := (List.range ownerCount).flatMap fun owner =>
    complain (Items.get? origins owner = none) s!"owner {owner} emitted no records"
  let errors := pairing.errors ++ pendingErrors ++ missing
  let placed := pairing.events.map fun event => ⟨event, event.rawStart - ((Items.get? origins event.place.owner).getD 0 : ℕ)⟩
  if errors = [] then .ok (placed.mergeSort Placed.before, origins) else .error (String.intercalate "; " errors)

/-- The decoder, with the readers of the manifest and of the event dictionary. -/
def decode (raw : List UInt8) (validateManifest : (header : Header) → Except String (ManifestInfo header))
    (loadSites : {header : Header} → ManifestInfo header → Except String (List (ℕ × Site))) : Except String (List Placed) := do
  let header ← parseHeader raw
  let info ← validateManifest header
  let sites ← loadSites info
  let records ← decodeRecords raw header info sites
  let (events, _) ← canonicalize records header.ownerCount
  return events

end AtrexAgent.Timeline
