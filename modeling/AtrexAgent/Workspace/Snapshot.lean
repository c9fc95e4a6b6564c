import AtrexAgent.Library.Traversal
import AtrexAgent.Workspace.Contract

/-! The snapshot codec: one text for a contract and the files it admits, or the bytes of the one
file of a candidate without a contract. -/

namespace AtrexAgent.Sources

open AtrexAgent.Json

variable {F : Type} [FloatText F]

def MAGIC : String := "ATREX-SOURCE-TREE-v1\n"

/-- `source.startswith(MAGIC)`, with what follows. -/
def afterMagic (source : Bytes) : Option Bytes :=
  if (encode MAGIC).isPrefixOf source then some (source.drop (encode MAGIC).length) else none

def decodeFiles : Files → Except Error (Dict F)
  | [] => .ok []
  | (name, data) :: rest =>
      match decode data with
      | none => .error .unicode
      | some text => do
          let rest ← decodeFiles rest
          pure ((name, .str text) :: rest)

/-- `json.dumps(value, sort_keys=True, ensure_ascii=False, separators=(',', ':')).encode()` -/
def dumpBytes (value : Json F) : Bytes := encode (String.ofList (dumpsWith [] (sortKeys value)))

/-- The tree form of a snapshot. -/
def treeBytes (policy : Json F) (files : Dict F) : Bytes :=
  encode MAGIC ++ dumpBytes (.obj [("contract", policy), ("files", .obj files)])

def pack (platform : Platform F) (files : Files) (policy : Json F) : Except Error Bytes := do
  validateFiles platform files policy
  match policy with
  | .null =>
      match files with
      | [] => .error .index
      | (_, data) :: _ => .ok data
  | policy => do
      let texts ← decodeFiles files
      pure (treeBytes policy texts)

def encodeFiles : Dict F → Except Error Files
  | [] => .ok []
  | (name, .str text) :: rest => do
      let rest ← encodeFiles rest
      pure ((name, encode text) :: rest)
  | _ => .error .type

def item (value : Dict F) (key : String) : Except Error (Json F) :=
  match find? value key with
  | some item => .ok item
  | none => .error (.key key)

def unpack (platform : Platform F) (source : Bytes) : Except Error (Json F × Files) :=
  match afterMagic source with
  | none => .ok (.null, [("kernel.py", source)])
  | some body =>
      if source.length > MAX_SNAPSHOT then .error (.value "Source snapshot exceeds the bounded limit")
      -- an encoding that is not UTF-8 is not canonical, whatever it stands for
      else match loadBytes (fun _ => none) body with
      | none => .error .json
      | some value => do
          let value ← asDict value
          let texts ← item value "files" >>= asDict
          let files ← encodeFiles texts
          let policy ← item value "contract"
          validateFiles platform files policy
          let packed ← pack platform files policy
          if packed ≠ source then .error (.value "Source snapshot is not canonical")
          else pure (policy, files)

/-- What is packed: a policy and files, each dict with its items in the order of their keys. -/
structure Content (F : Type) where
  policy : Json F
  files : Files
  canonical : Canonical policy
  sorted : (files.map Prod.fst).Pairwise (· < ·)

/-! ### Reading back -/

theorem afterMagic_some {source body : Bytes} : afterMagic source = some body ↔ source = encode MAGIC ++ body := by
  unfold afterMagic
  constructor
  · intro found
    split at found
    · rename_i start
      cases found
      exact (List.prefix_iff_eq_append.mp (List.isPrefixOf_iff_prefix.mp start)).symm
    · cases found
  · rintro rfl
    rw [if_pos (List.isPrefixOf_iff_prefix.mpr (List.prefix_append _ _)), List.drop_left]

theorem decodeFiles_keys {files : Files} {texts : Dict F} (decoded : decodeFiles files = .ok texts) :
    texts.map Prod.fst = files.map Prod.fst := by
  induction files generalizing texts with
  | nil =>
      cases decoded
      rfl
  | cons file rest ih =>
      rw [decodeFiles] at decoded
      split at decoded
      · cases decoded
      · cases later : (decodeFiles rest : Except Error (Dict F)) with
        | error error =>
            rw [later] at decoded
            cases decoded
        | ok texts' =>
            rw [later] at decoded
            cases decoded
            rw [List.map_cons, List.map_cons, ih later]

theorem decodeFiles_encode {files : Files} {texts : Dict F} (decoded : decodeFiles files = .ok texts) :
    encodeFiles texts = .ok files ∧ CanonicalMembers texts := by
  induction files generalizing texts with
  | nil =>
      cases decoded
      exact ⟨rfl, trivial⟩
  | cons file rest ih =>
      rw [decodeFiles] at decoded
      split at decoded
      · cases decoded
      · rename_i text read
        cases later : (decodeFiles rest : Except Error (Dict F)) with
        | error error =>
            rw [later] at decoded
            cases decoded
        | ok texts' =>
            rw [later] at decoded
            cases decoded
            obtain ⟨back, canonical⟩ := ih later
            refine ⟨?_, trivial, canonical⟩
            rw [encodeFiles, back, encode_decode read]
            rfl

theorem pack_null {platform : Platform F} {files : Files} {source : Bytes} :
    pack platform files (.null : Json F) = .ok source ↔ files = [("kernel.py", source)] := by
  unfold pack
  rw [bind_ok_iff]
  constructor
  · rintro ⟨_, valid, packed⟩
    have only : files.map Prod.fst = ["kernel.py"] := of_decide_eq_true (need_ok.mp valid)
    match files with
    | [] => cases packed
    | [(name, data)] =>
        cases packed
        rw [List.map_singleton, List.singleton_inj] at only
        rw [show name = "kernel.py" from only]
    | _ :: _ :: _ => cases (List.cons.inj only).2
  · rintro rfl
    exact ⟨(), rfl, rfl⟩

theorem pack_tree {platform : Platform F} {files : Files} {policy : Json F} {source : Bytes}
    (tree : policy ≠ .null) : pack platform files policy = .ok source ↔
      validateFiles platform files policy = .ok () ∧
        ∃ texts, decodeFiles files = .ok texts ∧ source = treeBytes policy texts := by
  unfold pack
  rw [bind_ok_iff]
  constructor
  · rintro ⟨⟨⟩, valid, packed⟩
    refine ⟨valid, ?_⟩
    split at packed
    · exact absurd rfl tree
    · obtain ⟨texts, decoded, packed⟩ := (bind_ok_iff _ _ _).mp packed
      cases packed
      exact ⟨texts, decoded, rfl⟩
  · rintro ⟨valid, texts, decoded, rfl⟩
    refine ⟨(), valid, ?_⟩
    split
    · exact absurd rfl tree
    · exact (bind_ok_iff _ _ _).mpr ⟨texts, decoded, rfl⟩

/-- The decoder reads the bytes of an object as UTF-8. -/
theorem detectsUtf8_object (rest : Text) : detectsUtf8 (encode (String.ofList ('\x7b' :: '"' :: rest))) = true := by
  have split : String.ofList ('\x7b' :: '"' :: rest) = String.ofList ['\x7b', '"'] ++ String.ofList rest := by
    rw [← String.ofList_append]
    rfl
  have start : encode (String.ofList ['\x7b', '"']) = [0x7b, 0x22] := by decide
  rw [split, encode_append, start]
  rcases encode (String.ofList rest) with _ | ⟨a, _ | ⟨b, rest⟩⟩ <;> rfl

theorem loadBytes_dump (other : Bytes → Option (Json F)) {first : String × Json F} {items : Dict F}
    (canonical : Canonical (.obj (first :: items))) :
    loadBytes other (dumpBytes (.obj (first :: items))) = some (.obj (first :: items)) := by
  have ordered := sortKeys_canonical _ canonical
  have read := @loads_dumpsWith F _ [] (fun _ member => absurd member List.not_mem_nil) _
    (canonical_distinct _ canonical)
  unfold loadBytes dumpBytes
  rw [ordered, decode_encode]
  have object : ∃ rest, dumpsWith [] (.obj (first :: items)) = '\x7b' :: '"' :: rest := by
    obtain ⟨key, value⟩ := first
    rw [dumpsWith, dumpsMembersWith, quoted]
    exact ⟨_, rfl⟩
  obtain ⟨rest, object⟩ := object
  rw [object, detectsUtf8_object, if_pos rfl, ← object]
  simp only [String.toList_ofList, read, Option.map_some, ordered]

theorem unpack_legacy {platform : Platform F} {source : Bytes} (plain : afterMagic source = none) :
    unpack platform source = .ok ((.null : Json F), [("kernel.py", source)]) := by
  unfold unpack
  rw [plain]

theorem whole_canonical {policy : Json F} {files : Files} {texts : Dict F} (canonical : Canonical policy)
    (sorted : (files.map Prod.fst).Pairwise (· < ·)) (decoded : decodeFiles files = .ok texts) :
    Canonical (.obj [("contract", policy), ("files", .obj texts)] : Json F) := by
  refine ⟨?_, canonical, ⟨?_, (decodeFiles_encode decoded).2⟩, trivial⟩
  · simp only [List.map_cons, List.map_nil]
    decide
  · rw [decodeFiles_keys decoded]
    exact sorted

theorem unpack_tree {platform : Platform F} {files : Files} {policy : Json F} {texts : Dict F}
    (tree : policy ≠ .null) (canonical : Canonical policy) (sorted : (files.map Prod.fst).Pairwise (· < ·))
    (valid : validateFiles platform files policy = .ok ()) (decoded : decodeFiles files = .ok texts)
    (fits : (treeBytes policy texts).length ≤ MAX_SNAPSHOT) :
    unpack platform (treeBytes policy texts) = .ok (policy, files) := by
  obtain ⟨back, -⟩ := decodeFiles_encode decoded
  have whole := whole_canonical canonical sorted decoded
  have packed := (pack_tree tree).mpr ⟨valid, texts, decoded, rfl⟩
  have body : afterMagic (treeBytes policy texts) =
      some (dumpBytes (.obj [("contract", policy), ("files", .obj texts)])) := afterMagic_some.mpr rfl
  unfold unpack
  rw [body]
  dsimp only
  rw [if_neg (by omega), loadBytes_dump _ whole]
  simp [asDict, item, find?, back, valid, packed, bind, Except.bind, pure, Except.pure]

/-- No text is a string of a value that is read from the end of that text. -/
theorem loads_shorter {body : Bytes} {items texts : Dict F} {text : String}
    (read : loadBytes (fun _ => none) body = some (.obj items)) (files : find? items "files" = some (.obj texts))
    (file : find? texts "kernel.py" = some (.str text)) : encode text ≠ encode MAGIC ++ body := by
  unfold loadBytes at read
  split at read
  · cases decoded : decode body with
    | none =>
        rw [decoded] at read
        cases read
    | some string =>
        rw [decoded] at read
        obtain ⟨value, loaded, ordered⟩ := Option.map_eq_some_iff.mp read
        have within := within_sortKeys _ _ (loads_within _ _ loaded)
        rw [ordered] at within
        have short : text.toList.length ≤ string.toList.length := within_get (within_get within files) file
        intro same
        rw [← encode_decode decoded, ← encode_append] at same
        have longer := congrArg (fun string : String => string.toList.length) (encode_inj same)
        simp only [String.toList_append, List.length_append] at longer
        have magic : MAGIC.toList.length = 21 := by decide
        omega
  · cases read

/-- What is accepted is what it is packed to. -/
theorem pack_unpack {platform : Platform F} {source : Bytes} {policy : Json F} {files : Files}
    (accepted : unpack platform source = .ok (policy, files)) : pack platform files policy = .ok source := by
  unfold unpack at accepted
  split at accepted
  · cases accepted
    exact pack_null.mpr rfl
  · split at accepted
    · cases accepted
    · split at accepted
      · cases accepted
      · obtain ⟨value, -, accepted⟩ := (bind_ok_iff _ _ _).mp accepted
        obtain ⟨texts, -, accepted⟩ := (bind_ok_iff _ _ _).mp accepted
        obtain ⟨files', -, accepted⟩ := (bind_ok_iff _ _ _).mp accepted
        obtain ⟨policy', -, accepted⟩ := (bind_ok_iff _ _ _).mp accepted
        obtain ⟨_, -, accepted⟩ := (bind_ok_iff _ _ _).mp accepted
        obtain ⟨packed, here, accepted⟩ := (bind_ok_iff _ _ _).mp accepted
        split at accepted
        · cases accepted
        · rename_i same
          cases accepted
          rw [here, not_not.mp same]

/-! ### How long the tree form is -/

/-- How many bytes a byte of a text takes inside a string. -/
def escapedByte (b : UInt8) : Nat :=
  if [0x22, 0x5c, 0x0a, 0x0d, 0x09, 0x08, 0x0c].contains b then 2 else if b < 0x20 then 6 else 1

def stringSize (data : Bytes) : Nat := 2 + (data.map escapedByte).sum

/-- The size of the files as members of a dict: a name, a colon, a text, and a comma between two. -/
def membersSize : Files → Nat
  | [] => 0
  | (name, data) :: rest => stringSize (encode name) + 1 + stringSize data +
      (if rest.isEmpty then 0 else 1) + membersSize rest

/-- The size of a snapshot that is a tree, of its policy's own JSON text and its files. -/
def treeSize (policy : Json F) (files : Files) : Nat :=
  (encode MAGIC).length + 12 + (dumpBytes policy).length + 10 + membersSize files + 2

theorem encode_cons (c : Char) (text : Text) :
    encode (String.ofList (c :: text)) = String.utf8EncodeChar c ++ encode (String.ofList text) := by
  unfold encode
  rw [String.toByteArray_ofList, String.toByteArray_ofList, List.utf8Encode_cons, ByteArray.data_append,
    Array.toList_append, List.utf8Encode_singleton, List.data_toByteArray]

theorem encodeChar_narrow {c : Char} (narrow : c.toNat < 127) : String.utf8EncodeChar c = [UInt8.ofNat c.toNat] := by
  have small : c.val.toNat < 127 := narrow
  fun_cases String.utf8EncodeChar
  · rfl
  all_goals omega

theorem take_narrow {s : Text} (narrow : ∀ c ∈ s, c.toNat < 127) (n : Nat) :
    (encode (String.ofList s)).take n = encode (String.ofList (s.take n)) := by
  induction s generalizing n with
  | nil => simp [encode]
  | cons c s ih =>
      cases n with
      | zero => simp [encode]
      | succ n =>
          rw [List.take_succ_cons, encode_cons, encode_cons, encodeChar_narrow (narrow c List.mem_cons_self),
            List.singleton_append, List.singleton_append, List.take_succ_cons,
            ih fun d member => narrow d (List.mem_cons_of_mem _ member)]

theorem length_narrow {s : Text} (narrow : ∀ c ∈ s, c.toNat < 127) : (encode (String.ofList s)).length = s.length := by
  induction s with
  | nil => simp [encode]
  | cons c s ih =>
      rw [encode_cons, encodeChar_narrow (narrow c List.mem_cons_self), List.singleton_append, List.length_cons,
        ih fun d member => narrow d (List.mem_cons_of_mem _ member), List.length_cons]

theorem encodeText_append (first second : Text) : encode (String.ofList (first ++ second)) =
    encode (String.ofList first) ++ encode (String.ofList second) := by
  rw [String.ofList_append, encode_append]

theorem encodeChar_high {c : Char} (wide : 128 ≤ c.toNat) : ∀ b ∈ String.utf8EncodeChar c, 128 ≤ b.toNat := by
  have value : c.toNat = c.val.toNat := rfl
  fun_cases String.utf8EncodeChar
  · omega
  all_goals
    simp only [List.mem_cons, List.not_mem_nil, or_false]
    rintro b member
    rcases member with rfl | rfl | rfl | rfl <;> simp <;> omega

theorem escapedByte_high {b : UInt8} (high : 128 ≤ b.toNat) : escapedByte b = 1 := by
  have large : ¬b < 0x20 := by
    rw [UInt8.lt_iff_toNat_lt]
    change ¬b.toNat < 32
    omega
  have other : ¬[0x22, 0x5c, 0x0a, 0x0d, 0x09, 0x08, 0x0c].contains b = true := by
    intro member
    have member := List.contains_iff_mem.mp member
    simp only [List.mem_cons, List.not_mem_nil, or_false] at member
    rcases member with rfl | rfl | rfl | rfl | rfl | rfl | rfl <;> exact absurd high (by decide)
  unfold escapedByte
  rw [if_neg other, if_neg large]

theorem escapeChar_size (c : Char) :
    (encode (String.ofList (escapeChar c))).length = ((String.utf8EncodeChar c).map escapedByte).sum := by
  by_cases narrow : c.toNat < 128
  · have narrowest : ∀ n < 128, (encode (String.ofList (escapeChar (Char.ofNat n)))).length =
        ((String.utf8EncodeChar (Char.ofNat n)).map escapedByte).sum := by decide +kernel
    have here := narrowest c.toNat narrow
    rwa [Char.ofNat_toNat] at here
  · have wide : 128 ≤ c.toNat := Nat.le_of_not_lt narrow
    have plain : escapeChar c = [c] := by
      unfold escapeChar
      have apart : ∀ d : Char, d.toNat < 128 → c ≠ d := fun d small same => by
        rw [same] at wide
        omega
      rw [if_neg (apart _ (by decide)), if_neg (apart _ (by decide)), if_neg (apart _ (by decide)),
        if_neg (apart _ (by decide)), if_neg (apart _ (by decide)), if_neg (apart _ (by decide)),
        if_neg (apart _ (by decide)), if_neg (by omega)]
    have ones : (String.utf8EncodeChar c).map escapedByte = List.replicate (String.utf8EncodeChar c).length 1 :=
      List.eq_replicate_iff.mpr ⟨List.length_map .., fun size member => by
        obtain ⟨b, inside, rfl⟩ := List.mem_map.mp member
        exact escapedByte_high (encodeChar_high wide b inside)⟩
    rw [plain, ones, encode_cons, List.length_append, List.sum_replicate, show String.ofList [] = "" from rfl]
    simp [encode]

theorem escaped_size (text : Text) : (encode (String.ofList (text.flatMap escapeChar))).length =
    ((encode (String.ofList text)).map escapedByte).sum := by
  induction text with
  | nil => rfl
  | cons c rest ih =>
      rw [List.flatMap_cons, encodeText_append, List.length_append, ih, escapeChar_size, encode_cons,
        List.map_append, List.sum_append]

theorem quoted_size (text : String) :
    (encode (String.ofList (quoted text.toList))).length = stringSize (encode text) := by
  have opening : (encode (String.ofList ['"'])).length = 1 := by decide
  have split : quoted text.toList = ['"'] ++ (text.toList.flatMap escapeChar ++ ['"']) := rfl
  rw [split, encodeText_append, encodeText_append, List.length_append, List.length_append, escaped_size,
    String.ofList_toList, opening]
  unfold stringSize
  omega

theorem members_size {files : Files} {texts : Dict F} (decoded : decodeFiles files = .ok texts) :
    (encode (String.ofList (dumpsMembersWith [] texts))).length = membersSize files := by
  induction files generalizing texts with
  | nil =>
      cases decoded
      rfl
  | cons file rest ih =>
      obtain ⟨name, data⟩ := file
      rw [decodeFiles] at decoded
      split at decoded
      · cases decoded
      · rename_i text read
        obtain ⟨texts', later, same⟩ := (bind_ok_iff _ _ _).mp decoded
        cases same
        have keys := congrArg List.length (decodeFiles_keys later)
        rw [List.length_map, List.length_map] at keys
        have colon : (encode (String.ofList [':'])).length = 1 := by decide
        have comma : (encode (String.ofList (if texts'.isEmpty then [] else [',']))).length =
            if rest.isEmpty then 0 else 1 := by
          cases texts' <;> cases rest <;> first | rfl | (cases keys)
        have text_size := quoted_size text
        rw [encode_decode read] at text_size
        rw [dumpsMembersWith, dumpsWith, membersSize, ← ih later, List.nil_append, encodeText_append,
          List.length_append, quoted_size, ← List.singleton_append, encodeText_append, encodeText_append,
          encodeText_append, List.length_append, List.length_append, List.length_append, text_size, colon, comma]
        omega

theorem treeBytes_size {policy : Json F} {files : Files} {texts : Dict F} (canonical : Canonical policy)
    (sorted : (files.map Prod.fst).Pairwise (· < ·)) (decoded : decodeFiles files = .ok texts) :
    (treeBytes policy texts).length = treeSize policy files := by
  have contract : (encode (String.ofList ('{' :: (quoted "contract".toList ++ [':'])))).length = 12 := by
    decide +kernel
  have between : (encode (String.ofList (',' :: (quoted "files".toList ++ [':', '{'])))).length = 10 := by
    decide +kernel
  have closing : (encode (String.ofList ['}', '}'])).length = 2 := by decide
  have text : dumpsWith [] (.obj [("contract", policy), ("files", .obj texts)] : Json F) =
      ('{' :: (quoted "contract".toList ++ [':'])) ++ (dumpsWith [] policy ++
        ((',' :: (quoted "files".toList ++ [':', '{'])) ++ (dumpsMembersWith [] texts ++ ['}', '}']))) := by
    simp [dumpsWith, dumpsMembersWith]
  unfold treeBytes treeSize dumpBytes
  rw [sortKeys_canonical _ (whole_canonical canonical sorted decoded), sortKeys_canonical _ canonical, text,
    List.length_append, encodeText_append, encodeText_append, encodeText_append, encodeText_append,
    List.length_append, List.length_append, List.length_append, List.length_append, contract, between,
    closing, members_size decoded]
  omega

/-! ### The codec -/

theorem unpack_large {platform : Platform F} {policy : Json F} {texts : Dict F}
    (large : MAX_SNAPSHOT < (treeBytes policy texts).length) :
    unpack platform (treeBytes policy texts) =
      .error (.value "Source snapshot exceeds the bounded limit") := by
  have body : afterMagic (treeBytes policy texts) =
      some (dumpBytes (.obj [("contract", policy), ("files", .obj texts)])) := afterMagic_some.mpr rfl
  unfold unpack
  rw [body]
  exact if_pos large

omit [FloatText F] in
theorem encodeFiles_some {texts : Dict F} {name : String} {data : Bytes}
    (encoded : encodeFiles texts = .ok [(name, data)]) :
    ∃ text, texts = [(name, .str text)] ∧ encode text = data := by
  match texts, encoded with
  | [], encoded => cases encoded
  | (name', .str text) :: rest, encoded =>
      rw [encodeFiles] at encoded
      obtain ⟨files, later, same⟩ := (bind_ok_iff _ _ _).mp encoded
      cases same
      match rest, later with
      | [], _ => exact ⟨text, rfl, rfl⟩
      | (_, .str _) :: _, later =>
          rw [encodeFiles] at later
          obtain ⟨_, -, same⟩ := (bind_ok_iff _ _ _).mp later
          cases same
      | (_, .null) :: _, later | (_, .bool _) :: _, later | (_, .int _) :: _, later
      | (_, .float _) :: _, later | (_, .arr _) :: _, later | (_, .obj _) :: _, later => cases later
  | (_, .null) :: _, encoded | (_, .bool _) :: _, encoded | (_, .int _) :: _, encoded
  | (_, .float _) :: _, encoded | (_, .arr _) :: _, encoded | (_, .obj _) :: _, encoded => cases encoded

omit [FloatText F] in
theorem item_ok {items : Dict F} {key : String} {value : Json F} :
    item items key = .ok value ↔ find? items key = some value := by
  unfold item
  cases find? items key with
  | none => simp
  | some found => simp

omit [FloatText F] in
theorem asDict_ok {value : Json F} {items : Dict F} : asDict value = .ok items ↔ value = .obj items := by
  cases value <;> simp [asDict]

/-- The bytes of a file without a contract are not read back when they look like a tree. -/
theorem unpack_disguised {platform : Platform F} {source body : Bytes} (looks : afterMagic source = some body) :
    unpack platform source ≠ .ok ((.null : Json F), [("kernel.py", source)]) := by
  intro accepted
  unfold unpack at accepted
  rw [looks] at accepted
  dsimp only at accepted
  split at accepted
  · cases accepted
  · split at accepted
    · cases accepted
    · rename_i value read
      obtain ⟨items, object, accepted⟩ := (bind_ok_iff _ _ _).mp accepted
      obtain ⟨texts, held, accepted⟩ := (bind_ok_iff _ _ _).mp accepted
      obtain ⟨files, encoded, accepted⟩ := (bind_ok_iff _ _ _).mp accepted
      obtain ⟨policy, -, accepted⟩ := (bind_ok_iff _ _ _).mp accepted
      obtain ⟨_, -, accepted⟩ := (bind_ok_iff _ _ _).mp accepted
      obtain ⟨packed, -, accepted⟩ := (bind_ok_iff _ _ _).mp accepted
      obtain ⟨dict, found, same⟩ := (bind_ok_iff _ _ _).mp held
      split at accepted
      · cases accepted
      · cases accepted
        obtain ⟨text, rfl, same'⟩ := encodeFiles_some encoded
        rw [asDict_ok.mp object] at read
        rw [item_ok, asDict_ok.mp same] at found
        have apart := loads_shorter read found
          (show find? [("kernel.py", .str text)] "kernel.py" = some (.str text) by simp [find?])
        rw [same'] at apart
        exact apart (afterMagic_some.mp looks)

/-- What `unpack` takes back: a file without a contract must not begin like a tree, and a tree must fit. -/
structure Content.Readable (content : Content F) : Prop where
  single : content.policy = .null → ∀ file ∈ content.files, ¬encode MAGIC <+: file.2
  tree : content.policy ≠ .null → treeSize content.policy content.files ≤ MAX_SNAPSHOT

/-- A content that is packed is read back if and only if it is readable, and what is accepted is the one
encoding of what it holds. -/
theorem snapshot_codec_iff (platform : Platform F) :
    (∀ (content : Content F) (source : Bytes), pack platform content.files content.policy = .ok source →
      (unpack platform source = .ok (content.policy, content.files) ↔ content.Readable)) ∧
    ∀ (source : Bytes) (policy : Json F) (files : Files), unpack platform source = .ok (policy, files) →
      pack platform files policy = .ok source := by
  refine ⟨fun content source packed => ?_, fun _ _ _ accepted => pack_unpack accepted⟩
  obtain ⟨policy, files, canonical, sorted⟩ := content
  dsimp only at packed ⊢
  by_cases null : policy = .null
  · subst null
    obtain rfl := pack_null.mp packed
    constructor
    · intro back
      refine ⟨fun _ file member start => ?_, fun tree => absurd rfl tree⟩
      obtain rfl := List.mem_singleton.mp member
      obtain ⟨body, same⟩ := start
      exact unpack_disguised (afterMagic_some.mpr same.symm) back
    · intro readable
      refine unpack_legacy ?_
      unfold afterMagic
      exact if_neg fun start => readable.single rfl _ (List.mem_singleton_self _)
        (List.isPrefixOf_iff_prefix.mp start)
  · obtain ⟨valid, texts, decoded, rfl⟩ := (pack_tree null).mp packed
    have size := treeBytes_size canonical sorted decoded
    constructor
    · intro back
      refine ⟨fun single => absurd single null, fun _ => ?_⟩
      by_contra large
      have longer : MAX_SNAPSHOT < (treeBytes policy texts).length := by
        rw [size]
        exact Nat.lt_of_not_le large
      rw [unpack_large longer] at back
      cases back
    · intro readable
      exact unpack_tree null canonical sorted valid decoded (size ▸ readable.tree null)

/-- Floats of one value. -/
inductive Imprecise where
  | nan

instance : FloatText Imprecise where
  literal _ := .nan
  value _ := .nan
  value_literal _ := rfl
  valid _ _ same := nomatch same

def bare : Platform Imprecise := ⟨fun _ => "", fun _ => false, fun _ => none⟩

def single (source : Bytes) : Content Imprecise :=
  ⟨.null, [("kernel.py", source)], trivial, List.pairwise_singleton _ _⟩

theorem snapshot_codec_single : unpack bare [] = .ok ((single []).policy, (single []).files) ↔
    (single []).Readable :=
  (snapshot_codec_iff bare).1 (single []) [] rfl

/-- A kernel that begins like a tree is packed, but not read back. -/
theorem unpack_loses_kernel : ¬ ∀ (platform : Platform Imprecise) (content : Content Imprecise) (source : Bytes),
    pack platform content.files content.policy = .ok source →
      unpack platform source = .ok (content.policy, content.files) := by
  intro always
  have back := always bare (single (encode MAGIC)) (encode MAGIC) rfl
  exact unpack_disguised (afterMagic_some.mpr (List.append_nil _).symm) back

end AtrexAgent.Sources
