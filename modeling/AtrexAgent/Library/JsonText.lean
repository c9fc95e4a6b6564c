import Mathlib.Data.Nat.Digits.Lemmas
import AtrexAgent.Library.Json

/-! JSON text: an encoder that leaves every character it may as it is, a decoder, and
that the decoder reads back what the encoder wrote. -/

namespace AtrexAgent

abbrev Text := List Char

theorem each_of_all {p : Char → Prop} [DecidablePred p] {text : Text}
    (all : (text.all fun c => p c) = true) : ∀ c ∈ text, p c :=
  fun c member => of_decide_eq_true (List.all_eq_true.mp all c member)

namespace Json

/-! ### Text -/

def dropPrefix (start s : Text) : Option Text :=
  if start.isPrefixOf s then some (s.drop start.length) else none

theorem dropPrefix_eq_some (start s rest : Text) :
    dropPrefix start s = some rest ↔ s = start ++ rest := by
  unfold dropPrefix
  rw [Option.ite_none_right_eq_some, List.isPrefixOf_iff_prefix]
  constructor
  · rintro ⟨⟨tail, rfl⟩, same⟩
    rw [List.drop_left, Option.some.injEq] at same
    rw [same]
  · rintro rfl
    exact ⟨List.prefix_append start rest, by rw [List.drop_left]⟩

@[simp] theorem dropPrefix_append (start rest : Text) :
    dropPrefix start (start ++ rest) = some rest :=
  (dropPrefix_eq_some start _ rest).mpr rfl

/-- The text goes on with no character of `p`. -/
def Stops (p : Char → Bool) (rest : Text) : Prop := ∀ c ∈ rest.head?, p c = false

theorem takeWhile_stops (p : Char → Bool) (run rest : Text) (all : ∀ c ∈ run, p c = true)
    (stops : Stops p rest) :
    (run ++ rest).takeWhile p = run ∧ (run ++ rest).dropWhile p = rest := by
  have stopped : rest.takeWhile p = [] ∧ rest.dropWhile p = rest := by
    cases rest with
    | nil => exact ⟨rfl, rfl⟩
    | cons c rest =>
        have here : p c = false := stops c rfl
        simp [here]
  rw [List.takeWhile_append_of_pos all, List.dropWhile_append_of_pos all, stopped.1, stopped.2]
  exact ⟨List.append_nil run, rfl⟩

/-! ### Numbers -/

def isDigit (c : Char) : Bool := decide (48 ≤ c.toNat ∧ c.toNat ≤ 57)

def digitChar (d : Nat) : Char := Char.ofNat (48 + d)

def digitValue (c : Char) : Nat := c.toNat - 48

def decimal (n : Nat) : Text :=
  if n = 0 then ['0'] else (Nat.digits 10 n).reverse.map digitChar

def ofDecimal (digits : Text) : Nat := Nat.ofDigits 10 (digits.reverse.map digitValue)

theorem digitChar_spec (d : Nat) (small : d < 10) :
    isDigit (digitChar d) = true ∧ digitValue (digitChar d) = d ∧
      (d ≠ 0 → digitChar d ≠ '0') := by
  revert d
  decide

theorem ofDecimal_decimal (n : Nat) : ofDecimal (decimal n) = n := by
  unfold decimal
  split
  · rename_i zero
    rw [zero]
    rfl
  · have same : ((Nat.digits 10 n).map digitChar).map digitValue = Nat.digits 10 n := by
      rw [List.map_map]
      apply (List.map_congr_left ?_).trans (List.map_id _)
      intro d member
      exact (digitChar_spec d (Nat.digits_lt_base (by decide) member)).2.1
    unfold ofDecimal
    rw [← List.map_reverse, List.reverse_reverse, same, Nat.ofDigits_digits]

/-- The digits before the point, without a leading zero. -/
def WholeDigits (digits : Text) : Prop :=
  digits = ['0'] ∨ ∃ c rest, digits = c :: rest ∧ c ≠ '0' ∧ ∀ d ∈ digits, isDigit d = true

theorem decimal_whole (n : Nat) : WholeDigits (decimal n) := by
  unfold decimal
  split
  · exact Or.inl rfl
  · rename_i positive
    have some_digit : Nat.digits 10 n ≠ [] := Nat.digits_ne_nil_iff_ne_zero.mpr positive
    have leading := Nat.getLast_digit_ne_zero 10 positive
    right
    have all : ∀ c ∈ (Nat.digits 10 n).reverse.map digitChar, isDigit c = true := by
      intro c member
      obtain ⟨d, given, rfl⟩ := List.mem_map.mp member
      exact (digitChar_spec d (Nat.digits_lt_base (by decide) (List.mem_reverse.mp given))).1
    have split : (Nat.digits 10 n).reverse =
        (Nat.digits 10 n).getLast some_digit :: (Nat.digits 10 n).dropLast.reverse := by
      rw [← List.reverse_concat, List.dropLast_append_getLast]
    refine ⟨_, _, by rw [split, List.map_cons], ?_, all⟩
    exact (digitChar_spec _ (Nat.digits_lt_base (by decide) (List.getLast_mem some_digit))).2.2
      leading

/-- A JSON number as it is written. -/
structure Numeral where
  negative : Bool
  whole : Text
  fraction : Option Text
  exponent : Option Text

def Digits (digits : Text) : Prop := digits ≠ [] ∧ ∀ d ∈ digits, isDigit d = true

def ExponentDigits (exponent : Text) : Prop :=
  ∃ sign digits, exponent = sign ++ digits ∧ (sign = [] ∨ sign = ['+'] ∨ sign = ['-']) ∧
    Digits digits

structure Numeral.Valid (n : Numeral) : Prop where
  whole : WholeDigits n.whole
  fraction : ∀ digits, n.fraction = some digits → Digits digits
  exponent : ∀ digits, n.exponent = some digits → ExponentDigits digits

def signText (negative : Bool) : Text := if negative then ['-'] else []

def fractionText : Option Text → Text
  | some digits => '.' :: digits
  | none => []

def exponentText : Option Text → Text
  | some digits => 'e' :: digits
  | none => []

def Numeral.text (n : Numeral) : Text :=
  signText n.negative ++ (n.whole ++ (fractionText n.fraction ++ exponentText n.exponent))

def scanSign : Text → Bool × Text
  | '-' :: rest => (true, rest)
  | s => (false, s)

def scanWhole : Text → Option (Text × Text)
  | [] => none
  | c :: rest =>
      if c = '0' then some (['0'], rest)
      else if isDigit c then some (c :: rest.takeWhile isDigit, rest.dropWhile isDigit)
      else none

def scanFraction : Text → Option Text × Text
  | [] => (none, [])
  | c :: rest =>
      if c = '.' ∧ rest.takeWhile isDigit ≠ [] then
        (some (rest.takeWhile isDigit), rest.dropWhile isDigit)
      else (none, c :: rest)

def scanExponentSign : Text → Text × Text
  | [] => ([], [])
  | c :: rest => if c = '+' ∨ c = '-' then ([c], rest) else ([], c :: rest)

def scanExponent : Text → Option Text × Text
  | [] => (none, [])
  | c :: rest =>
      let (sign, digits) := scanExponentSign rest
      if (c = 'e' ∨ c = 'E') ∧ digits.takeWhile isDigit ≠ [] then
        (some (sign ++ digits.takeWhile isDigit), digits.dropWhile isDigit)
      else (none, c :: rest)

/-- `(-?(?:0|[1-9][0-9]*))(\.[0-9]+)?([eE][-+]?[0-9]+)?` -/
def scanNumeral (s : Text) : Option (Numeral × Text) := do
  let (negative, s) := scanSign s
  let (whole, s) ← scanWhole s
  let (fraction, s) := scanFraction s
  let (exponent, s) := scanExponent s
  pure (⟨negative, whole, fraction, exponent⟩, s)

/-- What a number must not be followed by to end where it ends. -/
def inNumber (c : Char) : Bool := isDigit c || c = '.' || c = 'e' || c = 'E'

theorem Stops.imp {p q : Char → Bool} {rest : Text} (stops : Stops p rest)
    (weaker : ∀ c, q c = true → p c = true) : Stops q rest := by
  intro c here
  by_contra other
  have holds := weaker c (Bool.eq_true_of_not_eq_false other)
  rw [stops c here] at holds
  cases holds

theorem stops_digit {rest : Text} (stops : Stops inNumber rest) : Stops isDigit rest :=
  stops.imp fun c digit => by simp [inNumber, digit]

theorem scanExponent_text (exponent : Option Text) (rest : Text)
    (valid : ∀ digits, exponent = some digits → ExponentDigits digits)
    (stops : Stops inNumber rest) :
    scanExponent (exponentText exponent ++ rest) = (exponent, rest) := by
  cases exponent with
  | none =>
      cases rest with
      | nil => rfl
      | cons c rest =>
          have here : inNumber c = false := stops c rfl
          have no_mark : ¬ (c = 'e' ∨ c = 'E') := by
            rintro (rfl | rfl) <;> simp [inNumber] at here
          simp [exponentText, scanExponent, no_mark]
  | some digits =>
      obtain ⟨sign, run, rfl, signs, some_digit, all⟩ := valid digits rfl
      obtain ⟨taken, dropped⟩ := takeWhile_stops isDigit run rest all (stops_digit stops)
      have signed : scanExponentSign (sign ++ run ++ rest) = (sign, run ++ rest) := by
        rcases signs with rfl | rfl | rfl
        · cases run with
          | nil => exact absurd rfl some_digit
          | cons d run =>
              have digit := all d List.mem_cons_self
              have no_sign : ¬ (d = '+' ∨ d = '-') := by
                rintro (rfl | rfl) <;> revert digit <;> decide
              simp [scanExponentSign, no_sign]
        · rfl
        · rfl
      unfold exponentText
      rw [List.cons_append, scanExponent, signed]
      simp [taken, dropped, some_digit]

theorem scanFraction_text (fraction : Option Text) (rest : Text)
    (valid : ∀ digits, fraction = some digits → Digits digits)
    (no_point : rest.head? ≠ some '.') (stops : Stops isDigit rest) :
    scanFraction (fractionText fraction ++ rest) = (fraction, rest) := by
  cases fraction with
  | none =>
      cases rest with
      | nil => rfl
      | cons c rest =>
          have other : c ≠ '.' := fun same => no_point (by rw [same]; rfl)
          simp [fractionText, scanFraction, other]
  | some digits =>
      obtain ⟨some_digit, all⟩ := valid digits rfl
      obtain ⟨taken, dropped⟩ := takeWhile_stops isDigit digits rest all stops
      unfold fractionText
      rw [List.cons_append, scanFraction]
      simp [taken, dropped, some_digit]

theorem scanWhole_text (whole rest : Text) (valid : WholeDigits whole)
    (stops : Stops isDigit rest) : scanWhole (whole ++ rest) = some (whole, rest) := by
  rcases valid with rfl | ⟨c, digits, rfl, nonzero, all⟩
  · rfl
  · obtain ⟨taken, dropped⟩ := takeWhile_stops isDigit digits rest
      (fun d member => all d (List.mem_cons_of_mem _ member)) stops
    have first := all c List.mem_cons_self
    rw [List.cons_append, scanWhole, if_neg nonzero, if_pos first, taken, dropped]

theorem scanSign_text (negative : Bool) (whole rest : Text) (valid : WholeDigits whole) :
    scanSign (signText negative ++ (whole ++ rest)) = (negative, whole ++ rest) := by
  cases negative with
  | true => rfl
  | false =>
      have start : ∃ c digits, whole = c :: digits ∧ c ≠ '-' := by
        rcases valid with rfl | ⟨c, digits, rfl, _, all⟩
        · exact ⟨'0', [], rfl, by decide⟩
        · refine ⟨c, digits, rfl, ?_⟩
          rintro rfl
          have digit := all '-' List.mem_cons_self
          revert digit
          decide
      obtain ⟨c, digits, rfl, other⟩ := start
      simp only [signText, Bool.false_eq_true, if_false, List.nil_append, List.cons_append]
      unfold scanSign
      split
      · rename_i same
        injection same with first _
        exact absurd first other
      · rfl

theorem exponentText_stops (exponent : Option Text) (rest : Text)
    (stops : Stops inNumber rest) :
    Stops isDigit (exponentText exponent ++ rest) ∧
      (exponentText exponent ++ rest).head? ≠ some '.' := by
  cases exponent with
  | none =>
      refine ⟨stops_digit stops, ?_⟩
      intro point
      have here := stops '.' point
      revert here
      decide
  | some digits =>
      refine ⟨?_, by simp [exponentText]⟩
      intro c here
      simp only [exponentText, List.cons_append, List.head?_cons, Option.mem_some_iff] at here
      subst here
      decide

theorem scanNumeral_text (n : Numeral) (rest : Text) (valid : n.Valid)
    (stops : Stops inNumber rest) : scanNumeral (n.text ++ rest) = some (n, rest) := by
  obtain ⟨digit_after, no_point⟩ := exponentText_stops n.exponent rest stops
  have fraction_after : Stops isDigit
      (fractionText n.fraction ++ (exponentText n.exponent ++ rest)) := by
    cases n.fraction with
    | none => exact digit_after
    | some digits =>
        intro c here
        simp only [fractionText, List.cons_append, List.head?_cons, Option.mem_some_iff] at here
        subst here
        decide
  have text : n.text ++ rest = signText n.negative ++ (n.whole ++
      (fractionText n.fraction ++ (exponentText n.exponent ++ rest))) := by
    simp [Numeral.text]
  unfold scanNumeral
  rw [text, scanSign_text _ _ _ valid.whole]
  dsimp only
  rw [scanWhole_text _ _ valid.whole fraction_after]
  simp only [Option.bind_eq_bind, Option.bind_some]
  rw [scanFraction_text _ _ valid.fraction no_point digit_after]
  dsimp only
  rw [scanExponent_text _ _ valid.exponent stops]
  rfl

/-! ### Strings -/

def hexChar (d : Nat) : Char := Char.ofNat (if d < 10 then 48 + d else 87 + d)

def hexValue (c : Char) : Option Nat :=
  if isDigit c then some (c.toNat - 48)
  else if 97 ≤ c.toNat ∧ c.toNat ≤ 102 then some (c.toNat - 87)
  else if 65 ≤ c.toNat ∧ c.toNat ≤ 70 then some (c.toNat - 55)
  else none

def hex4 (a b c d : Char) : Option Nat := do
  let a ← hexValue a
  let b ← hexValue b
  let c ← hexValue c
  let d ← hexValue d
  pure (((a * 16 + b) * 16 + c) * 16 + d)

/-- The escape of a character, if it must have one. -/
def escapeChar (c : Char) : Text :=
  if c = '"' then ['\\', '"']
  else if c = '\\' then ['\\', '\\']
  else if c = '\n' then ['\\', 'n']
  else if c = '\r' then ['\\', 'r']
  else if c = '\t' then ['\\', 't']
  else if c = '\x08' then ['\\', 'b']
  else if c = '\x0c' then ['\\', 'f']
  else if c.toNat < 32 then
    ['\\', 'u', '0', '0', hexChar (c.toNat / 16), hexChar (c.toNat % 16)]
  else [c]

def unescape (c : Char) : Option Char :=
  if c = '"' then some '"'
  else if c = '\\' then some '\\'
  else if c = '/' then some '/'
  else if c = 'b' then some '\x08'
  else if c = 'f' then some '\x0c'
  else if c = 'n' then some '\n'
  else if c = 'r' then some '\r'
  else if c = 't' then some '\t'
  else none

def highSurrogate (code : Nat) : Prop := 0xd800 ≤ code ∧ code ≤ 0xdbff

def lowSurrogate (code : Nat) : Prop := 0xdc00 ≤ code ∧ code ≤ 0xdfff

instance : DecidablePred highSurrogate := fun _ => inferInstanceAs (Decidable (_ ∧ _))

instance : DecidablePred lowSurrogate := fun _ => inferInstanceAs (Decidable (_ ∧ _))

def push (c : Char) (scanned : Option (Text × Text)) : Option (Text × Text) :=
  scanned.map fun r => (c :: r.1, r.2)

/-- A string from after its opening quote, to after its closing one. A surrogate that is
not half of a pair is no character of a string. -/
def scanString : Text → Option (Text × Text)
  | [] => none
  | '"' :: rest => some ([], rest)
  | '\\' :: 'u' :: a :: b :: c :: d :: rest =>
      match hex4 a b c d with
      | none => none
      | some code =>
          if highSurrogate code then
            match rest with
            | '\\' :: 'u' :: e :: f :: g :: h :: rest =>
                match hex4 e f g h with
                | none => none
                | some low =>
                    if lowSurrogate low then
                      push (Char.ofNat (0x10000 + (code - 0xd800) * 0x400 + (low - 0xdc00)))
                        (scanString rest)
                    else none
            | _ => none
          else if lowSurrogate code then none
          else push (Char.ofNat code) (scanString rest)
  | '\\' :: c :: rest =>
      match unescape c with
      | none => none
      | some character => push character (scanString rest)
  | c :: rest => if c = '\\' ∨ c.toNat < 32 then none else push c (scanString rest)

theorem control_escape (n : Nat) (small : n < 32) :
    hex4 '0' '0' (hexChar (n / 16)) (hexChar (n % 16)) = some n := by
  revert n
  decide

theorem scanString_plain (c : Char) (rest : Text) (quote : c ≠ '"') (backslash : c ≠ '\\')
    (printable : ¬ c.toNat < 32) : scanString (c :: rest) = push c (scanString rest) := by
  rw [scanString.eq_def]
  split
  · rename_i same
    cases same
  · rename_i same
    injection same with here _
    exact absurd here quote
  · rename_i same
    injection same with here _
    exact absurd here backslash
  · rename_i same
    injection same with here _
    exact absurd here backslash
  · rename_i same
    injection same with here here'
    subst here here'
    rw [if_neg (by simp [backslash, printable])]

theorem scanString_escapeChar (c : Char) (rest : Text) :
    scanString (escapeChar c ++ rest) = push c (scanString rest) := by
  unfold escapeChar
  split
  · rename_i same
    subst same
    rfl
  split
  · rename_i same
    subst same
    rfl
  split
  · rename_i same
    subst same
    rfl
  split
  · rename_i same
    subst same
    rfl
  split
  · rename_i same
    subst same
    rfl
  split
  · rename_i same
    subst same
    rfl
  split
  · rename_i same
    subst same
    rfl
  rename_i quote backslash _ _ _ _ _
  split
  · rename_i control
    have code := control_escape c.toNat control
    have no_high : ¬ highSurrogate c.toNat := by
      unfold highSurrogate
      omega
    have no_low : ¬ lowSurrogate c.toNat := by
      unfold lowSurrogate
      omega
    simp only [List.cons_append, List.nil_append]
    rw [scanString, code]
    dsimp only
    rw [if_neg no_high, if_neg no_low, Char.ofNat_toNat]
  · rename_i printable
    exact scanString_plain c rest quote backslash printable

def quoted (s : Text) : Text := '"' :: (s.flatMap escapeChar ++ ['"'])

theorem scanString_escaped (s rest : Text) :
    scanString (s.flatMap escapeChar ++ '"' :: rest) = some (s, rest) := by
  induction s with
  | nil => rfl
  | cons c s ih =>
      rw [List.flatMap_cons, List.append_assoc, scanString_escapeChar, ih]
      rfl

/-! ### Values -/

mutual

/-- The strings and the keys of a value. -/
def textsOf {F : Type} : Json F → List Text
  | .str s => [s.toList]
  | .arr items => textsOfItems items
  | .obj items => textsOfMembers items
  | _ => []

def textsOfItems {F : Type} : List (Json F) → List Text
  | [] => []
  | item :: rest => textsOf item ++ textsOfItems rest

def textsOfMembers {F : Type} : List (String × Json F) → List Text
  | [] => []
  | (key, value) :: rest => key.toList :: (textsOf value ++ textsOfMembers rest)

end

/-- What a float is written as. -/
inductive FloatLiteral where
  | nan
  | infinity (negative : Bool)
  | decimal (numeral : Numeral)

/-- The shortest text of a float, and what a text stands for. -/
class FloatText (F : Type) where
  literal : F → FloatLiteral
  value : FloatLiteral → F
  value_literal : ∀ x, value (literal x) = x
  valid : ∀ x n, literal x = .decimal n →
    n.Valid ∧ (n.fraction.isSome = true ∨ n.exponent.isSome = true)

/-- A type of floats with one value. -/
inductive OnlyNan where
  | nan
  deriving DecidableEq

instance : FloatText OnlyNan where
  literal _ := .nan
  value _ := .nan
  value_literal _ := rfl
  valid _ _ same := by cases same

variable {F : Type} [FloatText F]

def literalText : FloatLiteral → Text
  | .nan => ['N', 'a', 'N']
  | .infinity negative => signText negative ++ ['I', 'n', 'f', 'i', 'n', 'i', 't', 'y']
  | .decimal n => n.text

def intNumeral (n : Int) : Numeral where
  negative := decide (n < 0)
  whole := decimal n.natAbs
  fraction := none
  exponent := none

mutual

/-- `json.dumps(value, ensure_ascii=False)` -/
def dumps : Json F → Text
  | .null => ['n', 'u', 'l', 'l']
  | .bool true => ['t', 'r', 'u', 'e']
  | .bool false => ['f', 'a', 'l', 's', 'e']
  | .int n => (intNumeral n).text
  | .float x => literalText (FloatText.literal x)
  | .str s => quoted s.toList
  | .arr items => '[' :: (dumpsItems items ++ [']'])
  | .obj items => '{' :: (dumpsMembers items ++ ['}'])

def dumpsItems : List (Json F) → Text
  | [] => []
  | item :: rest => dumps item ++ ((if rest.isEmpty then [] else [',', ' ']) ++ dumpsItems rest)

def dumpsMembers : List (String × Json F) → Text
  | [] => []
  | (key, value) :: rest =>
      quoted key.toList ++ (':' :: ' ' :: (dumps value ++
        ((if rest.isEmpty then [] else [',', ' ']) ++ dumpsMembers rest)))

end

mutual

/-- `json.dumps(value, ensure_ascii=False)` with a gap after each separator. -/
def dumpsWith (gap : Text) : Json F → Text
  | .null => ['n', 'u', 'l', 'l']
  | .bool true => ['t', 'r', 'u', 'e']
  | .bool false => ['f', 'a', 'l', 's', 'e']
  | .int n => (intNumeral n).text
  | .float x => literalText (FloatText.literal x)
  | .str s => quoted s.toList
  | .arr items => '[' :: (dumpsItemsWith gap items ++ [']'])
  | .obj items => '{' :: (dumpsMembersWith gap items ++ ['}'])

def dumpsItemsWith (gap : Text) : List (Json F) → Text
  | [] => []
  | item :: rest => dumpsWith gap item ++
      ((if rest.isEmpty then [] else ',' :: gap) ++ dumpsItemsWith gap rest)

def dumpsMembersWith (gap : Text) : List (String × Json F) → Text
  | [] => []
  | (key, value) :: rest =>
      quoted key.toList ++ (':' :: (gap ++ (dumpsWith gap value ++
        ((if rest.isEmpty then [] else ',' :: gap) ++ dumpsMembersWith gap rest))))

end

mutual

theorem dumps_with (v : Json F) : dumps v = dumpsWith [' '] v := by
  cases v with
  | bool b => cases b <;> rfl
  | arr items => rw [dumps, dumpsWith, dumpsItems_with items]
  | obj items => rw [dumps, dumpsWith, dumpsMembers_with items]
  | null => rfl
  | int n => rfl
  | float x => rfl
  | str s => rfl

theorem dumpsItems_with (items : List (Json F)) : dumpsItems items = dumpsItemsWith [' '] items := by
  cases items with
  | nil => rfl
  | cons item rest => rw [dumpsItems, dumpsItemsWith, dumps_with item, dumpsItems_with rest]

theorem dumpsMembers_with (items : List (String × Json F)) :
    dumpsMembers items = dumpsMembersWith [' '] items := by
  cases items with
  | nil => rfl
  | cons item rest =>
      obtain ⟨key, value⟩ := item
      rw [dumpsMembers, dumpsMembersWith, dumps_with value, dumpsMembers_with rest]
      rfl

end

def isSpace (c : Char) : Bool := c = ' ' || c = '\t' || c = '\n' || c = '\r'

def keywords : List (Text × Json F) :=
  [(['n', 'u', 'l', 'l'], .null), (['t', 'r', 'u', 'e'], .bool true),
    (['f', 'a', 'l', 's', 'e'], .bool false),
    (['N', 'a', 'N'], .float (FloatText.value .nan)),
    (['I', 'n', 'f', 'i', 'n', 'i', 't', 'y'], .float (FloatText.value (.infinity false))),
    (['-', 'I', 'n', 'f', 'i', 'n', 'i', 't', 'y'], .float (FloatText.value (.infinity true)))]

def numeralValue (n : Numeral) : Json F :=
  if n.fraction.isSome ∨ n.exponent.isSome then .float (FloatText.value (.decimal n))
  else .int (if n.negative then -(ofDecimal n.whole : Int) else ofDecimal n.whole)

def scanKeyword (s : Text) : List (Text × Json F) → Option (Json F × Text)
  | [] => none
  | keyword :: rest =>
      match dropPrefix keyword.1 s with
      | some after => some (keyword.2, after)
      | none => scanKeyword s rest

def scanAtom (s : Text) : Option (Json F × Text) :=
  match scanKeyword s keywords with
  | some scanned => some scanned
  | none => (scanNumeral s).map fun r => (numeralValue r.1, r.2)

/-- `dict(pairs)`: of two values of a key the last stays. -/
def ofPairs (pairs : Dict F) : Dict F := pairs.foldl (fun d p => set d p.1 p.2) []

mutual

/-- A value, and the text after it. The fuel bounds the nesting, which the text does too. -/
def scanValue : Nat → Text → Option (Json F × Text)
  | 0, _ => none
  | fuel + 1, s =>
      match s with
      | '"' :: rest => (scanString rest).map fun r => (.str (String.ofList r.1), r.2)
      | '[' :: rest =>
          match rest.dropWhile isSpace with
          | ']' :: rest => some (.arr [], rest)
          | s => (scanItems fuel s).map fun r => (.arr r.1, r.2)
      | '{' :: rest =>
          match rest.dropWhile isSpace with
          | '}' :: rest => some (.obj [], rest)
          | s => (scanMembers fuel s).map fun r => (.obj (ofPairs r.1), r.2)
      | s => scanAtom s

def scanItems : Nat → Text → Option (List (Json F) × Text)
  | 0, _ => none
  | fuel + 1, s =>
      (scanValue fuel s).bind fun item =>
        match item.2.dropWhile isSpace with
        | ']' :: rest => some ([item.1], rest)
        | ',' :: rest => (scanItems fuel (rest.dropWhile isSpace)).map fun r =>
            (item.1 :: r.1, r.2)
        | _ => none

def scanMembers : Nat → Text → Option (List (String × Json F) × Text)
  | 0, _ => none
  | fuel + 1, s =>
      match s with
      | '"' :: rest =>
          (scanString rest).bind fun key =>
            match key.2.dropWhile isSpace with
            | ':' :: rest =>
                (scanValue fuel (rest.dropWhile isSpace)).bind fun value =>
                  match value.2.dropWhile isSpace with
                  | '}' :: rest => some ([(String.ofList key.1, value.1)], rest)
                  | ',' :: rest => (scanMembers fuel (rest.dropWhile isSpace)).map fun r =>
                      ((String.ofList key.1, value.1) :: r.1, r.2)
                  | _ => none
            | _ => none
      | _ => none

end

/-- `json.loads(s)`, where it raises no error. -/
def loads (s : Text) : Option (Json F) :=
  if s.head? = some '\ufeff' then none
  else
    match scanValue (s.length + 1) (s.dropWhile isSpace) with
    | some (value, rest) => if (rest.dropWhile isSpace).isEmpty then some value else none
    | none => none

/-! ### Reading back -/

mutual

/-- The keys of every object are distinct. -/
def Distinct : Json F → Prop
  | .arr items => DistinctItems items
  | .obj items => (items.map Prod.fst).Nodup ∧ DistinctMembers items
  | _ => True

def DistinctItems : List (Json F) → Prop
  | [] => True
  | item :: rest => Distinct item ∧ DistinctItems rest

def DistinctMembers : List (String × Json F) → Prop
  | [] => True
  | (_, value) :: rest => Distinct value ∧ DistinctMembers rest

end

omit [FloatText F] in
theorem set_new (d : Dict F) (key : String) (value : Json F) (fresh : key ∉ d.map Prod.fst) :
    set d key value = d ++ [(key, value)] := by
  unfold set
  rw [if_neg]
  rw [List.any_eq_true]
  rintro ⟨item, member, same⟩
  exact fresh (List.mem_map.mpr ⟨item, member, by simpa using same⟩)

omit [FloatText F] in
theorem ofPairs_nodup (pairs : Dict F) (nodup : (pairs.map Prod.fst).Nodup) :
    ofPairs pairs = pairs := by
  have fold : ∀ pairs d : Dict F, ((d ++ pairs).map Prod.fst).Nodup →
      pairs.foldl (fun d p => set d p.1 p.2) d = d ++ pairs := by
    intro pairs
    induction pairs with
    | nil =>
        intro d _
        simp
    | cons p rest ih =>
        intro d distinct
        have fresh : p.1 ∉ d.map Prod.fst := by
          rw [List.map_append, List.map_cons, List.nodup_append] at distinct
          intro member
          exact distinct.2.2 _ member _ List.mem_cons_self rfl
        rw [List.foldl_cons, set_new d p.1 p.2 fresh, ih]
        · simp
        · simpa using distinct
  exact fold pairs [] (by simpa using nodup)

/-- The first character of a numeral. -/
theorem numeral_head (n : Numeral) (valid : n.Valid) :
    ∃ c rest, n.text = c :: rest ∧ (c = '-' ∨ isDigit c = true) := by
  have start : ∃ c digits, n.whole = c :: digits ∧ isDigit c = true := by
    rcases valid.whole with same | ⟨c, digits, same, _, all⟩
    · exact ⟨'0', [], same, by decide⟩
    · exact ⟨c, digits, same, all c (by rw [same]; exact List.mem_cons_self)⟩
  obtain ⟨c, digits, same, digit⟩ := start
  unfold Numeral.text
  rw [same]
  cases n.negative with
  | true => exact ⟨'-', _, rfl, Or.inl rfl⟩
  | false => exact ⟨c, _, rfl, Or.inr digit⟩

theorem numeral_second (n : Numeral) (valid : n.Valid) (rest : Text) :
    n.text = '-' :: rest → ∃ c rest', rest = c :: rest' ∧ isDigit c = true := by
  have start : ∃ c digits, n.whole = c :: digits ∧ isDigit c = true := by
    rcases valid.whole with same | ⟨c, digits, same, _, all⟩
    · exact ⟨'0', [], same, by decide⟩
    · exact ⟨c, digits, same, all c (by rw [same]; exact List.mem_cons_self)⟩
  obtain ⟨c, digits, same, digit⟩ := start
  unfold Numeral.text
  rw [same]
  cases n.negative with
  | true =>
      intro text
      injection text with _ text
      exact ⟨c, _, text.symm, digit⟩
  | false =>
      intro text
      injection text with here _
      subst here
      exact absurd digit (by decide)

theorem dropPrefix_none (c d : Char) (start s : Text) (other : c ≠ d) :
    dropPrefix (c :: start) (d :: s) = none := by
  simp [dropPrefix, other]

/-- No keyword begins like a number. -/
theorem scanKeyword_numeral (n : Numeral) (valid : n.Valid) (rest : Text) :
    scanKeyword (n.text ++ rest) (keywords : List (Text × Json F)) = none := by
  obtain ⟨c, tail, text, first⟩ := numeral_head n valid
  have letters : ∀ d ∈ ['n', 't', 'f', 'N', 'I'], d ≠ c := by
    intro d member same
    subst same
    rcases first with rfl | digit
    · revert member
      decide
    · revert member digit
      simp only [List.mem_cons, List.not_mem_nil, or_false]
      rintro (rfl | rfl | rfl | rfl | rfl) <;> decide
  have minus : dropPrefix ['-', 'I', 'n', 'f', 'i', 'n', 'i', 't', 'y'] (c :: (tail ++ rest)) =
      none := by
    by_cases negative : c = '-'
    · subst negative
      obtain ⟨d, tail', rfl, digit⟩ := numeral_second n valid tail text
      have other : 'I' ≠ d := by
        rintro rfl
        revert digit
        decide
      simp [dropPrefix, other]
    · exact dropPrefix_none _ _ _ _ (Ne.symm negative)
  rw [text, List.cons_append]
  simp only [keywords, scanKeyword, minus, dropPrefix_none _ _ _ _ (letters 'n' (by simp)),
    dropPrefix_none _ _ _ _ (letters 't' (by simp)),
    dropPrefix_none _ _ _ _ (letters 'f' (by simp)),
    dropPrefix_none _ _ _ _ (letters 'N' (by simp)),
    dropPrefix_none _ _ _ _ (letters 'I' (by simp))]

theorem scanAtom_numeral (n : Numeral) (valid : n.Valid) (rest : Text)
    (stops : Stops inNumber rest) :
    scanAtom (n.text ++ rest) = some ((numeralValue n : Json F), rest) := by
  unfold scanAtom
  rw [scanKeyword_numeral n valid rest]
  dsimp only
  rw [scanNumeral_text n rest valid stops]
  rfl

theorem intNumeral_valid (n : Int) : (intNumeral n).Valid where
  whole := decimal_whole n.natAbs
  fraction := by simp [intNumeral]
  exponent := by simp [intNumeral]

theorem intNumeral_value (n : Int) : (numeralValue (intNumeral n) : Json F) = .int n := by
  unfold numeralValue intNumeral
  dsimp only
  rw [if_neg (by simp), ofDecimal_decimal]
  congr 1
  by_cases negative : n < 0
  · rw [if_pos (by simpa using negative)]
    omega
  · rw [if_neg (by simpa using negative)]
    omega

theorem scanAtom_literal (x : F) (rest : Text) (stops : Stops inNumber rest) :
    scanAtom (literalText (FloatText.literal x) ++ rest) = some (.float x, rest) := by
  cases here : FloatText.literal x with
  | nan =>
      have value : FloatText.value .nan = x := by rw [← here, FloatText.value_literal]
      rw [← value]
      rfl
  | infinity negative =>
      have value : FloatText.value (.infinity negative) = x := by
        rw [← here, FloatText.value_literal]
      rw [← value]
      cases negative <;> rfl
  | decimal n =>
      obtain ⟨valid, point⟩ := FloatText.valid x n here
      have value : FloatText.value (.decimal n) = x := by rw [← here, FloatText.value_literal]
      have float : (numeralValue n : Json F) = .float x := by
        unfold numeralValue
        rw [if_pos point, value]
      rw [← float]
      exact scanAtom_numeral n valid rest stops

/-- What a value begins with. -/
def Begins (c : Char) : Prop := isSpace c = false ∧ c ≠ ']' ∧ c ≠ '}' ∧ c ≠ '\ufeff'

instance : DecidablePred Begins := fun _ => inferInstanceAs (Decidable (_ ∧ _))

theorem begins_numeral (c : Char) (first : c = '-' ∨ isDigit c = true) : Begins c := by
  rcases first with rfl | digit
  · decide
  · refine ⟨?_, ?_, ?_, ?_⟩
    · by_contra space
      simp only [isSpace, Bool.not_eq_false, Bool.or_eq_true, decide_eq_true_eq] at space
      rcases space with ((rfl | rfl) | rfl) | rfl <;> revert digit <;> decide
    all_goals
      rintro rfl
      revert digit
      decide

theorem dumpsWith_begins (gap : Text) (v : Json F) :
    ∃ c rest, dumpsWith gap v = c :: rest ∧ Begins c := by
  cases v with
  | null => exact ⟨_, _, by rw [dumpsWith], by decide⟩
  | bool b => cases b <;> exact ⟨_, _, by rw [dumpsWith], by decide⟩
  | int n =>
      obtain ⟨c, rest, text, first⟩ := numeral_head _ (intNumeral_valid n)
      exact ⟨c, rest, by rw [dumpsWith, text], begins_numeral c first⟩
  | float x =>
      rw [dumpsWith]
      cases here : FloatText.literal x with
      | nan => exact ⟨_, _, rfl, by decide⟩
      | infinity negative => cases negative <;> exact ⟨_, _, rfl, by decide⟩
      | decimal n =>
          obtain ⟨c, rest, text, first⟩ := numeral_head n (FloatText.valid x n here).1
          exact ⟨c, rest, text, begins_numeral c first⟩
  | str s => exact ⟨_, _, by rw [dumpsWith]; rfl, by decide⟩
  | arr items => exact ⟨_, _, by rw [dumpsWith], by decide⟩
  | obj items => exact ⟨_, _, by rw [dumpsWith], by decide⟩

theorem dumps_begins (v : Json F) : ∃ c rest, dumps v = c :: rest ∧ Begins c := by
  rw [dumps_with]
  exact dumpsWith_begins [' '] v

theorem dropWhile_begins (c : Char) (rest : Text) (begins : Begins c) :
    (c :: rest).dropWhile isSpace = c :: rest := by
  simp [begins.1]

theorem stops_of (p : Char → Bool) (c : Char) (rest : Text) (other : p c = false) :
    Stops p (c :: rest) := by
  intro d here
  cases here
  exact other

/-- What the decoder makes of a text that begins as no string, array or object. -/
theorem scanValue_atom (fuel : Nat) (c : Char) (s : Text) (quote : c ≠ '"')
    (bracket : c ≠ '[') (brace : c ≠ '{') :
    (scanValue (fuel + 1) (c :: s) : Option (Json F × Text)) = scanAtom (c :: s) := by
  rw [scanValue]
  · intro rest same
    injection same with here _
    exact quote here
  · intro rest same
    injection same with here _
    exact bracket here
  · intro rest same
    injection same with here _
    exact brace here

theorem numeral_plain (c : Char) (first : c = '-' ∨ isDigit c = true) :
    c ≠ '"' ∧ c ≠ '[' ∧ c ≠ '{' := by
  refine ⟨?_, ?_, ?_⟩
  all_goals
    rintro rfl
    revert first
    decide

theorem scanValue_literal (fuel : Nat) (x : F) (rest : Text) (stops : Stops inNumber rest) :
    scanValue (fuel + 1) (literalText (FloatText.literal x) ++ rest) = some (.float x, rest) := by
  rw [← scanAtom_literal x rest stops]
  cases here : FloatText.literal x with
  | nan => exact scanValue_atom fuel 'N' _ (by decide) (by decide) (by decide)
  | infinity negative =>
      cases negative
      · exact scanValue_atom fuel 'I' _ (by decide) (by decide) (by decide)
      · exact scanValue_atom fuel '-' _ (by decide) (by decide) (by decide)
  | decimal n =>
      obtain ⟨c, tail, text, first⟩ := numeral_head n (FloatText.valid x n here).1
      obtain ⟨quote, bracket, brace⟩ := numeral_plain c first
      simp only [literalText, text, List.cons_append]
      exact scanValue_atom fuel c _ quote bracket brace

section Gap

variable {gap : Text} (spaces : ∀ c ∈ gap, isSpace c = true)

include spaces

omit [FloatText F] in
theorem dropWhile_gap (c : Char) (rest : Text) (begins : Begins c) :
    (gap ++ c :: rest).dropWhile isSpace = c :: rest := by
  rw [List.dropWhile_append_of_pos spaces, dropWhile_begins c rest begins]

mutual

theorem scanValue_dumpsWith (v : Json F) (distinct : Distinct v) (fuel : Nat)
    (enough : (dumpsWith gap v).length < fuel) (rest : Text) (stops : Stops inNumber rest) :
    scanValue fuel (dumpsWith gap v ++ rest) = some (v, rest) := by
  obtain ⟨fuel, rfl⟩ : ∃ more, fuel = more + 1 := ⟨fuel - 1, by omega⟩
  cases v with
  | null => rfl
  | bool b => cases b <;> rfl
  | int n =>
      rw [dumpsWith, ← intNumeral_value (F := F) n, ← scanAtom_numeral _ (intNumeral_valid n) rest stops]
      obtain ⟨c, tail, text, first⟩ := numeral_head _ (intNumeral_valid n)
      obtain ⟨quote, bracket, brace⟩ := numeral_plain c first
      rw [text]
      exact scanValue_atom fuel c _ quote bracket brace
  | float x =>
      rw [dumpsWith]
      exact scanValue_literal fuel x rest stops
  | str s =>
      have text : dumpsWith gap (.str s : Json F) ++ rest =
          '"' :: (s.toList.flatMap escapeChar ++ '"' :: rest) := by
        simp [dumpsWith, quoted]
      rw [text, scanValue, scanString_escaped]
      simp
  | arr items =>
      rw [dumpsWith] at enough ⊢
      simp only [List.length_cons, List.length_append, List.length_nil] at enough
      cases items with
      | nil => rfl
      | cons item more =>
          have text : '[' :: (dumpsItemsWith gap (item :: more) ++ [']']) ++ rest =
              '[' :: (dumpsItemsWith gap (item :: more) ++ ']' :: rest) := by simp
          obtain ⟨c, tail, start, begins⟩ := dumpsWith_begins gap item
          have opens : ∃ tail', dumpsItemsWith gap (item :: more) ++ ']' :: rest = c :: tail' := by
            rw [dumpsItemsWith, start]
            exact ⟨_, rfl⟩
          obtain ⟨tail', opens⟩ := opens
          have inner := scanItems_dumpsWith (item :: more) (by simp) (by simpa [Distinct] using distinct)
            fuel (by omega) rest
          rw [opens] at inner
          rw [text, opens, scanValue, dropWhile_begins c tail' begins]
          split
          · rename_i same
            injection same with here _
            exact absurd here begins.2.1
          · rw [inner]
            rfl
  | obj items =>
      rw [dumpsWith] at enough ⊢
      simp only [List.length_cons, List.length_append, List.length_nil] at enough
      cases items with
      | nil => rfl
      | cons item more =>
          have text : '{' :: (dumpsMembersWith gap (item :: more) ++ ['}']) ++ rest =
              '{' :: (dumpsMembersWith gap (item :: more) ++ '}' :: rest) := by simp
          have opens : ∃ tail', dumpsMembersWith gap (item :: more) ++ '}' :: rest = '"' :: tail' := by
            obtain ⟨key, value⟩ := item
            rw [dumpsMembersWith, quoted]
            exact ⟨_, rfl⟩
          obtain ⟨tail', opens⟩ := opens
          have inner := scanMembers_dumpsWith (item :: more) (by simp)
            (by simp only [Distinct] at distinct; exact distinct.2) fuel (by omega) rest
          have nodup : ((item :: more).map Prod.fst).Nodup := by
            simp only [Distinct] at distinct
            exact distinct.1
          rw [opens] at inner
          rw [text, opens, scanValue, dropWhile_begins '"' tail' (by decide)]
          split
          · rename_i same
            injection same with here _
            exact absurd here (by decide)
          · rw [inner]
            simp [ofPairs_nodup (item :: more) nodup]

theorem scanItems_dumpsWith (items : List (Json F)) (some_item : items ≠ [])
    (distinct : DistinctItems items) (fuel : Nat) (enough : (dumpsItemsWith gap items).length + 1 < fuel)
    (rest : Text) : scanItems fuel (dumpsItemsWith gap items ++ ']' :: rest) = some (items, rest) := by
  obtain ⟨fuel, rfl⟩ : ∃ more, fuel = more + 1 := ⟨fuel - 1, by omega⟩
  cases items with
  | nil => exact absurd rfl some_item
  | cons item more =>
      simp only [DistinctItems] at distinct
      simp only [dumpsItemsWith, List.length_append] at enough
      cases more with
      | nil =>
          have text : dumpsItemsWith gap [item] ++ ']' :: rest = dumpsWith gap item ++ ']' :: rest := by
            simp [dumpsItemsWith]
          rw [text, scanItems, scanValue_dumpsWith item distinct.1 fuel (by omega) _
            (stops_of _ _ _ (by decide))]
          rfl
      | cons next later =>
          have text : dumpsItemsWith gap (item :: next :: later) ++ ']' :: rest =
              dumpsWith gap item ++ ',' ::
                (gap ++ (dumpsItemsWith gap (next :: later) ++ ']' :: rest)) := by
            simp [dumpsItemsWith]
          obtain ⟨c, tail, start, begins⟩ := dumpsWith_begins gap next
          have opens : ∃ tail', dumpsItemsWith gap (next :: later) ++ ']' :: rest = c :: tail' := by
            rw [dumpsItemsWith, start]
            exact ⟨_, rfl⟩
          obtain ⟨tail', opens⟩ := opens
          have longer : 0 < (dumpsWith gap item).length := by
            obtain ⟨_, _, begun, _⟩ := dumpsWith_begins gap item
            rw [begun]
            simp
          have inner := scanItems_dumpsWith (next :: later) (by simp) distinct.2 fuel (by omega) rest
          rw [opens] at inner
          rw [text, scanItems, scanValue_dumpsWith item distinct.1 fuel (by omega) _
            (stops_of _ _ _ (by decide)), opens]
          simp only [Option.bind_some]
          rw [List.dropWhile_cons_of_neg (by decide)]
          show (scanItems fuel ((gap ++ c :: tail').dropWhile isSpace)).map
            (fun r => (item :: r.1, r.2)) = _
          rw [dropWhile_gap spaces c tail' begins, inner]
          rfl

theorem scanMembers_dumpsWith (items : List (String × Json F)) (some_item : items ≠ [])
    (distinct : DistinctMembers items) (fuel : Nat)
    (enough : (dumpsMembersWith gap items).length + 1 < fuel) (rest : Text) :
    scanMembers fuel (dumpsMembersWith gap items ++ '}' :: rest) = some (items, rest) := by
  obtain ⟨fuel, rfl⟩ : ∃ more, fuel = more + 1 := ⟨fuel - 1, by omega⟩
  cases items with
  | nil => exact absurd rfl some_item
  | cons item more =>
      obtain ⟨key, value⟩ := item
      simp only [DistinctMembers] at distinct
      simp only [dumpsMembersWith, List.length_append, List.length_cons] at enough
      obtain ⟨c, tail, start, begins⟩ := dumpsWith_begins gap value
      have spaced : ∀ after, (gap ++ (dumpsWith gap value ++ after)).dropWhile isSpace =
          dumpsWith gap value ++ after := by
        intro after
        rw [start, List.cons_append, dropWhile_gap spaces c _ begins]
      cases more with
      | nil =>
          have text : dumpsMembersWith gap [(key, value)] ++ '}' :: rest =
              '"' :: (key.toList.flatMap escapeChar ++ '"' :: ':' ::
                (gap ++ (dumpsWith gap value ++ '}' :: rest))) := by
            simp [dumpsMembersWith, quoted]
          rw [text, scanMembers, scanString_escaped]
          simp only [Option.bind_some]
          rw [List.dropWhile_cons_of_neg (by decide)]
          show (scanValue fuel ((gap ++ (dumpsWith gap value ++ '}' :: rest)).dropWhile isSpace)).bind _ = _
          rw [spaced, scanValue_dumpsWith value distinct.1 fuel (by omega) _
            (stops_of _ _ _ (by decide))]
          simp only [Option.bind_some]
          rw [List.dropWhile_cons_of_neg (by decide)]
          simp
      | cons next later =>
          have text : dumpsMembersWith gap ((key, value) :: next :: later) ++ '}' :: rest =
              '"' :: (key.toList.flatMap escapeChar ++ '"' :: ':' :: (gap ++ (dumpsWith gap value ++ ',' ::
                (gap ++ (dumpsMembersWith gap (next :: later) ++ '}' :: rest))))) := by
            simp [dumpsMembersWith, quoted]
          have opens : ∃ tail', dumpsMembersWith gap (next :: later) ++ '}' :: rest = '"' :: tail' := by
            obtain ⟨key', value'⟩ := next
            rw [dumpsMembersWith, quoted]
            exact ⟨_, rfl⟩
          obtain ⟨tail', opens⟩ := opens
          have inner := scanMembers_dumpsWith (next :: later) (by simp) distinct.2 fuel (by omega) rest
          rw [opens] at inner
          rw [text, scanMembers, scanString_escaped]
          simp only [Option.bind_some]
          rw [List.dropWhile_cons_of_neg (by decide)]
          show (scanValue fuel ((gap ++ (dumpsWith gap value ++ ',' ::
            (gap ++ (dumpsMembersWith gap (next :: later) ++ '}' :: rest)))).dropWhile isSpace)).bind _ = _
          rw [spaced, scanValue_dumpsWith value distinct.1 fuel (by omega) _
            (stops_of _ _ _ (by decide))]
          simp only [Option.bind_some]
          rw [List.dropWhile_cons_of_neg (by decide), opens]
          show (scanMembers fuel ((gap ++ '"' :: tail').dropWhile isSpace)).map
            (fun r => ((String.ofList key.toList, value) :: r.1, r.2)) = _
          rw [dropWhile_gap spaces '"' tail' (by decide), inner]
          simp

end

/-- The decoder reads back what the encoder wrote. -/
theorem loads_dumpsWith (v : Json F) (distinct : Distinct v) : loads (dumpsWith gap v) = some v := by
  obtain ⟨c, rest, text, begins⟩ := dumpsWith_begins gap v
  have scanned := scanValue_dumpsWith spaces v distinct ((dumpsWith gap v).length + 1) (by omega) []
    (by simp [Stops])
  rw [List.append_nil] at scanned
  unfold loads
  rw [if_neg]
  · rw [text, dropWhile_begins c rest begins, ← text, scanned]
    simp
  · rw [text, List.head?_cons]
    intro same
    injection same with same
    exact begins.2.2.2 same

end Gap

theorem loads_dumps (v : Json F) (distinct : Distinct v) : loads (dumps v) = some v := by
  rw [dumps_with]
  exact loads_dumpsWith (each_of_all (by decide)) v distinct

/-! ### What the decoder makes -/

omit [FloatText F] in
theorem distinct_member (items : Dict F) (distinct : DistinctMembers items) :
    ∀ item ∈ items, Distinct item.2 := by
  induction items with
  | nil =>
      intro item member
      cases member
  | cons first rest ih =>
      rw [DistinctMembers] at distinct
      intro item member
      rcases List.mem_cons.mp member with rfl | later
      · exact distinct.1
      · exact ih distinct.2 item later

omit [FloatText F] in
theorem distinct_members (items : Dict F) (each : ∀ item ∈ items, Distinct item.2) :
    DistinctMembers items := by
  induction items with
  | nil => trivial
  | cons first rest ih =>
      rw [DistinctMembers]
      exact ⟨each first List.mem_cons_self,
        ih fun item member => each item (List.mem_cons_of_mem _ member)⟩

omit [FloatText F] in
theorem keys_set (d : Dict F) (key : String) (value : Json F) (nodup : (d.map Prod.fst).Nodup) :
    ((set d key value).map Prod.fst).Nodup := by
  by_cases present : key ∈ d.map Prod.fst
  · have keys : (set d key value).map Prod.fst = d.map Prod.fst := by
      obtain ⟨item, member, same⟩ := List.mem_map.mp present
      unfold set
      rw [if_pos (List.any_eq_true.mpr ⟨item, member, by simpa using same⟩), List.map_map]
      apply List.map_congr_left
      intro other _
      by_cases here : other.1 = key
      · simp [here]
      · simp [here]
    rw [keys]
    exact nodup
  · rw [set_new d key value present, List.map_append, List.nodup_append]
    refine ⟨nodup, List.nodup_singleton key, ?_⟩
    intro other member last single same
    rw [List.map_singleton, List.mem_singleton] at single
    rw [same, single] at member
    exact present member

omit [FloatText F] in
theorem mem_set (d : Dict F) (key : String) (value : Json F) (item : String × Json F)
    (member : item ∈ set d key value) : item ∈ d ∨ item = (key, value) := by
  unfold set at member
  split at member
  · obtain ⟨old, given, rfl⟩ := List.mem_map.mp member
    split
    · exact Or.inr rfl
    · exact Or.inl given
  · rcases List.mem_append.mp member with old | last
    · exact Or.inl old
    · exact Or.inr (List.mem_singleton.mp last)

omit [FloatText F] in
theorem ofPairs_distinct (pairs : Dict F) (each : DistinctMembers pairs) :
    Distinct (.obj (ofPairs pairs)) := by
  have fold : ∀ pairs d : Dict F, DistinctMembers pairs → Distinct (.obj d) →
      Distinct (.obj (pairs.foldl (fun d p => set d p.1 p.2) d)) := by
    intro pairs
    induction pairs with
    | nil => exact fun d _ distinct => distinct
    | cons p rest ih =>
        intro d values distinct
        rw [DistinctMembers] at values
        rw [Distinct] at distinct
        rw [List.foldl_cons]
        apply ih _ values.2
        rw [Distinct]
        refine ⟨keys_set d p.1 p.2 distinct.1, distinct_members _ ?_⟩
        intro item member
        rcases mem_set d p.1 p.2 item member with old | rfl
        · exact distinct_member d distinct.2 item old
        · exact values.1
  exact fold pairs [] each (by simp [Distinct, DistinctMembers])

theorem numeralValue_distinct (n : Numeral) : Distinct (numeralValue n : Json F) := by
  unfold numeralValue
  split <;> simp [Distinct]

omit [FloatText F] in
theorem scanKeyword_distinct (s : Text) (words : List (Text × Json F))
    (each : ∀ word ∈ words, Distinct word.2) (scanned : Json F × Text)
    (here : scanKeyword s words = some scanned) : Distinct scanned.1 := by
  induction words with
  | nil => cases here
  | cons word rest ih =>
      rw [scanKeyword] at here
      split at here
      · injection here with here
        rw [← here]
        exact each word List.mem_cons_self
      · exact ih (fun other member => each other (List.mem_cons_of_mem _ member)) here

theorem scanAtom_distinct (s : Text) (scanned : Json F × Text)
    (here : scanAtom s = some scanned) : Distinct scanned.1 := by
  unfold scanAtom at here
  split at here
  · rename_i found
    injection here with here
    subst here
    apply scanKeyword_distinct s keywords _ _ found
    intro word member
    simp only [keywords, List.mem_cons, List.not_mem_nil, or_false] at member
    rcases member with rfl | rfl | rfl | rfl | rfl | rfl <;> simp [Distinct]
  · obtain ⟨r, _, rfl⟩ := Option.map_eq_some_iff.mp here
    exact numeralValue_distinct r.1

theorem scan_distinct (fuel : Nat) :
    (∀ s (scanned : Json F × Text), scanValue fuel s = some scanned → Distinct scanned.1) ∧
    (∀ s (scanned : List (Json F) × Text),
      scanItems fuel s = some scanned → DistinctItems scanned.1) ∧
    (∀ s (scanned : List (String × Json F) × Text),
      scanMembers fuel s = some scanned → DistinctMembers scanned.1) := by
  induction fuel with
  | zero =>
      refine ⟨?_, ?_, ?_⟩
      · intro s scanned here
        rw [scanValue] at here
        cases here
      · intro s scanned here
        rw [scanItems] at here
        cases here
      · intro s scanned here
        rw [scanMembers] at here
        cases here
  | succ fuel ih =>
      obtain ⟨values, items, members⟩ := ih
      refine ⟨?_, ?_, ?_⟩
      · intro s scanned here
        unfold scanValue at here
        split at here
        · obtain ⟨r, _, rfl⟩ := Option.map_eq_some_iff.mp here
          simp [Distinct]
        · split at here
          · injection here with here
            subst here
            simp [Distinct, DistinctItems]
          · obtain ⟨r, inner, rfl⟩ := Option.map_eq_some_iff.mp here
            rw [Distinct]
            exact items _ r inner
        · split at here
          · injection here with here
            subst here
            simp [Distinct, DistinctMembers]
          · obtain ⟨r, inner, rfl⟩ := Option.map_eq_some_iff.mp here
            exact ofPairs_distinct _ (members _ r inner)
        · exact scanAtom_distinct _ scanned here
      · intro s scanned here
        unfold scanItems at here
        obtain ⟨item, first, here⟩ := Option.bind_eq_some_iff.mp here
        split at here
        · injection here with here
          subst here
          exact ⟨values _ item first, trivial⟩
        · obtain ⟨r, later, rfl⟩ := Option.map_eq_some_iff.mp here
          exact ⟨values _ item first, items _ r later⟩
        · cases here
      · intro s scanned here
        unfold scanMembers at here
        split at here
        · obtain ⟨key, _, here⟩ := Option.bind_eq_some_iff.mp here
          split at here
          · obtain ⟨value, first, here⟩ := Option.bind_eq_some_iff.mp here
            split at here
            · injection here with here
              subst here
              exact ⟨values _ value first, trivial⟩
            · obtain ⟨r, later, rfl⟩ := Option.map_eq_some_iff.mp here
              exact ⟨values _ value first, members _ r later⟩
            · cases here
          · cases here
        · cases here

/-- A decoded object holds every key once. -/
theorem loads_distinct (s : Text) (value : Json F) (here : loads s = some value) :
    Distinct value := by
  unfold loads at here
  split at here
  · cases here
  · split at here
    · rename_i scanned
      split at here
      · injection here with here
        rw [← here]
        exact (scan_distinct _).1 _ _ scanned
      · cases here
    · cases here

/-! ### What the encoder writes -/

/-- A character that the encoder may write. -/
def Printable (c : Char) : Prop := 32 ≤ c.toNat

instance : DecidablePred Printable := fun _ => inferInstanceAs (Decidable (_ ≤ _))

theorem printable_escapeChar (c d : Char) (member : d ∈ escapeChar c) : Printable d := by
  have hexadecimal : ∀ n, n < 16 → Printable (hexChar n) := by decide
  unfold escapeChar at member
  iterate 7
    split at member
    · exact each_of_all (by decide) d member
  split at member
  · simp only [List.mem_cons, List.not_mem_nil, or_false] at member
    rcases member with rfl | rfl | rfl | rfl | rfl | rfl
    · decide
    · decide
    · decide
    · decide
    · exact hexadecimal _ (by omega)
    · exact hexadecimal _ (Nat.mod_lt _ (by decide))
  · rename_i control
    rw [List.mem_singleton] at member
    subst member
    exact Nat.le_of_not_lt control

theorem printable_quoted (s : Text) : ∀ c ∈ quoted s, Printable c := by
  intro c member
  simp only [quoted, List.mem_cons, List.mem_append, List.mem_flatMap, List.not_mem_nil,
    or_false] at member
  rcases member with rfl | ⟨d, _, inside⟩ | rfl
  · decide
  · exact printable_escapeChar d c inside
  · decide

/-- A character that every encoding writes as it is. -/
def Ascii (c : Char) : Prop := 32 ≤ c.toNat ∧ c.toNat < 127

instance : DecidablePred Ascii := fun _ => inferInstanceAs (Decidable (_ ∧ _))

theorem ascii_digit (c : Char) (digit : isDigit c = true) : Ascii c := by
  unfold isDigit at digit
  have bounds := of_decide_eq_true digit
  exact ⟨Nat.le_trans (by decide) bounds.1, Nat.lt_of_le_of_lt bounds.2 (by decide)⟩

theorem ascii_numeral (n : Numeral) (valid : n.Valid) : ∀ c ∈ n.text, Ascii c := by
  intro c member
  simp only [Numeral.text, List.mem_append] at member
  rcases member with sign | whole | fraction | exponent
  · cases negative : n.negative with
    | true =>
        rw [negative, signText, if_pos rfl, List.mem_singleton] at sign
        subst sign
        decide
    | false =>
        rw [negative] at sign
        cases sign
  · rcases valid.whole with zero | ⟨_, _, _, _, all⟩
    · rw [zero, List.mem_singleton] at whole
      subst whole
      decide
    · exact ascii_digit c (all c whole)
  · cases some_fraction : n.fraction with
    | none =>
        rw [some_fraction] at fraction
        cases fraction
    | some digits =>
        rw [some_fraction, fractionText, List.mem_cons] at fraction
        rcases fraction with rfl | inside
        · decide
        · exact ascii_digit c ((valid.fraction digits some_fraction).2 c inside)
  · cases some_exponent : n.exponent with
    | none =>
        rw [some_exponent] at exponent
        cases exponent
    | some digits =>
        rw [some_exponent, exponentText, List.mem_cons] at exponent
        obtain ⟨sign, run, rfl, signs, _, all⟩ := valid.exponent digits some_exponent
        rcases exponent with rfl | inside
        · decide
        · rcases List.mem_append.mp inside with sign_char | digit
          · rcases signs with rfl | rfl | rfl
            · cases sign_char
            · rw [List.mem_singleton] at sign_char
              subst sign_char
              decide
            · rw [List.mem_singleton] at sign_char
              subst sign_char
              decide
          · exact ascii_digit c (all c digit)

theorem ascii_literal (x : F) : ∀ c ∈ literalText (FloatText.literal x), Ascii c := by
  cases here : FloatText.literal x with
  | nan => exact each_of_all (by decide)
  | infinity negative => cases negative <;> exact each_of_all (by decide)
  | decimal n => exact ascii_numeral n (FloatText.valid x n here).1

section Each

variable {p : Char → Prop} (ascii : ∀ c, Ascii c → p c)

include ascii

mutual

/-- The encoder writes ASCII, but for strings and keys. -/
theorem dumps_each (v : Json F) (texts : ∀ s ∈ textsOf v, ∀ c ∈ quoted s, p c) : ∀ c ∈ dumps v, p c := by
  cases v with
  | null =>
      rw [dumps]
      exact fun c member => ascii c (each_of_all (by decide) c member)
  | bool b => cases b <;> rw [dumps] <;> exact fun c member => ascii c (each_of_all (by decide) c member)
  | int n =>
      rw [dumps]
      exact fun c member => ascii c (ascii_numeral _ (intNumeral_valid n) c member)
  | float x =>
      rw [dumps]
      exact fun c member => ascii c (ascii_literal x c member)
  | str s =>
      rw [dumps]
      exact texts _ (by simp [textsOf])
  | arr items =>
      intro c member
      rw [dumps] at member
      simp only [List.mem_cons, List.mem_append, List.not_mem_nil, or_false] at member
      rcases member with rfl | inside | rfl
      · exact ascii _ (by decide)
      · exact dumpsItems_each items (by simpa only [textsOf] using texts) c inside
      · exact ascii _ (by decide)
  | obj items =>
      intro c member
      rw [dumps] at member
      simp only [List.mem_cons, List.mem_append, List.not_mem_nil, or_false] at member
      rcases member with rfl | inside | rfl
      · exact ascii _ (by decide)
      · exact dumpsMembers_each items (by simpa only [textsOf] using texts) c inside
      · exact ascii _ (by decide)

theorem dumpsItems_each (items : List (Json F)) (texts : ∀ s ∈ textsOfItems items, ∀ c ∈ quoted s, p c) :
    ∀ c ∈ dumpsItems items, p c := by
  cases items with
  | nil =>
      intro c member
      rw [dumpsItems] at member
      cases member
  | cons item rest =>
      intro c member
      simp only [textsOfItems, List.mem_append, or_imp, forall_and] at texts
      rw [dumpsItems, List.mem_append, List.mem_append] at member
      rcases member with here | comma | later
      · exact dumps_each item texts.1 c here
      · refine ascii c ?_
        revert comma
        cases rest.isEmpty <;> exact each_of_all (by decide) c
      · exact dumpsItems_each rest texts.2 c later

theorem dumpsMembers_each (items : List (String × Json F)) (texts : ∀ s ∈ textsOfMembers items, ∀ c ∈ quoted s, p c) :
    ∀ c ∈ dumpsMembers items, p c := by
  cases items with
  | nil =>
      intro c member
      rw [dumpsMembers] at member
      cases member
  | cons item rest =>
      obtain ⟨key, value⟩ := item
      intro c member
      simp only [textsOfMembers, List.mem_cons, List.mem_append, or_imp, forall_and, forall_eq] at texts
      rw [dumpsMembers] at member
      simp only [List.mem_append, List.mem_cons] at member
      rcases member with name | rfl | rfl | here | comma | later
      · exact texts.1 c name
      · exact ascii _ (by decide)
      · exact ascii _ (by decide)
      · exact dumps_each value texts.2.1 c here
      · refine ascii c ?_
        revert comma
        cases rest.isEmpty <;> exact each_of_all (by decide) c
      · exact dumpsMembers_each rest texts.2.2 c later

end

end Each

theorem printable_dumps (v : Json F) : ∀ c ∈ dumps v, Printable c :=
  dumps_each (fun _ ascii => ascii.1) v fun s _ => printable_quoted s

/-- Which values are written as a word. -/
theorem dumps_word (v : Json F) : ∃ c rest, dumps v = c :: rest ∧ c ≠ 's' ∧
    (c = 't' → v = .bool true) := by
  have numeral : ∀ c, (c = '-' ∨ isDigit c = true) → c ≠ 's' ∧ (c = 't' → v = .bool true) := by
    rintro c (rfl | digit)
    · exact ⟨by decide, fun same => absurd same (by decide)⟩
    · refine ⟨?_, ?_⟩
      · rintro rfl
        exact absurd digit (by decide)
      · rintro rfl
        exact absurd digit (by decide)
  cases v with
  | null => exact ⟨_, _, by rw [dumps], by decide, fun same => absurd same (by decide)⟩
  | bool b =>
      cases b with
      | true => exact ⟨_, _, by rw [dumps], by decide, fun _ => rfl⟩
      | false => exact ⟨_, _, by rw [dumps], by decide, fun same => absurd same (by decide)⟩
  | int n =>
      obtain ⟨c, rest, text, first⟩ := numeral_head _ (intNumeral_valid n)
      exact ⟨c, rest, by rw [dumps, text], numeral c first⟩
  | float x =>
      rw [dumps]
      cases here : FloatText.literal x with
      | nan => exact ⟨_, _, rfl, by decide, fun same => absurd same (by decide)⟩
      | infinity negative =>
          cases negative <;> exact ⟨_, _, rfl, by decide, fun same => absurd same (by decide)⟩
      | decimal n =>
          obtain ⟨c, rest, text, first⟩ := numeral_head n (FloatText.valid x n here).1
          exact ⟨c, rest, text, numeral c first⟩
  | str s => exact ⟨_, _, by rw [dumps]; rfl, by decide, fun same => absurd same (by decide)⟩
  | arr items => exact ⟨_, _, by rw [dumps], by decide, fun same => absurd same (by decide)⟩
  | obj items => exact ⟨_, _, by rw [dumps], by decide, fun same => absurd same (by decide)⟩

/-- A bracket that the encoder writes is followed by no such word. -/
theorem dumps_bracket (v : Json F) (word : Text)
    (begins : (∃ rest, word = '[' :: 's' :: rest) ∨ ∃ rest, word = '[' :: 't' :: 'e' :: rest) :
    ¬ word <+: dumps v := by
  intro starts
  have opening : ∃ rest, dumps v = '[' :: rest := by
    rcases begins with ⟨rest, rfl⟩ | ⟨rest, rfl⟩ <;> obtain ⟨tail, same⟩ := starts <;>
      exact ⟨_, same.symm⟩
  obtain ⟨rest, text⟩ := opening
  have array : ∃ items, v = .arr items := by
    cases v with
    | arr items => exact ⟨items, rfl⟩
    | null => rw [dumps] at text; cases text
    | bool b => cases b <;> rw [dumps] at text <;> cases text
    | int n =>
        obtain ⟨c, rest', text', first⟩ := numeral_head _ (intNumeral_valid n)
        rw [dumps, text'] at text
        injection text with same _
        subst same
        exact absurd first (by decide)
    | float x =>
        rw [dumps] at text
        cases here : FloatText.literal x with
        | nan => rw [here] at text; cases text
        | infinity negative => rw [here] at text; cases negative <;> cases text
        | decimal n =>
            obtain ⟨c, rest', text', first⟩ := numeral_head n (FloatText.valid x n here).1
            rw [here, literalText, text'] at text
            injection text with same _
            subst same
            exact absurd first (by decide)
    | str s => rw [dumps] at text; cases text
    | obj items => rw [dumps] at text; cases text
  obtain ⟨items, rfl⟩ := array
  cases items with
  | nil =>
      rw [dumps, dumpsItems] at starts
      rcases begins with ⟨_, rfl⟩ | ⟨_, rfl⟩ <;> obtain ⟨tail, same⟩ := starts <;> cases same
  | cons item others =>
      obtain ⟨c, more, word_text, no_s, truth⟩ := dumps_word item
      rw [dumps, dumpsItems] at starts
      obtain ⟨tail, same⟩ := starts
      rcases begins with ⟨_, rfl⟩ | ⟨_, rfl⟩
      · rw [word_text] at same
        injection same with _ same
        injection same with here _
        exact no_s here.symm
      · have first : c = 't' := by
          rw [word_text] at same
          injection same with _ same
          injection same with here _
          exact here.symm
        rw [truth first, dumps] at same
        cases same

end Json

end AtrexAgent
