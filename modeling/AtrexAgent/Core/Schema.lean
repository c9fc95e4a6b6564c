import AtrexAgent.Library.Json

/-! Validation of a config against a plugin's schema, itself a JSON object. -/

namespace AtrexAgent.Schema

open AtrexAgent.Json

variable {F : Type}

/-- How floats compare with numbers. -/
structure Floats (F : Type) where
  finite : F → Bool
  le : F → F → Bool
  leInt : F → Int → Bool
  intLe : Int → F → Bool
  same : F → F → Bool
  sameInt : F → Int → Bool

def ofBool (b : Bool) : Int := if b then 1 else 0

/-- `a == b` of numbers. -/
def sameNumber (floats : Floats F) : Json F → Json F → Bool
  | .int m, .int n => m = n
  | .int m, .float y => floats.sameInt y m
  | .float x, .int n => floats.sameInt x n
  | .float x, .float y => floats.same x y
  | _, _ => false

/-- A boolean as the integer that it is. -/
def unbool : Json F → Json F
  | .bool b => .int (ofBool b)
  | value => value

mutual

/-- `a == b` -/
def equal (floats : Floats F) : Json F → Json F → Bool
  | .null, .null => true
  | .str s, .str t => s = t
  | .arr items, .arr items' => equalItems floats items items'
  | .obj items, .obj items' => items.length = items'.length && equalMembers floats items items'
  | a, b => sameNumber floats (unbool a) (unbool b)

def equalItems (floats : Floats F) : List (Json F) → List (Json F) → Bool
  | [], [] => true
  | a :: rest, b :: rest' => equal floats a b && equalItems floats rest rest'
  | _, _ => false

def equalMembers (floats : Floats F) : Dict F → Dict F → Bool
  | [], _ => true
  | (key, value) :: rest, items =>
      (match find? items key with
        | some other => equal floats value other
        | none => false) && equalMembers floats rest items

end

/-- `a <= b` of numbers. -/
def atMost (floats : Floats F) : Json F → Json F → Bool
  | .int m, .int n => m ≤ n
  | .int m, .float y => floats.intLe m y
  | .float x, .int n => floats.leInt x n
  | .float x, .float y => floats.le x y
  | _, _ => false

/-- `isinstance(value, types[kind])`, where no boolean is a number. -/
def hasKind : String → Json F → Bool
  | "object", .obj _ => true
  | "array", .arr _ => true
  | "string", .str _ => true
  | "integer", .int _ => true
  | "number", .int _ => true
  | "number", .float _ => true
  | "boolean", .bool _ => true
  | "null", .null => true
  | _, _ => false

def textOf : Json F → String
  | .str text => text
  | _ => ""

def itemsOf : Json F → List (Json F)
  | .arr items => items
  | _ => []

def membersOf : Json F → Dict F
  | .obj items => items
  | _ => []

def minLength (schema : Dict F) : Int :=
  match find? schema "minLength" with
  | some (.int n) => n
  | _ => 0

def inRange (floats : Floats F) (schema : Dict F) (value : Json F) : Bool :=
  (match find? schema "minimum" with | some least => atMost floats least value | none => true) &&
    match find? schema "maximum" with | some most => atMost floats value most | none => true

def fail {α : Type} (path message : String) : Except String α := .error (path ++ ": " ++ message)

/-- What `validate_schema` checks before it looks inside a value. -/
def checkKind (floats : Floats F) (schema : Dict F) (value : Json F) (path : String) : Except String Unit :=
  if !hasKind (textOf (get schema "type")) value then
    fail path ("expected " ++ textOf (get schema "type"))
  else match find? schema "enum" with
    | some allowed =>
        if (itemsOf allowed).any (equal floats value) then .ok () else fail path "unsupported value"
    | none => .ok ()

def checkRequired (value : Dict F) (path : String) : List (Json F) → Except String Unit
  | [] => .ok ()
  | key :: rest =>
      if (find? value (textOf key)).isNone then fail path ("missing " ++ textOf key)
      else checkRequired value path rest

/-- The schema of a field: `properties.get(key, schema.get("additionalProperties", True))`. -/
def childOf (schema : Dict F) (key : String) : Json F :=
  (find? (membersOf (get schema "properties")) key).getD
    ((find? schema "additionalProperties").getD (.bool true))

mutual

/-- `validate_schema`, of a schema that `check_schema` has passed. -/
def validateSchema (floats : Floats F) (schema : Dict F) (value : Json F) (path : String) :
    Except String Unit := do
  checkKind floats schema value path
  match value with
  | .obj items => do
      checkRequired items path (itemsOf (get schema "required"))
      validateMembers floats schema items path
  | .arr items => validateItems floats (membersOf (get schema "items")) items path 0
  | .str text =>
      if (text.length : Int) < minLength schema then fail path "string is empty or too short"
      else .ok ()
  | .int n =>
      if inRange floats schema (.int n) then .ok () else fail path "number outside allowed range"
  | .float x =>
      if floats.finite x && inRange floats schema (.float x) then .ok ()
      else fail path "number outside allowed range"
  | .null => .ok ()
  | .bool _ => .ok ()

def validateMembers (floats : Floats F) (schema : Dict F) : Dict F → String → Except String Unit
  | [], _ => .ok ()
  | (key, item) :: rest, path => do
      match childOf schema key with
      | .bool false => fail path ("unknown field " ++ key)
      | .obj child => validateSchema floats child item (path ++ "." ++ key)
      | _ => pure ()
      validateMembers floats schema rest path

def validateItems (floats : Floats F) (schema : Dict F) : List (Json F) → String → Nat → Except String Unit
  | [], _, _ => .ok ()
  | item :: rest, path, index => do
      validateSchema floats schema item (path ++ "[" ++ toString index ++ "]")
      validateItems floats schema rest path (index + 1)

end

end AtrexAgent.Schema
