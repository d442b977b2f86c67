import Outline.Json.Document
import Outline.Text.Quoted

/-!
# Reading typed values from a document

A decoder takes a document apart in the order of the text. A record may be an object, with
its fields in any order and unknown ones passed over, or as an array of all its fields in their
order. A value of an enumeration is a string, or an object with the string as its only key and null
as its value.
-/
namespace Outline.Json

/-- How a well-formed text fails to fit. -/
inductive Mismatch where
  | invalidType (found : Unexpected) (expected : String)
  | invalidValue (found : Unexpected) (expected : String)
  | invalidLength (length : Nat) (expected : String)
  | missingField (name : String)
  | duplicateField (name : String)
  | unknownVariant (name : String) (known : List String)
  deriving DecidableEq, Repr, Inhabited

inductive Fault where
  /-- The text is not well formed. -/
  | malformed
  | mismatch (m : Mismatch)
  deriving DecidableEq, Repr, Inhabited

def Unexpected.describe : Unexpected → String
  | .null => "null"
  | .bool b => "boolean `" ++ toString b ++ "`"
  | .number (.natural n) => "integer `" ++ toString n ++ "`"
  | .number (.negative n) => "integer `-" ++ toString n ++ "`"
  | .number (.fraction isNegative x) =>
    "floating point `" ++ (if isNegative then "-" else "") ++ x.render ++ "`"
  | .string s => "string " ++ Text.quoted s
  | .sequence => "sequence"
  | .map => "map"

/-- A choice of names: one, two with "or" between them, or a list. -/
def alternatives (names : List String) : String :=
  match names.map fun n => "`" ++ n ++ "`" with
  | [] => "there are no variants"
  | [a] => a
  | [a, b] => a ++ " or " ++ b
  | all => "one of " ++ ", ".intercalate all

def Mismatch.message : Mismatch → String
  | .invalidType found expected =>
    "invalid type: " ++ found.describe ++ ", expected " ++ expected
  | .invalidValue found expected =>
    "invalid value: " ++ found.describe ++ ", expected " ++ expected
  | .invalidLength n expected => "invalid length " ++ toString n ++ ", expected " ++ expected
  | .missingField name => "missing field `" ++ name ++ "`"
  | .duplicateField name => "duplicate field `" ++ name ++ "`"
  | .unknownVariant name known =>
    "unknown variant `" ++ name ++ "`, expected " ++ alternatives known

abbrev Decoder (α : Type) := Doc → Except Fault α

/-- What a document is, where something else was expected. Brackets are not looked into. -/
def Doc.unexpected : Decoder Unexpected
  | .null => .ok .null
  | .bool b => .ok (.bool b)
  | .number n =>
    match n.number? with
    | some n => .ok (.number n)
    | none => .error .malformed
  | .string (some s) => .ok (.string s)
  | .string none => .error .malformed
  | .array .. => .ok .sequence
  | .object .. => .ok .map
  | .broken => .error .malformed

def expected {α : Type} (what : String) : Decoder α := fun d => do
  .error (.mismatch (.invalidType (← d.unexpected) what))

/-! ## Scalars -/

def decodeString : Decoder String
  | .string (some s) => .ok s
  | d => expected "a string" d

def decodeBool : Decoder Bool
  | .bool b => .ok b
  | d => expected "a boolean" d

/-- A number of 64 bits without a sign. -/
def decodeWord : Decoder Nat
  | .number n =>
    match n.number? with
    | some (.natural k) => .ok k
    | some (.negative k) => .error (.mismatch (.invalidValue (.number (.negative k)) "usize"))
    | _ => expected "usize" (.number n)
  | d => expected "usize" d

def decodeNullable {α : Type} (decode : Decoder α) : Decoder (Option α)
  | .null => .ok none
  | d => some <$> decode d

/-! ## Sequences and enumerations -/

def decodeItems {α : Type} (decode : Decoder α) : List Doc → Except Fault (List α)
  | [] => .ok []
  | d :: ds => do
    let a ← decode d
    return a :: (← decodeItems decode ds)

def decodeArray {α : Type} (decode : Decoder α) : Decoder (List α)
  | .array items closed => do
    let as ← decodeItems decode items
    if closed then return as else .error .malformed
  | d => expected "a sequence" d

def decodeNull : Decoder Unit
  | .null => .ok ()
  | d => expected "unit" d

def decodeVariant {α : Type} (known : List String) (ofTag? : String → Option α) : Decoder α
  | .string (some s) => select s
  | .object ((.text (some s), d) :: more) closed => do
    let a ← select s
    decodeNull d
    if more.isEmpty && closed then return a else .error .malformed
  | .object ((.stray found, _) :: _) _ =>
    .error (.mismatch (.invalidType found "variant identifier"))
  | _ => .error .malformed
where
  select (s : String) : Except Fault α :=
    match ofTag? s with
    | some a => .ok a
    | none => .error (.mismatch (.unknownVariant s known))

/-! ## Records -/

/-- A field of a record that is being read into `σ`. -/
structure Field (σ : Type) where
  name : String
  isSet : σ → Bool
  read : Doc → σ → Except Fault σ

/-- A field whose value is kept as an option. -/
def Field.of {σ α : Type} (name : String) (decode : Decoder α) (get : σ → Option α)
    (set : σ → α → σ) : Field σ :=
  { name, isSet := fun s => (get s).isSome, read := fun d s => do return set s (← decode d) }

def readMembers {σ : Type} (fields : List (Field σ)) :
    List (Key × Doc) → σ → Except Fault σ
  | [], s => .ok s
  | (.text (some key), d) :: ms, s =>
    match fields.find? (·.name == key) with
    | some field => do
      if field.isSet s then .error (.mismatch (.duplicateField key))
      else readMembers fields ms (← field.read d s)
    | none => if d.intact then readMembers fields ms s else .error .malformed
  | _ :: _, _ => .error .malformed

/-- Reads the items of an array into fields, from the `i`-th on. -/
def readItems {σ : Type} (what : String) (closed : Bool) :
    (i : Nat) → List (Field σ) → List Doc → σ → Except Fault σ
  | _, [], items, s => if items.isEmpty && closed then .ok s else .error .malformed
  | i, field :: fields, d :: ds, s => do readItems what closed (i + 1) fields ds (← field.read d s)
  | i, _ :: _, [], _ =>
    if closed then .error (.mismatch (.invalidLength i what)) else .error .malformed

/-- Reads a record; `build` makes it from the fields that were read. -/
def decodeRecord {σ α : Type} (name : String) (fields : List (Field σ)) (none : σ)
    (build : σ → Except Fault α) : Decoder α
  | .object members closed => do
    let s ← readMembers fields members none
    if closed then build s else .error .malformed
  | .array items closed => do
    let what := "struct " ++ name ++ " with " ++ toString fields.length ++ " elements"
    build (← readItems what closed 0 fields items none)
  | d => expected ("struct " ++ name) d

/-- A field that must have been read. -/
def require {α : Type} (name : String) : Option α → Except Fault α
  | some a => .ok a
  | none => .error (.mismatch (.missingField name))

/-- Reads a whole text. -/
def decodeText {α : Type} (decode : Decoder α) (text : String) : Except Fault α := do
  let document := Document.read text
  let a ← decode document.root
  if document.complete then return a else .error .malformed

end Outline.Json
