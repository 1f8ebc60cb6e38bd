import StellarAlerts.JsonTexts
import StellarAlerts.OrderedMaps

/-!
What JavaScript makes of JSON values: which are truthy, and their texts and numbers.
An object whose own `toString` hides the inherited one has neither, and no array that
holds it has (`toText_ok_iff`).
-/
namespace StellarAlerts.JsValues
open JsonTexts Numbers OrderedMaps

/-- The texts of numbers, the numbers of texts, and lower case. -/
structure Texts where
  double : String → Number
  ofNumber : Number → String
  toLowerCase : String → String

/-- The error of a value that lacks what is asked of it. -/
def typeError : String := "TypeError"

def truthy : Json → Bool
  | .null => false
  | .bool b => b
  | .number .nan => false
  | .number (.infinite _) => true
  | .number (.finite q) => q ≠ 0
  | .string s => s ≠ ""
  | .array _ => true
  | .object _ => true

def isText (v : Option Json) (text : String) : Bool :=
  match v with
  | some (.string s) => s = text
  | _ => false

def isArray : Option Json → Bool
  | some (.array _) => true
  | _ => false

def isNull : Json → Bool
  | .null => true
  | _ => false

/-- `{...v}` of an object; of other values nothing is spread. -/
def spread : Option Json → OrderedMap String Json
  | some (.object members) => .ofList members
  | _ => .empty

theorem get_spread (members : List (String × Json)) (key : String) :
    (spread (some (.object members))).get key = lookup members key := get_ofList members key
theorem spread_entries (m : OrderedMap String Json) : spread (some (.object m.entries)) = m := ofList_entries m

section Conversions
variable (t : Texts)

mutual

/-- `String(v)`. -/
def toText : Json → Except String String
  | .null => .ok "null"
  | .bool b => .ok (if b then "true" else "false")
  | .number n => .ok (t.ofNumber n)
  | .string s => .ok s
  | .array items =>
    match parts items with
    | .ok texts => .ok (String.intercalate "," texts)
    | .error e => .error e
  | .object members => if (lookup members "toString").isSome then .error typeError else .ok "[object Object]"

/-- What an array joins: nothing for a null. -/
def parts : List Json → Except String (List String)
  | [] => .ok []
  | item :: rest =>
    match toText item, parts rest with
    | .ok text, .ok texts => .ok ((if isNull item then "" else text) :: texts)
    | .error e, _ => .error e
    | _, .error e => .error e

end

/-- `Number(v)`. -/
def toNumber : Json → Except String Number
  | .null => .ok (.finite 0)
  | .bool b => .ok (.finite (if b then 1 else 0))
  | .number n => .ok n
  | .string s => .ok (t.double s)
  | v => (toText t v).map t.double

/-- The texts of an array's items. -/
def toTexts : List Json → Except String (List String)
  | [] => .ok []
  | item :: rest =>
    match toText t item, toTexts rest with
    | .ok text, .ok texts => .ok (text :: texts)
    | .error e, _ => .error e
    | _, .error e => .error e

end Conversions

mutual

/-- A value that has a text. -/
def convertible : Json → Bool
  | .array items => allConvertible items
  | .object members => !(lookup members "toString").isSome
  | _ => true

def allConvertible : List Json → Bool
  | [] => true
  | item :: rest => convertible item && allConvertible rest

end

/-- What is mapped throws where it threw before. -/
theorem map_ok_iff {ε α β : Type} {x : Except ε α} (f : α → β) : (∃ b, x.map f = .ok b) ↔ ∃ a, x = .ok a := by
  cases x <;> simp [Except.map]

section Results
variable {t : Texts}

mutual

theorem toText_ok_iff : (v : Json) → ((∃ text, toText t v = .ok text) ↔ convertible v = true)
  | .null => by simp [toText,convertible]
  | .bool b => by simp [toText,convertible]
  | .number n => by simp [toText,convertible]
  | .string s => by simp [toText,convertible]
  | .array items => by
    rw [toText,convertible,← parts_ok_iff items]
    cases parts t items <;> simp
  | .object members => by
    rw [toText,convertible]
    cases (lookup members "toString").isSome <;> simp

theorem parts_ok_iff : (items : List Json) → ((∃ texts, parts t items = .ok texts) ↔ allConvertible items = true)
  | [] => by simp [parts,allConvertible]
  | item :: rest => by
    rw [parts,allConvertible,Bool.and_eq_true,← toText_ok_iff item,← parts_ok_iff rest]
    cases toText t item <;> cases parts t rest <;> simp

end

theorem toNumber_ok_iff (v : Json) : (∃ n, toNumber t v = .ok n) ↔ convertible v = true := by
  have mapped : (∃ n, (toText t v).map t.double = .ok n) ↔ convertible v = true :=
    (map_ok_iff t.double).trans (toText_ok_iff v)
  cases v with
  | array items => exact mapped
  | object members => exact mapped
  | _ => simp [toNumber,convertible]

theorem toTexts_ok_iff (items : List Json) : (∃ texts, toTexts t items = .ok texts) ↔ allConvertible items = true := by
  induction items with
  | nil => simp [toTexts,allConvertible]
  | cons item rest ih =>
    rw [toTexts,allConvertible,Bool.and_eq_true,← toText_ok_iff (t := t) item,← ih]
    cases toText t item <;> cases toTexts t rest <;> simp

end Results

end StellarAlerts.JsValues
