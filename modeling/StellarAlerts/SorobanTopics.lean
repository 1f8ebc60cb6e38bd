import StellarAlerts.JsonTexts
import StellarAlerts.Sha256

/-!
The topics of a contract event. Events with the same topics have the same hash, and
nothing else of an event goes into it.
-/
namespace StellarAlerts.SorobanTopics
open HexText (toHex)
open JsonTexts (quote)
open Sha256

/-- The types whose integers are written as decimal texts. -/
inductive BigType where
  | u64
  | i64
  | u128
  | i128
  | u256
  | i256
  | timepoint
  | duration
deriving DecidableEq, Repr

def BigType.text : BigType → String
  | .u64 => "u64"
  | .i64 => "i64"
  | .u128 => "u128"
  | .i128 => "i128"
  | .u256 => "u256"
  | .i256 => "i256"
  | .timepoint => "timepoint"
  | .duration => "duration"

/-- A value as the SDK reads it from XDR, with the texts that it gives for its parts. -/
inductive ScVal where
  | void
  | bool (b : Bool)
  | u32 (n : Nat)
  | i32 (n : Int)
  | big (type : BigType) (n : Int)
  | symbol (text : String)
  | string (text : String)
  | bytes (base64 : String)
  | address (text : String)
  | vec (items : List ScVal)
  | map (entries : List (ScVal × ScVal))
  | error (text : String)
  /-- another kind, with its name if it has one -/
  | other (name : Option String)
  /-- a value whose parts cannot be read -/
  | broken

/-- A decoded entry of a topic list. -/
inductive TopicValue where
  | void
  | bool (b : Bool)
  | u32 (n : Nat)
  | i32 (n : Int)
  | big (type : BigType) (text : String)
  | symbol (text : String)
  | string (text : String)
  | address (text : String)
  | bytes (text : String)
  | error (text : String)
  | vec (items : List TopicValue)
  | map (entries : List (TopicValue × TopicValue))
  | scv (text : String)
  | raw (text : String)
deriving Repr

mutual

def decodeScVal : ScVal → TopicValue
  | .void => .void
  | .bool b => .bool b
  | .u32 n => .u32 n
  | .i32 n => .i32 n
  | .big type n => .big type (toString n)
  | .symbol text => .symbol text
  | .string text => .string text
  | .bytes base64 => .bytes base64
  | .address text => .address text
  | .vec items => .vec (decodeItems items)
  | .map entries => .map (decodeEntries entries)
  | .error text => .error text
  | .other name => .scv (name.getD "unknown")
  | .broken => .raw "undecodable"

def decodeItems : List ScVal → List TopicValue
  | [] => []
  | item :: rest => decodeScVal item :: decodeItems rest

def decodeEntries : List (ScVal × ScVal) → List (TopicValue × TopicValue)
  | [] => []
  | entry :: rest => decodeEntry entry :: decodeEntries rest

def decodeEntry : ScVal × ScVal → TopicValue × TopicValue
  | (key,value) => (decodeScVal key,decodeScVal value)

end

mutual

/-- The symbols of a tree in the order in which they are visited. -/
def symbols : TopicValue → List String
  | .symbol text => [text]
  | .vec items => itemSymbols items
  | .map entries => entrySymbols entries
  | _ => []

def itemSymbols : List TopicValue → List String
  | [] => []
  | item :: rest => symbols item ++ itemSymbols rest

def entrySymbols : List (TopicValue × TopicValue) → List String
  | [] => []
  | entry :: rest => pairSymbols entry ++ entrySymbols rest

def pairSymbols : TopicValue × TopicValue → List String
  | (key,value) => symbols key ++ symbols value

end

/-- Every symbol once, at its first occurrence. -/
def collectTopicSymbols (topics : List TopicValue) : List String := (itemSymbols topics).eraseDups

def leadTopicSymbol (topics : List TopicValue) : Option String :=
  match topics with
  | .symbol text :: _ => some text
  | _ => (collectTopicSymbols topics).head?

def tagged (type : String) (value : List Char) : List Char :=
  "\x7b\"type\":".toList ++ quote type ++ ",\"value\":".toList ++ value ++ ['}']

/-- Texts in brackets with commas between them. -/
def bracketed (items : List (List Char)) : List Char := '[' :: ([','].intercalate items ++ [']'])

mutual

def jsonText : TopicValue → List Char
  | .void => tagged "void" "null".toList
  | .bool b => tagged "bool" (if b then "true".toList else "false".toList)
  | .u32 n => tagged "u32" (toString n).toList
  | .i32 n => tagged "i32" (toString n).toList
  | .big type text => tagged type.text (quote text)
  | .symbol text => tagged "symbol" (quote text)
  | .string text => tagged "string" (quote text)
  | .address text => tagged "address" (quote text)
  | .bytes text => tagged "bytes" (quote text)
  | .error text => tagged "error" (quote text)
  | .vec items => tagged "vec" (bracketed (itemTexts items))
  | .map entries => tagged "map" (bracketed (entryTexts entries))
  | .scv text => tagged "scv" (quote text)
  | .raw text => tagged "raw" (quote text)

def itemTexts : List TopicValue → List (List Char)
  | [] => []
  | item :: rest => jsonText item :: itemTexts rest

def entryTexts : List (TopicValue × TopicValue) → List (List Char)
  | [] => []
  | entry :: rest => entryText entry :: entryTexts rest

def entryText : TopicValue × TopicValue → List Char
  | (key,value) => "\x7b\"key\":".toList ++ jsonText key ++ ",\"value\":".toList ++ jsonText value ++ ['}']

end

def canonicalJson (topics : List TopicValue) : String := String.ofList (bracketed (itemTexts topics))
def hashTopics (topics : List TopicValue) : String := toHex (sha256 (utf8 (canonicalJson topics)))

/-- An entry of the raw list. -/
inductive Entry where
  /-- a text of base64 -/
  | text (base64 : String)
  /-- a value that is already read, with its XDR -/
  | value (scv : ScVal) (xdr : String)
  /-- anything else, with its text -/
  | other (text : String)

structure DecodedTopic where
  topics : List TopicValue
  topicXdr : List String
  topicSymbols : List String
  topicSymbol : Option String
  topicsHash : String

/-- One entry; `fromXDR` reads a value from a text that is not empty. -/
def decodeTopicEntry (fromXDR : String → Option ScVal) : Entry → TopicValue × String
  | .text base64 =>
    match if base64 = "" then none else fromXDR base64 with
    | some scv => (decodeScVal scv,base64)
    | none => (.raw base64,base64)
  | .value scv xdr => (decodeScVal scv,xdr)
  | .other text => (.raw text,text)

def decodeTopicArray (fromXDR : String → Option ScVal) (topic : List Entry) : DecodedTopic :=
  let decoded := topic.map (decodeTopicEntry fromXDR)
  let topics := decoded.map Prod.fst
  ⟨topics,decoded.map Prod.snd,collectTopicSymbols topics,leadTopicSymbol topics,hashTopics topics⟩

example : canonicalJson [.symbol "transfer"] =
    "[\x7b\"type\":\"symbol\",\"value\":\"transfer\"\x7d]" := by
  decide +kernel

end StellarAlerts.SorobanTopics
