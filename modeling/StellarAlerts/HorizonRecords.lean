import StellarAlerts.Horizon
import StellarAlerts.JsonTexts

/-!
The records of Horizon's payments endpoint as they come over the network. A value is
taken for an operation record where it has the fields of its type; records of any
other type need the base fields only.
-/
namespace StellarAlerts.HorizonRecords
open JsonTexts
open Horizon (orElse)

/-- `value[key]`, where that is a text. -/
def textField (value : Json) (key : String) : Option String :=
  match value with
  | .object members =>
    match lookup members key with
    | some (.string text) => some text
    | _ => none
  | _ => none

/-- `typeof value[key] === 'string'`. -/
def isString (value : Json) (key : String) : Bool := (textField value key).isSome

def isHorizonOperationRecord (value : Json) : Bool :=
  match textField value "type" with
  | none => false
  | some type =>
    if type = "" then false
    else if !(isString value "paging_token" && isString value "created_at" &&
        (isString value "transaction_hash" || isString value "hash")) then false
    else if type = "payment" then isString value "amount" && isString value "from" && isString value "to"
    else if type = "create_account" then
      isString value "starting_balance" && isString value "funder" && isString value "account"
    else true

/-- The records among the items of an answer. -/
def asHorizonOperationRecords (value : Json) : List Json :=
  match value with
  | .array items => items.filter isHorizonOperationRecord
  | _ => []

/-- `record.paging_token`; empty where there is none. -/
def pagingToken (record : Json) : String := (textField record "paging_token").getD ""

/-- `getHorizonTxHash`. -/
def txHash (record : Json) : String :=
  orElse ((textField record "transaction_hash").getD "") ((textField record "hash").getD "")

end StellarAlerts.HorizonRecords
