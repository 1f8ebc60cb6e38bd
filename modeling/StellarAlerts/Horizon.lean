import Mathlib.Algebra.Group.Nat.Defs
import StellarAlerts.IntegerText

/-!
The operation records of Horizon's payments endpoint: payments, account
creations and everything else, which may be a token contract's transfer. The
adapters read the paging token and the transaction hash of any of them.
-/
namespace StellarAlerts.Horizon
open IntegerText

/-- `a || b` on texts. -/
def orElse (a b : String) : String := if a = "" then b else a

/-- `a || null` on an optional text. -/
def orNull (a : Option String) : Option String := a.filter (· ≠ "")

/-- The fields of every record; a field that is missing is empty. -/
structure HorizonOperationBase where
  paging_token : String
  created_at : String
  transaction_hash : String
  hash : Option String
  deriving DecidableEq, Repr

structure HorizonPaymentRecord where
  amount : String
  asset_type : String
  asset_code : Option String
  asset_issuer : Option String
  from_ : String
  to_ : String
  memo : Option String
  deriving DecidableEq, Repr

structure HorizonCreateAccountRecord where
  starting_balance : String
  funder : String
  account : String
  deriving DecidableEq, Repr

/-- A record by its type; `Operation` is what the remaining types carry. -/
inductive HorizonOperationRecord (Operation : Type) where
  | payment (base : HorizonOperationBase) (record : HorizonPaymentRecord)
  | create_account (base : HorizonOperationBase) (record : HorizonCreateAccountRecord)
  | other (base : HorizonOperationBase) (operation : Operation)
  deriving DecidableEq

variable {Operation : Type}

def HorizonOperationRecord.base : HorizonOperationRecord Operation → HorizonOperationBase
  | .payment base _ | .create_account base _ | .other base _ => base
def getHorizonPagingToken (record : HorizonOperationRecord Operation) : Option String :=
  orNull (some record.base.paging_token)
def getHorizonTxHash (record : HorizonOperationRecord Operation) : String :=
  orElse record.base.transaction_hash (orElse (record.base.hash.getD "") "")

structure DecodedStellarAsset where
  assetCode : String
  assetIssuer : Option String
  deriving DecidableEq, Repr

def decodeHorizonAsset (record : HorizonPaymentRecord) : DecodedStellarAsset :=
  if record.asset_type = "native" ∨ record.asset_type = "" then ⟨"XLM",none⟩
  else ⟨orElse (record.asset_code.getD "") "Unknown",orNull record.asset_issuer⟩

/-- A token transfer as a contract event states it. -/
structure SacTransfer where
  contractId : String
  assetCode : Option String
  assetIssuer : Option String
  from_ : String
  to_ : String
  amount : String
  rawAmount : String
  deriving DecidableEq, Repr

/-- `text.padStart(width, '0')`. -/
def padStart (width : Nat) (text : List Char) : List Char := List.replicate (width - text.length) '0' ++ text

/-- `text.replace(/0+$/, '')`. -/
def dropZeros (text : List Char) : List Char := (text.reverse.dropWhile (· == '0')).reverse

/-- The decimal text of a raw amount; a text that is no integer counts as zero. -/
def formatTokenAmount (rawAmount : String) (decimals : Int) : String :=
  let raw := (BigInt rawAmount).getD 0
  let sign := if raw < 0 then "-" else ""
  let divisor := 10 ^ decimals.toNat
  let whole := raw.natAbs / divisor
  let fraction := String.ofList (dropZeros (padStart decimals.toNat (Nat.repr (raw.natAbs % divisor)).toList))
  sign ++ Nat.repr whole ++ (if fraction = "" then "" else "." ++ fraction)

theorem orNull_eq_some {a : Option String} {text : String} : orNull a = some text ↔ a = some text ∧ text ≠ "" := by
  simp [orNull,Option.filter_eq_some_iff]

theorem token_eq_some {record : HorizonOperationRecord Operation} {token : String} :
    getHorizonPagingToken record = some token ↔ record.base.paging_token = token ∧ token ≠ "" := by
  simp [getHorizonPagingToken,orNull_eq_some]

end StellarAlerts.Horizon
