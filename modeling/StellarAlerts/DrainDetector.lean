import StellarAlerts.ContractTrust
import StellarAlerts.DecimalAmounts

/-!
What an envelope takes out of its source account. The balances before and after it are
kept under the texts of their assets and compared asset by asset; what the account's
operations send, and where, is read off the operations.
-/
namespace StellarAlerts.DrainDetector
open ContractTrust DecimalAmounts
open IntegerText (BigInt)
open Numbers OrderedMaps RiskScorer Utf16Text

structure TransferOperation extends SimulatedOperation where
  destination : Option String
  amount : Option String
deriving DecidableEq, Repr

structure AssetBalance where
  asset : AssetRef
  balance : String
  revocable : Option Bool
deriving DecidableEq, Repr

structure AccountStateSnapshot where
  accountId : String
  nativeBalance : Option String
  balances : Option (List AssetBalance)
deriving DecidableEq, Repr

structure DrainThresholds where
  nearTotalOutflowRatio : ℚ
  fanOutDestinationThreshold : Number
  sequentialTransferThreshold : Number
  dustAmountStroops : Int

structure AssetFlow where
  asset : AssetRef
  canonicalKey : String
  preBalanceStroops : String
  postBalanceStroops : String
  outflowStroops : String
  inflowStroops : String
  outflowPercent : String
  drained : Bool
deriving DecidableEq, Repr

structure DrainAnalysis where
  flows : List AssetFlow
  totalOutflowStroops : String
  totalInflowStroops : String
  drainedAssets : List String
  destinations : List String
  outgoingTransferCount : Nat
  residualBalances : List (String × String)

inductive DrainCode where
  | fullBalanceDrain
  | nearTotalBalanceOutflow
  | accountMergeSweep
  | destinationFanOut
  | unboundedSequentialTransfers
  | roundTripSelfDeal
  | dustAmountTransfer
  | revocableAssetTransfer
  | assetLiquidationSweep
deriving DecidableEq, Repr

def indicator (code : DrainCode) (severity : RiskSeverity) (weight : ℚ) : RiskIndicator DrainCode := ⟨code,severity,.finite weight⟩

def outgoingTransferKind : OperationKind → Bool
  | .pay => true
  | .pathPaymentStrictReceive => true
  | .pathPaymentStrictSend => true
  | .accountMerge => true
  | .clawback => true
  | .liquidityPoolWithdraw => true
  | _ => false

def readStroops (text : String) : Int := (BigInt text).getD 0

section Balances
variable (toUpperCase : String → String)

/-- What is listed with an amount that can be read: the native balance, then the others. -/
def listedBalances (snapshot : AccountStateSnapshot) : List (String × Nat) :=
  ((tryParseAmountToStroops snapshot.nativeBalance).map fun native => ("native",native)).toList ++
    (snapshot.balances.getD []).filterMap fun entry =>
      (tryParseAmountToStroops (some entry.balance)).map fun amount => (canonicalAssetKey toUpperCase entry.asset,amount)

/-- Of the balances under one key the last is kept. -/
def readBalances (snapshot : Option AccountStateSnapshot) : OrderedMap String Nat :=
  .ofList (snapshot.elim [] (listedBalances toUpperCase))

def collectAssets (snapshot : Option AccountStateSnapshot) : OrderedMap String AssetRef :=
  match snapshot with
  | none => .empty
  | some snapshot =>
    .ofList ((snapshot.nativeBalance.map fun _ => ("native",⟨.native,none,none,none⟩)).toList ++
      (snapshot.balances.getD []).map fun entry => (canonicalAssetKey toUpperCase entry.asset,entry.asset))

def inferAssetFromKey (key : String) : AssetRef :=
  let parts := (key.toList.splitOn ':').map String.ofList
  if parts.head? = some "credit_alphanumeric" ∧ 1 < parts.length then
    ⟨.creditAlphanumeric,some (parts.getD 1 ""),some (parts.getD 2 ""),none⟩
  else if parts.head? = some "liquidity_pool" ∧ 1 < parts.length then
    ⟨.liquidityPool,none,none,some (String.ofList (key.toList.drop "liquidity_pool:".length))⟩
  else ⟨.native,none,none,none⟩

/-- The threshold in ten thousandths. -/
def ratioNumerator (thresholds : DrainThresholds) : Int := round (thresholds.nearTotalOutflowRatio * 10000)

/-- What moved of one asset. Without a later snapshot nothing did. -/
def flowOf (pre : OrderedMap String Nat) (post : Option (OrderedMap String Nat)) (assets : OrderedMap String AssetRef)
    (thresholds : DrainThresholds) (key : String) : AssetFlow :=
  let preStroops := (pre.get key).getD 0
  let postStroops := match post with
    | some post => (post.get key).getD 0
    | none => preStroops
  let outflow := if postStroops < preStroops then preStroops - postStroops else 0
  let inflow := if preStroops < postStroops then postStroops - preStroops else 0
  { asset := (assets.get key).getD (inferAssetFromKey key)
    canonicalKey := key
    preBalanceStroops := toString preStroops
    postBalanceStroops := toString postStroops
    outflowStroops := toString outflow
    inflowStroops := toString inflow
    outflowPercent := formatRatioAsPercent (if 0 < preStroops then outflow * RATIO_SCALE / preStroops else 0 : Nat)
    drained := 0 < outflow && 0 < preStroops && preStroops * ratioNumerator thresholds ≤ outflow * 10000 }

def buildFlows (pre : OrderedMap String Nat) (post : Option (OrderedMap String Nat)) (assets : OrderedMap String AssetRef)
    (thresholds : DrainThresholds) : List AssetFlow :=
  (sortTexts (pre.keys ++ (post.map OrderedMap.keys).getD []).dedup).map (flowOf pre post assets thresholds)

end Balances

def snapshotFor (snapshots : Option (List AccountStateSnapshot)) (accountId : String) : Option AccountStateSnapshot :=
  (snapshots.getD []).find? fun s => s.accountId = accountId

section Analysis
variable (toUpperCase : String → String) (sourceAccount : String) (operations : List TransferOperation)
  (preState postState : Option (List AccountStateSnapshot)) (thresholds : DrainThresholds)

def isOutgoingTransfer (operation : TransferOperation) : Bool :=
  outgoingTransferKind operation.kind && operation.source.getD sourceAccount = sourceAccount
def outgoingTransfers : List TransferOperation := operations.filter (isOutgoingTransfer sourceAccount)
def destinations : List String := (outgoingTransfers sourceAccount operations).filterMap fun operation => filled operation.destination

def flows : List AssetFlow :=
  let preSnapshot := snapshotFor preState sourceAccount
  let postSnapshot := snapshotFor postState sourceAccount
  buildFlows (readBalances toUpperCase preSnapshot) (postSnapshot.map fun post => readBalances toUpperCase (some post))
    (collectAssets toUpperCase preSnapshot) thresholds

def drainAnalysis : DrainAnalysis :=
  let flows := flows toUpperCase sourceAccount preState postState thresholds
  { flows
    totalOutflowStroops := toString (flows.map fun f => readStroops f.outflowStroops).sum
    totalInflowStroops := toString (flows.map fun f => readStroops f.inflowStroops).sum
    drainedAssets := (flows.filter AssetFlow.drained).map AssetFlow.canonicalKey
    destinations := sortTexts (destinations sourceAccount operations)
    outgoingTransferCount := (outgoingTransfers sourceAccount operations).length
    residualBalances := flows.map fun f => (f.canonicalKey,formatStroops (readStroops f.postBalanceStroops)) }

def hasBalanceDiff : Bool := (snapshotFor preState sourceAccount).isSome && (snapshotFor postState sourceAccount).isSome

def flowIndicator (flow : AssetFlow) : Option (RiskIndicator DrainCode) :=
  if flow.drained && readStroops flow.outflowStroops ≠ 0 then
    some (if readStroops flow.postBalanceStroops = 0 then indicator .fullBalanceDrain .critical 60
      else indicator .nearTotalBalanceOutflow .high 28)
  else none

def mergesAway (operation : TransferOperation) : Bool :=
  operation.kind = .accountMerge && operation.source.getD sourceAccount = sourceAccount && (filled operation.destination).isSome

/-- The accounts that operations are submitted from. -/
def sourceSet : List String := operations.filterMap (fun operation => filled operation.source) ++ [sourceAccount]

/-- A destination is the source account, or another account that operations are submitted from. -/
def roundTrips : Bool := (destinations sourceAccount operations).any (sourceSet sourceAccount operations).contains

def dustTransfer (operation : TransferOperation) : Bool :=
  outgoingTransferKind operation.kind &&
    (tryParseAmountToStroops operation.amount).any fun amount => (amount : Int) ≤ thresholds.dustAmountStroops

def revocableKeys (snapshot : AccountStateSnapshot) : List String :=
  ((snapshot.balances.getD []).filter fun entry => entry.revocable == some true).map fun entry =>
    canonicalAssetKey toUpperCase entry.asset

def touchedRevocable (flows : List AssetFlow) (snapshot : AccountStateSnapshot) : List String :=
  (revocableKeys toUpperCase snapshot).filter fun key =>
    ((flows.find? fun f => f.canonicalKey = key).map AssetFlow.outflowStroops).getD "0" ≠ "0"

def liquidates (flows : List AssetFlow) : Bool :=
  (flows.any fun f => f.canonicalKey ≠ "native" && 0 < readStroops f.outflowStroops) &&
    ((flows.find? fun f => f.canonicalKey = "native").any fun f => 0 < readStroops f.outflowStroops) &&
    (flows.map fun f => readStroops f.inflowStroops).sum = 0

def analyzeDrain : DrainAnalysis × List (RiskIndicator DrainCode) :=
  let analysis := drainAnalysis toUpperCase sourceAccount operations preState postState thresholds
  let diff := hasBalanceDiff sourceAccount preState postState
  (analysis,
    (if diff then analysis.flows.filterMap flowIndicator else []) ++
    (if operations.any (mergesAway sourceAccount) then [indicator .accountMergeSweep .critical 40] else []) ++
    (if reaches (destinations sourceAccount operations).dedup.length thresholds.fanOutDestinationThreshold then
      [indicator .destinationFanOut .high 22] else []) ++
    (if reaches analysis.outgoingTransferCount thresholds.sequentialTransferThreshold then
      [indicator .unboundedSequentialTransfers .high 18] else []) ++
    (if roundTrips sourceAccount operations then [indicator .roundTripSelfDeal .critical 30] else []) ++
    (if operations.any (dustTransfer thresholds) then [indicator .dustAmountTransfer .medium 10] else []) ++
    (match snapshotFor preState sourceAccount with
      | some snapshot =>
        if touchedRevocable toUpperCase analysis.flows snapshot ≠ [] then [indicator .revocableAssetTransfer .high 20] else []
      | none => []) ++
    (if diff && liquidates analysis.flows then [indicator .assetLiquidationSweep .high 26] else []))

end Analysis
end StellarAlerts.DrainDetector
