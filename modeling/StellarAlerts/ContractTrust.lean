import StellarAlerts.OrderedMaps
import StellarAlerts.RiskScorer
import StellarAlerts.Utf16Text

/-!
What an envelope's contract invocations tell about its risk: the registry, the snapshots
and the authorizations are compared with the operations, contract by contract. All codes
but one weigh the same whatever raises them.
-/
namespace StellarAlerts.ContractTrust
open FirstOfKey Numbers OrderedMaps RiskScorer Utf16Text

inductive OperationKind where
  | pay
  | pathPaymentStrictReceive
  | pathPaymentStrictSend
  | accountMerge
  | clawback
  | changeTrust
  | setTrustlineFlags
  | createAccount
  | createContract
  | uploadWasm
  | invokeContract
  | extendFootprintTtl
  | restoreFootprint
  | bumpSequence
  | setOptions
  | manageSellOffer
  | liquidityPoolWithdraw
  | unknown
deriving DecidableEq, Repr

structure SimulatedOperation where
  kind : OperationKind
  source : Option String
  contractId : Option String
  function : Option String
deriving DecidableEq, Repr

structure ContractStateSnapshot where
  contractId : String
  wasmHash : Option String
  deployed : Option Bool
  codeArchived : Option Bool

structure ContractTrustRecord where
  verified : Option Bool
  wasmHash : Option String
  deployer : Option String

structure ContractTrustRegistry where
  byContractId : Option (OrderedMap String ContractTrustRecord)
  allowlist : Option (List String)

structure AuthEntry where
  contractId : Option String
  function : Option String

structure ContractInteraction where
  contractId : String
  functions : List String
  invocationCount : Nat
  deployedInEnvelope : Bool
  missingAuth : Bool
  verified : Bool
  codeHashMismatch : Bool
  known : Bool

structure ContractInteractionAnalysis where
  interactions : List ContractInteraction
  privilegedInvocations : List SimulatedOperation
  unknownDeployers : List String
  codeHashMismatches : List String
  unverifiableContracts : List String

inductive IndicatorCode where
  | privilegedFunctionWithoutAuth
  | privilegedContractFunction
  | unverifiedContractInvocation
  | contractCodeHashMismatch
  | contractNotDeployed
  | invocationOfArchivedContract
  | newlyDeployedContractInvoked
  | unverifiedSelfDeployedContract
  | invocationFanOut
deriving DecidableEq, Repr

instance : Fintype IndicatorCode where
  elems := {.privilegedFunctionWithoutAuth,.privilegedContractFunction,.unverifiedContractInvocation,.contractCodeHashMismatch,
    .contractNotDeployed,.invocationOfArchivedContract,.newlyDeployedContractInvoked,.unverifiedSelfDeployedContract,
    .invocationFanOut}
  complete code := by cases code <;> decide

abbrev Indicator := RiskIndicator IndicatorCode
def indicator (code : IndicatorCode) (severity : RiskSeverity) (weight : ℚ) : Indicator := ⟨code,severity,.finite weight⟩

/-- The texts of the runtime. -/
structure Platform where
  toLowerCase : String → String
  localeCompare : String → String → Ordering

/-- What is fixed when the operations are analysed. -/
structure Context where
  platform : Platform
  sourceAccount : String
  contracts : Option (List ContractStateSnapshot)
  trustRegistry : Option ContractTrustRegistry
  authEntries : Option (List AuthEntry)
  maxInvocationsPerContract : Number

def privilegedFunctionNames : List String :=
  ["set_admin","transfer_admin","remove_contract","upgrade_contract","upgrade","mint","burn","freeze","unfreeze",
    "set_trustline_flags","set_panic","set_events","deploy"]

/-- A text that is given and not empty. -/
def filled (text : Option String) : Option String := text.filter fun t => t ≠ ""

def deployKind : OperationKind → Bool
  | .createContract => true
  | .uploadWasm => true
  | _ => false

def deployedId (operation : SimulatedOperation) : Option String :=
  if deployKind operation.kind then filled operation.contractId else none
def invokedId (operation : SimulatedOperation) : Option String :=
  if operation.kind = .invokeContract then filled operation.contractId else none

section Analysis
variable (c : Context)

def isPrivilegedFunction (fn : Option String) : Bool :=
  (filled fn).any fun fn => privilegedFunctionNames.any fun name => includes (c.platform.toLowerCase fn) name
def recordOf (contractId : String) : Option ContractTrustRecord :=
  (c.trustRegistry.bind ContractTrustRegistry.byContractId).bind fun records => records.get contractId
def allowlisted (contractId : String) : Bool :=
  ((c.trustRegistry.bind ContractTrustRegistry.allowlist).getD []).contains contractId
def stateById : OrderedMap String ContractStateSnapshot :=
  (c.contracts.getD []).foldl (fun states snapshot => states.set snapshot.contractId snapshot) .empty

def authKeys : List String :=
  (c.authEntries.getD []).flatMap fun entry =>
    ((filled entry.contractId).map fun contractId => contractId ++ "::" ++ entry.function.getD "*").toList ++
      [entry.contractId.getD "*" ++ "::*"]

def hasAuthFor (contractId : String) (fn : Option String) : Bool :=
  (authKeys c).contains (contractId ++ "::" ++ fn.getD "*") || (authKeys c).contains (contractId ++ "::*")

/-- The recorded and the observed hash are known and differ. -/
def hashMismatch (contractId : String) : Bool :=
  let recordedHash := ((recordOf c contractId).bind ContractTrustRecord.wasmHash).map c.platform.toLowerCase
  let observedHash := (((stateById c).get contractId).bind ContractStateSnapshot.wasmHash).map c.platform.toLowerCase
  (filled recordedHash).isSome && (filled observedHash).isSome && recordedHash != observedHash

def recordVerified (contractId : String) : Bool := ((recordOf c contractId).bind ContractTrustRecord.verified) == some true
def verified (contractId : String) : Bool :=
  allowlisted c contractId || recordVerified c contractId && !hashMismatch c contractId

/-- Trusted when it is deployed, whatever its code. -/
def trusted (contractId : String) : Bool := allowlisted c contractId || recordVerified c contractId

def deployedInEnvelope (operations : List SimulatedOperation) : OrderedMap String String :=
  operations.foldl (fun deployed operation =>
    match deployedId operation with
    | some contractId => deployed.set contractId (operation.source.getD c.sourceAccount)
    | none => deployed) .empty

/-- What the loop over the operations keeps. -/
structure Tally where
  interactionsByContract : OrderedMap String ContractInteraction
  privilegedInvocations : List SimulatedOperation
  indicators : List Indicator

def newInteraction (deployed : OrderedMap String String) (contractId : String) : ContractInteraction where
  contractId := contractId
  functions := []
  invocationCount := 0
  deployedInEnvelope := (deployed.get contractId).isSome
  missingAuth := false
  verified := verified c contractId
  codeHashMismatch := hashMismatch c contractId
  known := allowlisted c contractId || (recordOf c contractId).isSome

def countInvocation (interaction : ContractInteraction) (fn : Option String) : ContractInteraction :=
  { interaction with
    invocationCount := interaction.invocationCount + 1
    functions := match filled fn with
      | some fn => if interaction.functions.contains fn then interaction.functions else interaction.functions ++ [fn]
      | none => interaction.functions
    missingAuth := interaction.missingAuth || !hasAuthFor c interaction.contractId fn }

def privilegedCall (contractId : String) (fn : Option String) : Indicator :=
  if hasAuthFor c contractId fn then indicator .privilegedContractFunction .high 24
  else indicator .privilegedFunctionWithoutAuth .critical 42

def visit (deployed : OrderedMap String String) (t : Tally) (operation : SimulatedOperation) : Tally :=
  match invokedId operation with
  | none => t
  | some contractId =>
    let interaction := (t.interactionsByContract.get contractId).getD (newInteraction c deployed contractId)
    let t := { t with
      interactionsByContract := t.interactionsByContract.set contractId (countInvocation c interaction operation.function) }
    if isPrivilegedFunction c operation.function then
      { t with
        privilegedInvocations := t.privilegedInvocations ++ [operation]
        indicators := t.indicators ++ [privilegedCall c contractId operation.function] }
    else t

def tally (operations : List SimulatedOperation) : Tally :=
  operations.foldl (visit c (deployedInEnvelope c operations)) ⟨.empty,[],[]⟩

/-- No live instance at the snapshot. -/
def undeployed (contractId : String) : Bool := ((stateById c).get contractId).any fun state => state.deployed == some false

def archived (contractId : String) : Bool := ((stateById c).get contractId).any fun state => state.codeArchived == some true

def interactionIndicators (interaction : ContractInteraction) : List Indicator :=
  (if interaction.verified then [] else [indicator .unverifiedContractInvocation .high 24]) ++
  (if interaction.codeHashMismatch then [indicator .contractCodeHashMismatch .critical 38] else []) ++
  (if undeployed c interaction.contractId then [indicator .contractNotDeployed .high 20] else []) ++
  (if archived c interaction.contractId then [indicator .invocationOfArchivedContract .medium 12] else [])

def deployIndicators (interactionsByContract : OrderedMap String ContractInteraction) (contractId : String) : List Indicator :=
  if (interactionsByContract.get contractId).isSome then
    if trusted c contractId then [indicator .newlyDeployedContractInvoked .medium 12]
    else [indicator .newlyDeployedContractInvoked .critical 36,indicator .unverifiedSelfDeployedContract .critical 30]
  else []

/-- `n < x`. -/
def below (n : Nat) : Number → Bool
  | .nan => false
  | .infinite negative => !negative
  | .finite q => n < q

def fanOutIndicators (interaction : ContractInteraction) : List Indicator :=
  if below interaction.invocationCount c.maxInvocationsPerContract then [] else [indicator .invocationFanOut .medium 14]

def unknownDeployer (interaction : ContractInteraction) : Bool :=
  let recorded := (recordOf c interaction.contractId).bind ContractTrustRecord.deployer
  let deployer := recorded.or (if interaction.deployedInEnvelope then some c.sourceAccount else none)
  !interaction.verified && (filled recorded).isNone && !allowlisted c interaction.contractId && deployer.isNone

def analyzeContractInteractions (operations : List SimulatedOperation) : ContractInteractionAnalysis × List Indicator :=
  let deployed := deployedInEnvelope c operations
  let t := tally c operations
  let values := t.interactionsByContract.entries.map Prod.snd
  let interactions := values.mergeSort fun a b => c.platform.localeCompare a.contractId b.contractId != .gt
  ({ interactions
     privilegedInvocations := t.privilegedInvocations
     unknownDeployers := sortTexts ((interactions.filter (unknownDeployer c)).map ContractInteraction.contractId)
     codeHashMismatches :=
       sortTexts ((interactions.filter ContractInteraction.codeHashMismatch).map ContractInteraction.contractId)
     unverifiableContracts := sortTexts ((interactions.filter fun i => !i.verified).map ContractInteraction.contractId) },
    t.indicators ++ interactions.flatMap (interactionIndicators c) ++
      deployed.keys.flatMap (deployIndicators c t.interactionsByContract) ++ values.flatMap (fanOutIndicators c))

end Analysis
end StellarAlerts.ContractTrust
