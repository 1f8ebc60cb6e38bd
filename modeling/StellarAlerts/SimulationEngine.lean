import StellarAlerts.DrainDetector
import StellarAlerts.Footprints

/-!
The analysis of an envelope before it is executed. Four detectors look at what it takes
from its account, at its footprint, at the contracts that it invokes and at the
envelope itself; all that they find is scored.
-/
namespace StellarAlerts.SimulationEngine
open ContractTrust DecimalAmounts
open DrainDetector (AccountStateSnapshot DrainAnalysis DrainCode TransferOperation analyzeDrain)
open FirstOfKey
open Footprints (FootprintCode FootprintDiff PartialFootprint analyzeFootprintThreats diffFootprints)
open Numbers RiskScorer

inductive IntegrityCode where
  | simulationReverted
  | simulationHostErrors
  | noSimulationResult
  | missingTimeBounds
  | unboundedResourceLimits
  | zeroResourceLimits
  | zeroFeeSorobanEnvelope
deriving DecidableEq, Repr

/-- The codes of the four detectors. -/
inductive EngineCode where
  | drain (code : DrainCode)
  | footprint (code : FootprintCode)
  | contract (code : IndicatorCode)
  | envelope (code : IntegrityCode)
deriving DecidableEq, Repr

structure LedgerBounds where
  min : Number
  max : Number
deriving DecidableEq

structure EnvelopeResources where
  footprint : Option PartialFootprint
  requiredFootprint : Option PartialFootprint
  ledgerBounds : Option LedgerBounds
  auth : Option (List AuthEntry)
  hasTimeBounds : Option Bool
  feeStroops : Option String

inductive SimulatedErrorType where
  | customError
  | panic
  | hostError
  | invocationError
deriving DecidableEq, Repr

structure SimulatedOutcome where
  success : Option Bool
  errors : Option (List SimulatedErrorType)
  resultingBalances : Option (List AccountStateSnapshot)

structure SimulationRequest where
  sourceAccount : String
  operations : List TransferOperation
  resources : Option EnvelopeResources
  preState : Option (List AccountStateSnapshot)
  postState : Option (List AccountStateSnapshot)
  outcome : Option SimulatedOutcome
  contracts : Option (List ContractStateSnapshot)
  trustRegistry : Option ContractTrustRegistry

/-- The options of a call over those of the engine and the defaults. -/
structure SimulationEngineOptions where
  nearTotalOutflowRatio : ℚ
  fanOutDestinationThreshold : Number
  sequentialTransferThreshold : Number
  dustAmountStroops : Int
  maxFootprintReadWriteKeys : Number
  footprintProbeContractThreshold : Number
  maxInvocationsPerContract : Number
  riskBlockThreshold : Number

structure SimulationReport where
  drain : DrainAnalysis
  footprint : Option FootprintDiff
  contracts : ContractInteractionAnalysis
  indicators : List (RiskIndicator EngineCode)
  risk : ThreatRiskAssessment

structure Runtime extends Platform where
  toUpperCase : String → String

def defaultSimulationOptions : SimulationEngineOptions where
  nearTotalOutflowRatio := 17 / 20
  fanOutDestinationThreshold := .finite 3
  sequentialTransferThreshold := .finite 8
  dustAmountStroops := 10
  maxFootprintReadWriteKeys := .finite 64
  footprintProbeContractThreshold := .finite 5
  maxInvocationsPerContract := .finite 5
  riskBlockThreshold := .finite 80

/-- The ratio is kept between a hundredth and one, and no dust amount is negative. -/
def resolveOptions (merged : SimulationEngineOptions) : SimulationEngineOptions :=
  { merged with
    nearTotalOutflowRatio := min 1 (max (1 / 100) merged.nearTotalOutflowRatio)
    dustAmountStroops := if 0 ≤ merged.dustAmountStroops then merged.dustAmountStroops else defaultSimulationOptions.dustAmountStroops }

def integrity (code : IntegrityCode) (severity : RiskSeverity) (weight : ℚ) : RiskIndicator IntegrityCode :=
  ⟨code,severity,.finite weight⟩
def triggered {Code : Type} (applies : Bool) (i : RiskIndicator Code) : List (RiskIndicator Code) := if applies then [i] else []
def reverted (outcome : Option SimulatedOutcome) : Bool := outcome.any fun o => o.success == some false
def hostErrors (outcome : Option SimulatedOutcome) : Bool :=
  outcome.any fun o => o.success != some false && (o.errors.getD []).any fun e => e == .hostError || e == .panic

def analyzeEnvelopeIntegrity (resources : Option EnvelopeResources) (outcome : Option SimulatedOutcome) (simulated : Bool) :
    List (RiskIndicator IntegrityCode) :=
  triggered (reverted outcome) (integrity .simulationReverted .high 20) ++
  triggered (hostErrors outcome) (integrity .simulationHostErrors .medium 12) ++
  triggered (!simulated) (integrity .noSimulationResult .medium 10) ++
  triggered (resources.any fun r => r.hasTimeBounds == some false) (integrity .missingTimeBounds .medium 12) ++
  triggered (resources.any fun r => r.ledgerBounds.isNone) (integrity .unboundedResourceLimits .low 5) ++
  triggered ((resources.bind EnvelopeResources.ledgerBounds).any fun bounds => bounds.max.same (.finite 0))
    (integrity .zeroResourceLimits .medium 12) ++
  triggered (tryParseAmountToStroops (resources.bind EnvelopeResources.feeStroops) == some 0)
    (integrity .zeroFeeSorobanEnvelope .low 5)

def coded {Code : Type} (f : Code → EngineCode) (i : RiskIndicator Code) : RiskIndicator EngineCode := ⟨f i.code,i.severity,i.weight⟩

section Engine
variable (runtime : Runtime) (request : SimulationRequest) (options : SimulationEngineOptions)

def hasInvocation : Bool := request.operations.any fun operation => operation.kind = .invokeContract

def drainResult : DrainAnalysis × List (RiskIndicator DrainCode) :=
  analyzeDrain runtime.toUpperCase request.sourceAccount request.operations request.preState
    (request.postState.or (request.outcome.bind SimulatedOutcome.resultingBalances))
    ⟨options.nearTotalOutflowRatio,options.fanOutDestinationThreshold,options.sequentialTransferThreshold,
      options.dustAmountStroops⟩

def footprintDiff : Option FootprintDiff :=
  let declared := request.resources.bind EnvelopeResources.footprint
  let required := request.resources.bind EnvelopeResources.requiredFootprint
  if declared.isSome || required.isSome then some (diffFootprints declared required) else none

def footprintIndicators : List (RiskIndicator FootprintCode) :=
  match footprintDiff request with
  | some diff =>
    analyzeFootprintThreats diff (request.resources.bind EnvelopeResources.footprint) (hasInvocation request)
      ⟨options.maxFootprintReadWriteKeys,options.footprintProbeContractThreshold⟩
  | none => []

def contractContext : Context where
  platform := runtime.toPlatform
  sourceAccount := request.sourceAccount
  contracts := request.contracts
  trustRegistry := request.trustRegistry
  authEntries := request.resources.bind EnvelopeResources.auth
  maxInvocationsPerContract := options.maxInvocationsPerContract

def contractResult : ContractInteractionAnalysis × List Indicator :=
  analyzeContractInteractions (contractContext runtime request options)
    (request.operations.map TransferOperation.toSimulatedOperation)

def envelopeIndicators : List (RiskIndicator IntegrityCode) :=
  analyzeEnvelopeIntegrity request.resources request.outcome request.outcome.isSome

/-- What the four detectors find. -/
def engineIndicators : List (RiskIndicator EngineCode) :=
  (drainResult runtime request options).2.map (coded .drain) ++
  (footprintIndicators request options).map (coded .footprint) ++
  (contractResult runtime request options).2.map (coded .contract) ++
  (envelopeIndicators request).map (coded .envelope)

def simulate : SimulationReport :=
  let resolved := resolveOptions options
  { drain := (drainResult runtime request resolved).1
    footprint := footprintDiff request
    contracts := (contractResult runtime request resolved).1
    indicators := dedupeIndicators (engineIndicators runtime request resolved)
    risk := scoreRisk (engineIndicators runtime request resolved) (some resolved.riskBlockThreshold) }

end Engine
end StellarAlerts.SimulationEngine
