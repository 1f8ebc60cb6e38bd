import StellarAlerts.HiddenDrains
import StellarAlerts.RiskWeights
import StellarAlerts.SimulationEngine

/-!
When an envelope that empties a balance is blocked. The drain alone weighs 60, and
whatever else is found of severity high or critical weighs at least 20, with one
exception: a burst of transfers weighs 18. So a drain with something else of that kind
is blocked unless the burst is all (`drain_blocks_iff`).
-/
namespace StellarAlerts.DrainBlocking
open ContractTrust
open DecimalAmounts (tryParseAmountToStroops)
open DrainDetector DrainFlows
open Footprints (FootprintCode analyzeFootprintThreats given)
open Numbers RiskScorer SimulationEngine

abbrev fullDrain : EngineCode := .drain .fullBalanceDrain
abbrev burst : EngineCode := .drain .unboundedSequentialTransfers
def Urgent (severity : RiskSeverity) : Prop := severity = .high ∨ severity = .critical

/-- What is urgent weighs 20, a burst apart, and everything weighs something. -/
structure Weighs (i : RiskIndicator EngineCode) : Prop where
  something : 5 ≤ weightOf i
  urgent : Urgent i.severity → i.code ≠ burst → 20 ≤ weightOf i

variable {i : RiskIndicator EngineCode}

theorem weighs_of_twenty (heavy : 20 ≤ weightOf i) : Weighs i :=
  ⟨le_trans (by norm_num) heavy,fun _ _ => heavy⟩
theorem weighs_of_calm (something : 5 ≤ weightOf i) (calm : ¬ Urgent i.severity) : Weighs i :=
  ⟨something,fun urgent => absurd urgent calm⟩

theorem mem_of_if {α : Type*} {p : Prop} [Decidable p] {a x : α} (listed : a ∈ if p then [x] else []) : p ∧ a = x := by
  split at listed
  · exact ⟨‹p›,List.mem_singleton.mp listed⟩
  · cases listed

def drainSeverity : DrainCode → RiskSeverity
  | .fullBalanceDrain => .critical
  | .nearTotalBalanceOutflow => .high
  | .accountMergeSweep => .critical
  | .destinationFanOut => .high
  | .unboundedSequentialTransfers => .high
  | .roundTripSelfDeal => .critical
  | .dustAmountTransfer => .medium
  | .revocableAssetTransfer => .high
  | .assetLiquidationSweep => .high

def drainWeight : DrainCode → ℚ
  | .fullBalanceDrain => 60
  | .nearTotalBalanceOutflow => 28
  | .accountMergeSweep => 40
  | .destinationFanOut => 22
  | .unboundedSequentialTransfers => 18
  | .roundTripSelfDeal => 30
  | .dustAmountTransfer => 10
  | .revocableAssetTransfer => 20
  | .assetLiquidationSweep => 26

section Detectors
variable {toUpperCase : String → String} {sourceAccount : String} {operations : List TransferOperation}
  {preState postState : Option (List AccountStateSnapshot)} {thresholds : DrainThresholds}

theorem drain_of_code {i : RiskIndicator DrainCode}
    (listed : i ∈ (analyzeDrain toUpperCase sourceAccount operations preState postState thresholds).2) :
    i = DrainDetector.indicator i.code (drainSeverity i.code) (drainWeight i.code) := by
  simp only [analyzeDrain,List.mem_append] at listed
  rcases listed with ((((((flow | merge) | fanOut) | sequential) | roundTrip) | dust) | revocable) | sweep
  · split at flow
    · obtain ⟨f,-,is⟩ := List.mem_filterMap.mp flow
      rw [flowIndicator] at is
      split at is
      · obtain rfl := Option.some.inj is
        split <;> rfl
      · cases is
    · cases flow
  · obtain ⟨-,rfl⟩ := mem_of_if merge
    rfl
  · obtain ⟨-,rfl⟩ := mem_of_if fanOut
    rfl
  · obtain ⟨-,rfl⟩ := mem_of_if sequential
    rfl
  · obtain ⟨-,rfl⟩ := mem_of_if roundTrip
    rfl
  · obtain ⟨-,rfl⟩ := mem_of_if dust
    rfl
  · split at revocable
    · obtain ⟨-,rfl⟩ := mem_of_if revocable
      rfl
    · cases revocable
  · obtain ⟨-,rfl⟩ := mem_of_if sweep
    rfl

theorem burst_iff : (∃ i ∈ (analyzeDrain toUpperCase sourceAccount operations preState postState thresholds).2,
    i.code = .unboundedSequentialTransfers) ↔
      reaches (outgoingTransfers sourceAccount operations).length thresholds.sequentialTransferThreshold = true := by
  constructor
  · rintro ⟨i,listed,own⟩
    simp only [analyzeDrain,List.mem_append] at listed
    rcases listed with ((((((flow | merge) | fanOut) | sequential) | roundTrip) | dust) | revocable) | sweep
    · split at flow
      · obtain ⟨f,-,is⟩ := List.mem_filterMap.mp flow
        rw [flowIndicator] at is
        split at is
        · obtain rfl := Option.some.inj is
          split at own <;> cases own
        · cases is
      · cases flow
    · obtain ⟨-,rfl⟩ := mem_of_if merge
      cases own
    · obtain ⟨-,rfl⟩ := mem_of_if fanOut
      cases own
    · exact (mem_of_if sequential).1
    · obtain ⟨-,rfl⟩ := mem_of_if roundTrip
      cases own
    · obtain ⟨-,rfl⟩ := mem_of_if dust
      cases own
    · split at revocable
      · obtain ⟨-,rfl⟩ := mem_of_if revocable
        cases own
      · cases revocable
    · obtain ⟨-,rfl⟩ := mem_of_if sweep
      cases own
  · intro many
    refine ⟨DrainDetector.indicator .unboundedSequentialTransfers .high 18,?_,rfl⟩
    simp only [analyzeDrain,List.mem_append]
    refine .inl (.inl (.inl (.inl (.inr ?_))))
    have many' : reaches (drainAnalysis toUpperCase sourceAccount operations preState postState thresholds).outgoingTransferCount
        thresholds.sequentialTransferThreshold = true := many
    rw [if_pos many']
    exact List.mem_singleton_self _

theorem drain_weighs (code : DrainCode) :
    Weighs (coded .drain (DrainDetector.indicator code (drainSeverity code) (drainWeight code))) := by
  cases code with
  | unboundedSequentialTransfers =>
    refine ⟨?_,fun _ other => absurd rfl other⟩
    norm_num [weightOf,coded,DrainDetector.indicator,drainWeight]
  | dustAmountTransfer =>
    refine weighs_of_calm ?_ (by simp [Urgent,coded,DrainDetector.indicator,drainSeverity])
    norm_num [weightOf,coded,DrainDetector.indicator,drainWeight]
  | _ =>
    refine weighs_of_twenty ?_
    norm_num [weightOf,coded,DrainDetector.indicator,drainWeight]

end Detectors

theorem mem_given {applies : Bool} {x i : RiskIndicator FootprintCode} (listed : i ∈ given applies x) : i = x :=
  (mem_of_if listed).2

theorem given_sublist {applies : Bool} {x : RiskIndicator FootprintCode} {code : FootprintCode} (own : x.code = code) :
    ((given applies x).map RiskIndicator.code).Sublist [code] := by
  cases applies
  · exact List.nil_sublist _
  · simp [given,own]

section FootprintRules
variable {diff : Footprints.FootprintDiff} {declared : Option Footprints.PartialFootprint} {invokes : Bool}
  {thresholds : Footprints.FootprintThreatThresholds}

theorem footprint_codes : ((analyzeFootprintThreats diff declared invokes thresholds).map RiskIndicator.code).Nodup := by
  have all : [FootprintCode.undeclaredFootprintAccess,.footprintWriteDowngrade,.unusedFootprintEntries,
      .footprintOverPermission,.unboundedFootprintGrowth,.footprintKeyProbing,.emptyFootprintWithInvocation,
      .archivedKeyAccess].Nodup := by decide
  refine List.Sublist.nodup ?_ all
  simp only [analyzeFootprintThreats,List.map_append]
  have undeclared := @given_sublist (diff.entries.any fun e => e.change = .missing)
    (if diff.entries.any Footprints.writeDowngrade then Footprints.indicator .undeclaredFootprintAccess .critical 35
      else Footprints.indicator .undeclaredFootprintAccess .medium 14) .undeclaredFootprintAccess (by split <;> rfl)
  have archived := @given_sublist (diff.entries.any Footprints.archivedKey)
    (if diff.entries.any fun e => Footprints.archivedKey e && e.change = .unused then
        Footprints.indicator .archivedKeyAccess .high 20
      else Footprints.indicator .archivedKeyAccess .medium 12) .archivedKeyAccess (by split <;> rfl)
  exact (((((((undeclared.append (given_sublist rfl)).append (given_sublist rfl)).append (given_sublist rfl)).append
    (given_sublist rfl)).append (given_sublist rfl)).append (given_sublist rfl)).append archived)

theorem footprint_codes_engine {request : SimulationRequest} {options : SimulationEngineOptions} :
    ((footprintIndicators request options).map RiskIndicator.code).Nodup := by
  rw [footprintIndicators]
  split
  · exact footprint_codes
  · exact List.nodup_nil

theorem footprint_weighs {i : RiskIndicator FootprintCode} (listed : i ∈ analyzeFootprintThreats diff declared invokes thresholds) :
    Weighs (coded .footprint i) := by
  have heavy : ∀ (code : FootprintCode) (severity : RiskSeverity) (weight : ℚ), 20 ≤ weight →
      Weighs (coded .footprint (Footprints.indicator code severity weight)) := by
    intro code severity weight some_
    refine weighs_of_twenty ?_
    have positive : (0 : ℚ) ≤ weight := le_trans (by norm_num) some_
    simpa [weightOf,coded,Footprints.indicator,positive] using some_
  have calm : ∀ (code : FootprintCode) (severity : RiskSeverity) (weight : ℚ), 5 ≤ weight → ¬ Urgent severity →
      Weighs (coded .footprint (Footprints.indicator code severity weight)) := by
    intro code severity weight some_ isCalm
    refine weighs_of_calm ?_ isCalm
    have positive : (0 : ℚ) ≤ weight := le_trans (by norm_num) some_
    simpa [weightOf,coded,Footprints.indicator,positive] using some_
  simp only [analyzeFootprintThreats,List.mem_append] at listed
  rcases listed with ((((((undeclared | downgrade) | unused) | permission) | growth) | probing) | empty) | archived
  · rw [mem_given undeclared]
    split
    · exact heavy _ _ _ (by norm_num)
    · exact calm _ _ _ (by norm_num) (by simp [Urgent])
  · rw [mem_given downgrade]
    exact heavy _ _ _ (by norm_num)
  · rw [mem_given unused]
    exact calm _ _ _ (by norm_num) (by simp [Urgent])
  · rw [mem_given permission]
    exact calm _ _ _ (by norm_num) (by simp [Urgent])
  · rw [mem_given growth]
    exact heavy _ _ _ (by norm_num)
  · rw [mem_given probing]
    exact heavy _ _ _ (by norm_num)
  · rw [mem_given empty]
    exact heavy _ _ _ (by norm_num)
  · rw [mem_given archived]
    split
    · exact heavy _ _ _ (by norm_num)
    · exact calm _ _ _ (by norm_num) (by simp [Urgent])

end FootprintRules
section Contracts
variable {c : Context} {operations : List SimulatedOperation}

theorem contract_heavy {code : IndicatorCode} {severity : RiskSeverity} {weight : ℚ} (some_ : 20 ≤ weight) :
    Weighs (coded .contract (ContractTrust.indicator code severity weight)) := by
  refine weighs_of_twenty ?_
  have positive : (0 : ℚ) ≤ weight := le_trans (by norm_num) some_
  simpa [weightOf,coded,ContractTrust.indicator,positive] using some_

theorem contract_calm {code : IndicatorCode} {weight : ℚ} (some_ : 5 ≤ weight) :
    Weighs (coded .contract (ContractTrust.indicator code .medium weight)) := by
  refine weighs_of_calm ?_ (by simp [Urgent,coded,ContractTrust.indicator])
  have positive : (0 : ℚ) ≤ weight := le_trans (by norm_num) some_
  simpa [weightOf,coded,ContractTrust.indicator,positive] using some_

theorem contract_weighs {i : Indicator} (listed : i ∈ (analyzeContractInteractions c operations).2) :
    Weighs (coded .contract i) := by
  rcases RiskWeights.mem_indicators.mp listed with
    ⟨operation,_,isIt⟩ | ⟨contractId,_,ofState⟩ | ⟨contractId,_,_,isIt⟩ | ⟨contractId,_,_,rfl⟩
  · obtain ⟨contractId,_,isIt⟩ := Option.bind_eq_some_iff.mp isIt
    split at isIt
    · obtain rfl := Option.some.inj isIt
      rw [privilegedCall]
      split <;> exact contract_heavy (by norm_num)
    · cases isIt
  · rcases ofState with ⟨_,rfl⟩ | ⟨_,rfl⟩ | ⟨_,rfl⟩ | ⟨_,rfl⟩
    · exact contract_heavy (by norm_num)
    · exact contract_heavy (by norm_num)
    · exact contract_heavy (by norm_num)
    · exact contract_calm (by norm_num)
  · rcases isIt with rfl | ⟨_,rfl⟩
    · rw [RiskWeights.deployIndicator]
      split
      · exact contract_calm (by norm_num)
      · exact contract_heavy (by norm_num)
    · exact contract_heavy (by norm_num)
  · exact contract_calm (by norm_num)

theorem selfDeployed_of_urgent {i : Indicator} (listed : i ∈ (analyzeContractInteractions c operations).2)
    (newly : i.code = .newlyDeployedContractInvoked) (urgent : Urgent i.severity) :
    ContractTrust.indicator .unverifiedSelfDeployedContract .critical 30 ∈ (analyzeContractInteractions c operations).2 := by
  rcases RiskWeights.mem_indicators.mp listed with
    ⟨operation,_,isIt⟩ | ⟨contractId,_,ofState⟩ | ⟨contractId,deployed,isInvoked,isIt⟩ | ⟨contractId,_,_,rfl⟩
  · obtain ⟨contractId,_,isIt⟩ := Option.bind_eq_some_iff.mp isIt
    split at isIt
    · obtain rfl := Option.some.inj isIt
      exact absurd newly (RiskWeights.privilegedCall_weight contractId operation.function).2
    · cases isIt
  · rcases ofState with ⟨_,rfl⟩ | ⟨_,rfl⟩ | ⟨_,rfl⟩ | ⟨_,rfl⟩ <;> cases newly
  · rcases isIt with rfl | ⟨_,rfl⟩
    · cases isTrusted : trusted c contractId with
      | true =>
        rw [RiskWeights.deployIndicator,isTrusted] at urgent
        simp [Urgent,ContractTrust.indicator] at urgent
      | false => exact RiskWeights.mem_indicators.mpr (.inr (.inr (.inl ⟨contractId,deployed,isInvoked,.inr ⟨isTrusted,rfl⟩⟩)))
    · cases newly
  · cases newly

end Contracts

def integritySeverity : IntegrityCode → RiskSeverity
  | .simulationReverted => .high
  | .unboundedResourceLimits => .low
  | .zeroFeeSorobanEnvelope => .low
  | _ => .medium

def integrityWeight : IntegrityCode → ℚ
  | .simulationReverted => 20
  | .noSimulationResult => 10
  | .unboundedResourceLimits => 5
  | .zeroFeeSorobanEnvelope => 5
  | _ => 12

theorem integrity_of_code {resources : Option EnvelopeResources} {outcome : Option SimulatedOutcome} {simulated : Bool}
    {i : RiskIndicator IntegrityCode} (listed : i ∈ analyzeEnvelopeIntegrity resources outcome simulated) :
    i = integrity i.code (integritySeverity i.code) (integrityWeight i.code) := by
  have only : ∀ {applies : Bool} {x : RiskIndicator IntegrityCode}, i ∈ triggered applies x → i = x := fun member =>
    (mem_of_if member).2
  simp only [analyzeEnvelopeIntegrity,List.mem_append] at listed
  rcases listed with (((((member | member) | member) | member) | member) | member) | member <;>
    · rw [only member]
      rfl

theorem integrity_weighs (code : IntegrityCode) :
    Weighs (coded .envelope (integrity code (integritySeverity code) (integrityWeight code))) := by
  cases code with
  | simulationReverted =>
    refine weighs_of_twenty ?_
    norm_num [weightOf,coded,integrity,integrityWeight]
  | _ =>
    refine weighs_of_calm ?_ (by simp [Urgent,coded,integrity,integritySeverity])
    norm_num [weightOf,coded,integrity,integrityWeight]

section Engine
variable {runtime : Runtime} {request : SimulationRequest} {options : SimulationEngineOptions}

variable {i : RiskIndicator EngineCode}

theorem mem_engine :
    i ∈ engineIndicators runtime request options ↔
      (∃ d ∈ (drainResult runtime request options).2, coded .drain d = i) ∨
      (∃ f ∈ footprintIndicators request options, coded .footprint f = i) ∨
      (∃ t ∈ (contractResult runtime request options).2, coded .contract t = i) ∨
      ∃ e ∈ envelopeIndicators request, coded .envelope e = i := by
  simp only [engineIndicators,List.mem_append,List.mem_map,or_assoc]

section
variable (listed : i ∈ engineIndicators runtime request options)
include listed

theorem weighs_of_mem : Weighs i := by
  rcases mem_engine.mp listed with ⟨d,found,rfl⟩ | ⟨f,found,rfl⟩ | ⟨t,found,rfl⟩ | ⟨e,found,rfl⟩
  · rw [drain_of_code found]
    exact drain_weighs d.code
  · rw [footprintIndicators] at found
    split at found
    · exact footprint_weighs found
    · cases found
  · exact contract_weighs found
  · rw [integrity_of_code found]
    exact integrity_weighs e.code

theorem weight_agrees {j : RiskIndicator EngineCode}
    (listed' : j ∈ engineIndicators runtime request options) (same : j.code = i.code)
    (other : i.code ≠ .contract .newlyDeployedContractInvoked) : weightOf j = weightOf i := by
  rcases mem_engine.mp listed with ⟨d,found,rfl⟩ | ⟨f,found,rfl⟩ | ⟨t,found,rfl⟩ | ⟨e,found,rfl⟩ <;>
    rcases mem_engine.mp listed' with ⟨d',found',rfl⟩ | ⟨f',found',rfl⟩ | ⟨t',found',rfl⟩ | ⟨e',found',rfl⟩ <;>
    simp only [coded,EngineCode.drain.injEq,EngineCode.footprint.injEq,EngineCode.contract.injEq,EngineCode.envelope.injEq,
      reduceCtorEq] at same
  · rw [drain_of_code found,drain_of_code found',same]
  · rw [List.inj_on_of_nodup_map footprint_codes_engine found' found same]
  · have isOther : t.code ≠ .newlyDeployedContractInvoked := fun newly => other (congrArg EngineCode.contract newly)
    have first : weightOf t = RiskWeights.weight t.code := RiskWeights.weight_of_mem found isOther
    have second : weightOf t' = RiskWeights.weight t'.code := RiskWeights.weight_of_mem found' (same ▸ isOther)
    rw [same,← first] at second
    exact second
  · rw [integrity_of_code found,integrity_of_code found',same]

theorem heavy_of_urgent (other : i.code ≠ fullDrain)
    (urgent : Urgent i.severity) (noBurst : i.code ≠ burst) :
    ∃ code, code ≠ fullDrain ∧ 20 ≤ firstWeight (engineIndicators runtime request options) code := by
  have counts : ∀ j ∈ engineIndicators runtime request options, j.code ≠ .contract .newlyDeployedContractInvoked →
      Urgent j.severity → j.code ≠ burst → 20 ≤ firstWeight (engineIndicators runtime request options) j.code := by
    intro j member known isUrgent isOther
    rw [firstWeight_of_const fun k member' own => weight_agrees member member' own known,if_pos ⟨j,member,rfl⟩]
    exact (weighs_of_mem member).urgent isUrgent isOther
  by_cases newly : i.code = .contract .newlyDeployedContractInvoked
  · rcases mem_engine.mp listed with ⟨d,found,rfl⟩ | ⟨f,found,rfl⟩ | ⟨t,found,rfl⟩ | ⟨e,found,rfl⟩
    · cases newly
    · cases newly
    · have self := selfDeployed_of_urgent found (EngineCode.contract.inj newly) urgent
      have there : coded .contract (ContractTrust.indicator .unverifiedSelfDeployedContract .critical 30) ∈
          engineIndicators runtime request options := mem_engine.mpr (.inr (.inr (.inl ⟨_,self,rfl⟩)))
      exact ⟨_,by simp [coded,ContractTrust.indicator],counts _ there (by simp [coded,ContractTrust.indicator]) (.inr rfl)
        (by simp [coded,ContractTrust.indicator])⟩
    · cases newly
  · exact ⟨i.code,other,counts i listed newly urgent noBurst⟩

end

end Engine

instance : Fintype DrainCode where
  elems := {.fullBalanceDrain,.nearTotalBalanceOutflow,.accountMergeSweep,.destinationFanOut,.unboundedSequentialTransfers,
    .roundTripSelfDeal,.dustAmountTransfer,.revocableAssetTransfer,.assetLiquidationSweep}
  complete code := by cases code <;> decide

instance : Fintype FootprintCode where
  elems := {.undeclaredFootprintAccess,.footprintWriteDowngrade,.unusedFootprintEntries,.footprintOverPermission,
    .unboundedFootprintGrowth,.footprintKeyProbing,.emptyFootprintWithInvocation,.archivedKeyAccess}
  complete code := by cases code <;> decide

instance : Fintype IntegrityCode where
  elems := {.simulationReverted,.simulationHostErrors,.noSimulationResult,.missingTimeBounds,.unboundedResourceLimits,
    .zeroResourceLimits,.zeroFeeSorobanEnvelope}
  complete code := by cases code <;> decide

def ofDetector : DrainCode ⊕ FootprintCode ⊕ IndicatorCode ⊕ IntegrityCode → EngineCode
  | .inl code => .drain code
  | .inr (.inl code) => .footprint code
  | .inr (.inr (.inl code)) => .contract code
  | .inr (.inr (.inr code)) => .envelope code

instance : Fintype EngineCode :=
  Fintype.ofSurjective ofDetector fun code => by
    cases code with
    | drain code => exact ⟨.inl code,rfl⟩
    | footprint code => exact ⟨.inr (.inl code),rfl⟩
    | contract code => exact ⟨.inr (.inr (.inl code)),rfl⟩
    | envelope code => exact ⟨.inr (.inr (.inr code)),rfl⟩

section Score
variable {indicators : List (RiskIndicator EngineCode)}

theorem weightOf_nonneg (i : RiskIndicator EngineCode) : 0 ≤ weightOf i := by
  have severity : 0 ≤ severityWeight i.severity := by cases i.severity <;> norm_num [severityWeight]
  rw [weightOf]
  split
  · split
    · assumption
    · exact severity
  · exact severity

theorem firstWeight_nonneg (code : EngineCode) : 0 ≤ firstWeight indicators code := by
  rw [firstWeight]
  cases first indicators code with
  | none => exact le_refl _
  | some i => exact weightOf_nonneg i

theorem sum_le_total (codes : Finset EngineCode) : ∑ code ∈ codes, firstWeight indicators code ≤ rawTotal indicators := by
  rw [rawTotal_eq]
  exact Finset.sum_le_univ_sum_of_nonneg fun code => firstWeight_nonneg code

theorem two_le_total {a b : EngineCode} (differ : a ≠ b) : firstWeight indicators a + firstWeight indicators b ≤ rawTotal indicators := by
  have sum := @sum_le_total indicators {a,b}
  rwa [Finset.sum_pair differ] at sum

theorem blocks_of_total (enough : 80 ≤ rawTotal indicators) : (scoreRisk indicators none).blockExecution = true := by
  have near := sub_half_lt_round (rawTotal indicators)
  have above : ((79 : Int) : ℚ) < round (rawTotal indicators) := by
    push_cast
    linarith
  have whole : 80 ≤ round (rawTotal indicators) := Int.cast_lt.mp above
  have threshold : clamp ((none : Option Number).getD (.finite 80)) = .finite 80 := by norm_num [clamp]
  simp only [scoreRisk,threshold,reaches,decide_eq_true_eq]
  have score : (80 : Int) ≤ min 100 (max 0 (round (rawTotal indicators))) := by omega
  exact_mod_cast score

end Score

section Blocking
variable {runtime : Runtime} {request : SimulationRequest} {options : SimulationEngineOptions}

theorem firstWeight_drain (code : DrainCode) (found : ∃ i ∈ engineIndicators runtime request options, i.code = .drain code) :
    firstWeight (engineIndicators runtime request options) (.drain code) = drainWeight code := by
  have const : ∀ i ∈ engineIndicators runtime request options, i.code = .drain code → weightOf i = drainWeight code := by
    intro i listed own
    rcases mem_engine.mp listed with ⟨d,member,rfl⟩ | ⟨f,member,rfl⟩ | ⟨t,member,rfl⟩ | ⟨e,member,rfl⟩
    · obtain rfl := EngineCode.drain.inj own
      have is := drain_of_code member
      have weight : weightOf (coded .drain d) = drainWeight d.code := by
        rw [is]
        cases d.code <;> norm_num [weightOf,coded,DrainDetector.indicator,drainWeight]
      exact weight
    · cases own
    · cases own
    · cases own
  rw [firstWeight_of_const const,if_pos found]

theorem firstWeight_something {code : EngineCode} (found : ∃ i ∈ engineIndicators runtime request options, i.code = code) :
    5 ≤ firstWeight (engineIndicators runtime request options) code := by
  rw [firstWeight]
  cases isFirst : first (engineIndicators runtime request options) code with
  | none =>
    obtain ⟨i,listed,own⟩ := found
    exact absurd own (first_eq_none.mp isFirst i listed)
  | some i => exact (weighs_of_mem (first_eq_some isFirst).1).something

theorem engine_burst_iff (runtime : Runtime) (request : SimulationRequest) (options : SimulationEngineOptions) :
    (∃ i ∈ engineIndicators runtime request options, i.code = burst) ↔
      reaches (outgoingTransfers request.sourceAccount request.operations).length options.sequentialTransferThreshold = true := by
  constructor
  · rintro ⟨i,listed,own⟩
    rcases mem_engine.mp listed with ⟨d,member,rfl⟩ | ⟨f,member,rfl⟩ | ⟨t,member,rfl⟩ | ⟨e,member,rfl⟩
    · exact burst_iff.mp ⟨d,member,EngineCode.drain.inj own⟩
    · cases own
    · cases own
    · cases own
  · intro many
    have found : ∃ d ∈ (drainResult runtime request options).2, d.code = .unboundedSequentialTransfers := burst_iff.mpr many
    obtain ⟨d,member,own⟩ := found
    exact ⟨_,mem_engine.mpr (.inl ⟨d,member,rfl⟩),congrArg EngineCode.drain own⟩

theorem total_of_two (drains : ∃ i ∈ engineIndicators runtime request options, i.code = fullDrain)
    (bursts : ∃ i ∈ engineIndicators runtime request options, i.code = burst)
    (alone : ∀ i ∈ engineIndicators runtime request options, i.code = fullDrain ∨ i.code = burst) :
    rawTotal (engineIndicators runtime request options) = 78 := by
  have others : ∀ code ∈ Finset.univ, code ∉ ({fullDrain,burst} : Finset EngineCode) →
      firstWeight (engineIndicators runtime request options) code = 0 := by
    intro code _ other
    have absent : first (engineIndicators runtime request options) code = none := by
      refine first_eq_none.mpr fun i listed own => other ?_
      rcases alone i listed with full | isBurst
      · simp [← own,full]
      · simp [← own,isBurst]
    rw [firstWeight,absent]
    rfl
  rw [rawTotal_eq,← Finset.sum_subset (Finset.subset_univ _) others,Finset.sum_pair (by simp),firstWeight_drain _ drains,
    firstWeight_drain _ bursts]
  norm_num [drainWeight]

/-- An envelope that empties a balance and shows something else of severity high or critical is blocked, unless it
    sends a burst of transfers and shows nothing but these two. -/
theorem drain_blocks_iff (runtime : Runtime) (request : SimulationRequest) (options : SimulationEngineOptions) :
    ((∃ i ∈ engineIndicators runtime request options, i.code = fullDrain) →
      (∃ i ∈ engineIndicators runtime request options, i.code ≠ fullDrain ∧ Urgent i.severity) →
        (scoreRisk (engineIndicators runtime request options) none).blockExecution = true) ↔
    ((∃ i ∈ engineIndicators runtime request options, i.code = fullDrain) →
      reaches (outgoingTransfers request.sourceAccount request.operations).length options.sequentialTransferThreshold = false ∨
        ∃ i ∈ engineIndicators runtime request options, i.code ≠ fullDrain ∧ i.code ≠ burst) := by
  refine forall_congr' fun drains => ?_
  have full := firstWeight_drain .fullBalanceDrain drains
  constructor
  · intro blocks
    by_contra none_
    simp only [not_or,Bool.not_eq_false,not_exists,not_and,not_not] at none_
    obtain ⟨many,alone⟩ := none_
    have bursts := (engine_burst_iff runtime request options).mpr many
    obtain ⟨i,listed,own⟩ := bursts
    have severity : Urgent i.severity := by
      rcases mem_engine.mp listed with ⟨d,member,rfl⟩ | ⟨f,member,rfl⟩ | ⟨t,member,rfl⟩ | ⟨e,member,rfl⟩
      · have is := drain_of_code member
        rw [EngineCode.drain.inj own] at is
        rw [is]
        exact .inl rfl
      · cases own
      · cases own
      · cases own
    have blocked := blocks ⟨i,listed,by simp [own],severity⟩
    have total : rawTotal (engineIndicators runtime request options) = ((78 : Nat) : ℚ) := by
      rw [total_of_two drains ⟨i,listed,own⟩ fun j member => or_iff_not_imp_left.mpr (alone j member)]
      norm_num
    have score := score_of_total total none
    have threshold : clamp ((none : Option Number).getD (.finite 80)) = .finite 80 := by norm_num [clamp]
    simp only [scoreRisk] at score blocked
    rw [score,threshold,reaches] at blocked
    norm_num at blocked
  · intro condition urgent
    obtain ⟨i,listed,other,isUrgent⟩ := urgent
    by_cases isBurst : i.code = burst
    · have bursts : ∃ i ∈ engineIndicators runtime request options, i.code = burst := ⟨i,listed,isBurst⟩
      rcases condition with few | ⟨j,member,notFull,notBurst⟩
      · rw [(engine_burst_iff runtime request options).mp bursts] at few
        cases few
      · have third := firstWeight_something ⟨j,member,rfl⟩
        have weighs := firstWeight_drain .unboundedSequentialTransfers bursts
        have total := @sum_le_total (engineIndicators runtime request options) {fullDrain,burst,j.code}
        rw [Finset.sum_insert (by simp [notFull.symm]),Finset.sum_pair notBurst.symm,full,weighs] at total
        refine blocks_of_total (le_trans ?_ total)
        norm_num [drainWeight]
        linarith
    · obtain ⟨code,notFull,heavy⟩ := heavy_of_urgent listed other isUrgent isBurst
      have total := @two_le_total (engineIndicators runtime request options) _ _ notFull.symm
      rw [full] at total
      refine blocks_of_total (le_trans ?_ total)
      norm_num [drainWeight]
      linarith

end Blocking

section Sweep
variable {toUpperCase : String → String} {sourceAccount : String} {preState postState : Option (List AccountStateSnapshot)}
  {thresholds : DrainThresholds} {pre post : AccountStateSnapshot}

theorem fullDrain_of_emptied (operations : List TransferOperation) (preIs : snapshotFor preState sourceAccount = some pre)
    (postIs : snapshotFor postState sourceAccount = some post) (preParses : AmountsParse pre) (postParses : AmountsParse post)
    (ratio : thresholds.nearTotalOutflowRatio ≤ 1) {key : String} (listed : key ∈ listedKeys toUpperCase pre)
    (some_ : 0 < balanceUnder toUpperCase pre key) (emptied : balanceUnder toUpperCase post key = 0) :
    DrainDetector.indicator .fullBalanceDrain .critical 60 ∈
      (analyzeDrain toUpperCase sourceAccount operations preState postState thresholds).2 := by
  obtain ⟨-,keys,balanced,-⟩ := flows_balance toUpperCase operations thresholds preIs postIs preParses postParses
  obtain ⟨f,isFlow,own⟩ := List.mem_map.mp ((keys key).mpr (.inl listed))
  have flow := balanced f isFlow
  rw [own,emptied] at flow
  have outflow : readStroops f.outflowStroops = balanceUnder toUpperCase pre key := by
    have balance := flow.balance
    rw [flow.preIs,flow.postIs] at balance
    have inflow := flow.inflow
    rcases flow.oneWay with none_ | none_ <;> omega
  have drained : f.drained = true := by
    rw [flow.drained_iff,outflow,flow.preIs,div_self (by exact_mod_cast some_.ne')]
    exact ⟨by exact_mod_cast some_,HiddenDrains.ratio_le_one ratio⟩
  have shown : flowIndicator f = some (DrainDetector.indicator .fullBalanceDrain .critical 60) := by
    have left : readStroops f.postBalanceStroops = 0 := flow.postIs
    have moved : readStroops f.outflowStroops ≠ 0 := by
      rw [outflow]
      exact_mod_cast some_.ne'
    simp [flowIndicator,drained,moved,left]
  have diff : hasBalanceDiff sourceAccount preState postState = true := by
    rw [hasBalanceDiff,preIs,postIs]
    rfl
  simp only [analyzeDrain,List.mem_append]
  refine .inl (.inl (.inl (.inl (.inl (.inl (.inl ?_))))))
  rw [if_pos diff]
  exact List.mem_filterMap.mpr ⟨f,isFlow,shown⟩

end Sweep

/-- Eight payments to one account. -/
def payments : List TransferOperation := List.replicate 8 ⟨⟨.pay,none,none,none⟩,some "GDEST",some "12.5"⟩

/-- They empty the account, and nothing else is wrong. -/
def sweep : SimulationRequest where
  sourceAccount := "GSOURCE"
  operations := payments
  resources := none
  preState := some [snapshot "100" []]
  postState := some [snapshot "0" []]
  outcome := some ⟨some true,none,none⟩
  contracts := none
  trustRegistry := none

theorem sweep_key {toUpperCase : String → String} {thresholds : DrainThresholds} {f : AssetFlow}
    (listed : f ∈ flows toUpperCase "GSOURCE" sweep.preState sweep.postState thresholds) : f.canonicalKey = "native" := by
  have preParses : AmountsParse (snapshot "100" []) := by decide
  have postParses : AmountsParse (snapshot "0" []) := by decide
  obtain ⟨-,keys,-⟩ := @flows_balance "GSOURCE" sweep.preState sweep.postState _ _
    toUpperCase [] thresholds rfl rfl preParses postParses
  have key := (keys f.canonicalKey).mp (List.mem_map_of_mem listed)
  simpa [listedKeys,snapshot] using key

theorem sweep_drain {toUpperCase : String → String} {d : RiskIndicator DrainCode}
    (found : d ∈ (analyzeDrain toUpperCase sweep.sourceAccount sweep.operations sweep.preState sweep.postState
      HiddenDrains.defaultThresholds).2) : d.code = .fullBalanceDrain ∨ d.code = .unboundedSequentialTransfers := by
  simp only [analyzeDrain,List.mem_append] at found
  rcases found with ((((((flow | merge) | fanOut) | sequential) | roundTrip) | dust) | revocable) | sweeps
  · split at flow
    · obtain ⟨f,isFlow,is⟩ := List.mem_filterMap.mp flow
      have emptied : readStroops f.postBalanceStroops = 0 := by
        have balanced := @flow_balanced _ _ sweep.preState sweep.postState _ _ _ rfl rfl _ isFlow
        have none_ : balanceUnder toUpperCase (snapshot "0" []) "native" = 0 := by
          have amount : tryParseAmountToStroops (some "0") = some 0 := by decide
          simp [balanceUnder,listedBalances,snapshot,amount]
        rw [sweep_key isFlow,none_] at balanced
        exact balanced.postIs
      rw [flowIndicator,if_pos emptied] at is
      split at is
      · obtain rfl := Option.some.inj is
        exact .inl rfl
      · cases is
    · cases flow
  · exact absurd (mem_of_if merge).1 (by decide)
  · exact absurd (mem_of_if fanOut).1 (by decide)
  · obtain ⟨-,rfl⟩ := mem_of_if sequential
    exact .inr rfl
  · exact absurd (mem_of_if roundTrip).1 (by decide)
  · exact absurd (mem_of_if dust).1 (by decide)
  · have pre : snapshotFor sweep.preState sweep.sourceAccount = some (snapshot "100" []) := rfl
    rw [pre] at revocable
    exact absurd rfl (mem_of_if revocable).1
  · have liquidated := (mem_of_if sweeps).1
    simp only [liquidates,Bool.and_eq_true,List.any_eq_true,decide_eq_true_eq] at liquidated
    obtain ⟨-,⟨⟨f,isFlow,other,-⟩,-⟩,-⟩ := liquidated
    exact absurd (sweep_key isFlow) other

/-- A sweep in a burst of payments is not blocked. -/
theorem burst_unblocked : ¬ ∀ (runtime : Runtime) (request : SimulationRequest) (options : SimulationEngineOptions),
    (∃ i ∈ engineIndicators runtime request options, i.code = fullDrain) →
      (∃ i ∈ engineIndicators runtime request options, i.code ≠ fullDrain ∧ Urgent i.severity) →
        (scoreRisk (engineIndicators runtime request options) none).blockExecution = true := by
  intro claimed
  let runtime : Runtime := ⟨⟨String.toLower,fun _ _ => .eq⟩,String.toUpper⟩
  have emptied := @fullDrain_of_emptied runtime.toUpperCase "GSOURCE" sweep.preState sweep.postState HiddenDrains.defaultThresholds _ _
    payments rfl rfl (by decide) (by decide) (by norm_num [HiddenDrains.defaultThresholds]) "native" (by decide) (by decide) (by decide)
  have drains : ∃ i ∈ engineIndicators runtime sweep defaultSimulationOptions, i.code = fullDrain :=
    ⟨_,mem_engine.mpr (.inl ⟨_,emptied,rfl⟩),rfl⟩
  have condition := (drain_blocks_iff runtime sweep defaultSimulationOptions).mp (claimed runtime sweep defaultSimulationOptions) drains
  rcases condition with few | ⟨i,listed,notFull,notBurst⟩
  · have many : reaches (outgoingTransfers sweep.sourceAccount sweep.operations).length
        defaultSimulationOptions.sequentialTransferThreshold = true := by decide
    rw [many] at few
    cases few
  · rcases mem_engine.mp listed with ⟨d,found,rfl⟩ | ⟨f,found,rfl⟩ | ⟨t,found,rfl⟩ | ⟨e,found,rfl⟩
    · rcases sweep_drain found with full | isBurst
      · exact notFull (congrArg EngineCode.drain full)
      · exact notBurst (congrArg EngineCode.drain isBurst)
    · cases found
    · have uninvoked : ∀ operation ∈ sweep.operations.map TransferOperation.toSimulatedOperation, invokedId operation = none := by
        decide
      have noneInvoked : ∀ contractId,
          RiskWeights.invoked (sweep.operations.map TransferOperation.toSimulatedOperation) contractId ≠ true := by
        intro contractId isInvoked
        obtain ⟨operation,listed,invokes⟩ := RiskWeights.invoked_iff.mp isInvoked
        rw [uninvoked operation listed] at invokes
        cases invokes
      rcases RiskWeights.mem_indicators.mp found with
        ⟨operation,listed,isIt⟩ | ⟨contractId,isInvoked,-⟩ | ⟨contractId,-,isInvoked,-⟩ | ⟨contractId,isInvoked,-⟩
      · rw [RiskWeights.privilegedIndicator,uninvoked operation listed] at isIt
        cases isIt
      · exact noneInvoked contractId isInvoked
      · exact noneInvoked contractId isInvoked
      · exact noneInvoked contractId isInvoked
    · have none_ : envelopeIndicators sweep = [] := rfl
      rw [none_] at found
      cases found

end StellarAlerts.DrainBlocking
