import Mathlib.Algebra.BigOperators.Ring.Finset
import StellarAlerts.ContractTrust

/-!
What the operations of an envelope weigh. What they raise is said by what is among them
(`raised`, `raises_iff`), so the score is the sum of two weights (`score_eq`): that of
what they raise, which no order changes, and that of the first contract that is deployed
and invoked.
-/
namespace StellarAlerts.RiskWeights
open ContractTrust FirstOfKey Numbers OrderedMaps RiskScorer

section Weights
variable (c : Context) (operations : List SimulatedOperation)

def invocations (contractId : String) : Nat := operations.countP fun operation => invokedId operation = some contractId
def invoked (contractId : String) : Bool := operations.any fun operation => invokedId operation = some contractId

/-- Some invocation is of such a contract and function. -/
def anyInvoked (p : String → Option String → Bool) : Bool :=
  operations.any fun operation => (invokedId operation).any fun contractId => p contractId operation.function

def deployOrder : List String := firsts (fun _ => true) id (operations.filterMap deployedId)

/-- What the operations raise, by what is among them. -/
def raised : IndicatorCode → Bool
  | .privilegedFunctionWithoutAuth => anyInvoked operations fun contractId fn =>
    isPrivilegedFunction c fn && !hasAuthFor c contractId fn
  | .privilegedContractFunction => anyInvoked operations fun contractId fn =>
    isPrivilegedFunction c fn && hasAuthFor c contractId fn
  | .unverifiedContractInvocation => anyInvoked operations fun contractId _ => !verified c contractId
  | .contractCodeHashMismatch => anyInvoked operations fun contractId _ => hashMismatch c contractId
  | .contractNotDeployed => anyInvoked operations fun contractId _ => undeployed c contractId
  | .invocationOfArchivedContract => anyInvoked operations fun contractId _ => archived c contractId
  | .newlyDeployedContractInvoked => (deployOrder operations).any (invoked operations)
  | .unverifiedSelfDeployedContract => (deployOrder operations).any fun contractId =>
    invoked operations contractId && !trusted c contractId
  | .invocationFanOut => anyInvoked operations fun contractId _ =>
    !below (invocations operations contractId) c.maxInvocationsPerContract

/-- What a code weighs; that of newly deployed contracts is weighed apart. -/
def weight : IndicatorCode → Nat
  | .privilegedFunctionWithoutAuth => 42
  | .privilegedContractFunction => 24
  | .unverifiedContractInvocation => 24
  | .contractCodeHashMismatch => 38
  | .contractNotDeployed => 20
  | .invocationOfArchivedContract => 12
  | .newlyDeployedContractInvoked => 0
  | .unverifiedSelfDeployedContract => 30
  | .invocationFanOut => 14

def otherWeight : Nat := ∑ code, if raised c operations code then weight code else 0
def firstDeployed : Option String := (deployOrder operations).find? (invoked operations)

def deployWeight : Nat :=
  match firstDeployed operations with
  | none => 0
  | some contractId => if trusted c contractId then 12 else 36

end Weights

section Raised
variable {c : Context} {operations : List SimulatedOperation}

variable {contractId : String}

theorem invoked_iff :
    invoked operations contractId = true ↔ ∃ operation ∈ operations, invokedId operation = some contractId := by
  simp [invoked]

theorem invocations_pos : 0 < invocations operations contractId ↔ invoked operations contractId = true := by
  rw [invocations,List.countP_pos_iff,invoked_iff]
  simp

theorem anyInvoked_iff {p : String → Option String → Bool} :
    anyInvoked operations p = true ↔
      ∃ operation ∈ operations, ∃ contractId, invokedId operation = some contractId ∧ p contractId operation.function = true := by
  simp [anyInvoked,Option.any_eq_true]

theorem anyInvoked_contract {p : String → Bool} :
    anyInvoked operations (fun contractId _ => p contractId) = true ↔
      ∃ contractId, invoked operations contractId = true ∧ p contractId = true := by
  rw [anyInvoked_iff]
  constructor
  · rintro ⟨operation,listed,contractId,invokes,holds⟩
    exact ⟨contractId,invoked_iff.mpr ⟨operation,listed,invokes⟩,holds⟩
  · rintro ⟨contractId,isInvoked,holds⟩
    obtain ⟨operation,listed,invokes⟩ := invoked_iff.mp isInvoked
    exact ⟨operation,listed,contractId,invokes,holds⟩

/-- What is kept of a contract, if it was invoked. -/
def Records (c : Context) (operations : List SimulatedOperation) (contractId : String) : Option ContractInteraction → Prop
  | none => invocations operations contractId = 0
  | some i => i.contractId = contractId ∧ 0 < invocations operations contractId ∧
    i.invocationCount = invocations operations contractId ∧ i.verified = verified c contractId ∧
    i.codeHashMismatch = hashMismatch c contractId

theorem visit_records {deployed : OrderedMap String String} {t : Tally}
    (records : ∀ contractId, Records c operations contractId (t.interactionsByContract.get contractId))
    (operation : SimulatedOperation) (contractId : String) :
    Records c (operations ++ [operation]) contractId ((visit c deployed t operation).interactionsByContract.get contractId) := by
  have counts : invocations (operations ++ [operation]) contractId =
      invocations operations contractId + if invokedId operation = some contractId then 1 else 0 := by
    simp [invocations,List.countP_append,List.countP_singleton]
  cases invokes : invokedId operation with
  | none =>
    have same : visit c deployed t operation = t := by simp [visit,invokes]
    rw [invokes] at counts
    rw [same]
    simpa [Records,counts] using records contractId
  | some own =>
    have interactions : (visit c deployed t operation).interactionsByContract = t.interactionsByContract.set own
        (countInvocation c ((t.interactionsByContract.get own).getD (newInteraction c deployed own)) operation.function) := by
      simp only [visit,invokes]
      split <;> rfl
    rw [interactions,get_set]
    rw [invokes] at counts
    by_cases same : contractId = own
    · subst same
      rw [if_pos rfl] at counts
      have before := records contractId
      cases found : t.interactionsByContract.get contractId with
      | none =>
        rw [found] at before
        have none_ : invocations operations contractId = 0 := before
        simp [Records,countInvocation,newInteraction,counts,none_]
      | some i =>
        rw [found] at before
        obtain ⟨own,_,count,isVerified,mismatch⟩ := before
        simp [Records,countInvocation,counts,own,count,isVerified,mismatch]
    · have other : ¬some own = some contractId := fun equal => same (Option.some.inj equal).symm
      rw [if_neg other,Nat.add_zero] at counts
      rw [if_neg same]
      simpa [Records,counts] using records contractId

theorem tally_records (deployed : OrderedMap String String) (operations : List SimulatedOperation) (contractId : String) :
    Records c operations contractId
      ((operations.foldl (visit c deployed) ⟨.empty,[],[]⟩).interactionsByContract.get contractId) := by
  induction operations using List.reverseRecOn generalizing contractId with
  | nil => simp [Records,invocations]
  | append_singleton operations last ih =>
    rw [List.foldl_append]
    exact visit_records ih last contractId

theorem interaction_isSome (contractId : String) :
    ((tally c operations).interactionsByContract.get contractId).isSome = invoked operations contractId := by
  have records := tally_records (c := c) (deployedInEnvelope c operations) operations contractId
  rw [← tally] at records
  rw [Bool.eq_iff_iff,← invocations_pos]
  cases found : (tally c operations).interactionsByContract.get contractId with
  | none =>
    rw [found] at records
    have none_ : invocations operations contractId = 0 := records
    simp [none_]
  | some i =>
    rw [found] at records
    simpa using records.2.1

theorem mem_values {i : ContractInteraction} (listed : i ∈ (tally c operations).interactionsByContract.entries.map Prod.snd) :
    Records c operations i.contractId (some i) := by
  obtain ⟨e,entry,rfl⟩ := List.mem_map.mp listed
  have found : (tally c operations).interactionsByContract.get e.1 = some e.2 := get_eq_some.mpr entry
  have records := tally_records (c := c) (deployedInEnvelope c operations) operations e.1
  rw [← tally,found] at records
  have own : e.2.contractId = e.1 := records.1
  rw [own]
  exact records

theorem value_of_invoked {contractId : String} (isInvoked : invoked operations contractId = true) :
    ∃ i ∈ (tally c operations).interactionsByContract.entries.map Prod.snd, i.contractId = contractId := by
  have isSome := @interaction_isSome c operations contractId
  rw [isInvoked] at isSome
  obtain ⟨i,found⟩ := Option.isSome_iff_exists.mp isSome
  have listed : i ∈ (tally c operations).interactionsByContract.entries.map Prod.snd :=
    List.mem_map.mpr ⟨_,get_eq_some.mp found,rfl⟩
  have records := tally_records (c := c) (deployedInEnvelope c operations) operations contractId
  rw [← tally,found] at records
  exact ⟨i,listed,records.1⟩

def privilegedIndicator (c : Context) (operation : SimulatedOperation) : Option Indicator :=
  (invokedId operation).bind fun contractId =>
    if isPrivilegedFunction c operation.function then some (privilegedCall c contractId operation.function) else none

theorem tally_calls (deployed : OrderedMap String String) (operations : List SimulatedOperation) :
    (operations.foldl (visit c deployed) ⟨.empty,[],[]⟩).indicators = operations.filterMap (privilegedIndicator c) ∧
      (operations.foldl (visit c deployed) ⟨.empty,[],[]⟩).privilegedInvocations =
        operations.filter fun operation => (privilegedIndicator c operation).isSome := by
  induction operations using List.reverseRecOn with
  | nil => exact ⟨rfl,rfl⟩
  | append_singleton operations last ih =>
    rw [List.foldl_append,List.filterMap_append,List.filter_append,← ih.1,← ih.2,List.foldl_cons,List.foldl_nil]
    cases invokes : invokedId last with
    | none => simp [visit,privilegedIndicator,invokes]
    | some contractId =>
      by_cases privileged : isPrivilegedFunction c last.function = true
      · simp [visit,privilegedIndicator,invokes,privileged]
      · simp [visit,privilegedIndicator,invokes,privileged]

theorem deployed_keys (c : Context) (operations : List SimulatedOperation) :
    (deployedInEnvelope c operations).keys = deployOrder operations := by
  induction operations using List.reverseRecOn with
  | nil => rfl
  | append_singleton operations last ih =>
    rw [deployOrder,List.filterMap_append,deployedInEnvelope,List.foldl_append,← deployedInEnvelope]
    cases deploys : deployedId last with
    | none => simpa [deploys,deployOrder] using ih
    | some contractId =>
      have one : [last].filterMap deployedId = [contractId] := by simp [deploys]
      rw [one,firsts_concat,← deployOrder,← ih]
      simp only [List.foldl_cons,List.foldl_nil,deploys,keys_set,keep]
      by_cases old : contractId ∈ (deployedInEnvelope c operations).keys
      · simp [old]
      · simp [old]

theorem mem_deployOrder :
    contractId ∈ deployOrder operations ↔ ∃ operation ∈ operations, deployedId operation = some contractId := by
  rw [← List.mem_filterMap]
  constructor
  · exact fun kept => (mem_of_mem_firsts kept).1
  · intro listed
    have isSome : ((operations.filterMap deployedId).find? fun other => true && id other = contractId).isSome :=
      List.find?_isSome.mpr ⟨contractId,listed,by simp⟩
    obtain ⟨other,found⟩ := Option.isSome_iff_exists.mp isSome
    have same : other = contractId := by simpa using List.find?_some found
    exact same ▸ find_mem_firsts found

def OfState (c : Context) (contractId : String) (i : Indicator) : Prop :=
  (verified c contractId = false ∧ i = indicator .unverifiedContractInvocation .high 24) ∨
  (hashMismatch c contractId = true ∧ i = indicator .contractCodeHashMismatch .critical 38) ∨
  (undeployed c contractId = true ∧ i = indicator .contractNotDeployed .high 20) ∨
  (archived c contractId = true ∧ i = indicator .invocationOfArchivedContract .medium 12)

variable {i : Indicator}

theorem mem_interactionIndicators {interaction : ContractInteraction}
    (records : Records c operations interaction.contractId (some interaction)) :
    i ∈ interactionIndicators c interaction ↔ OfState c interaction.contractId i := by
  obtain ⟨_,_,_,isVerified,mismatch⟩ := records
  rw [interactionIndicators,isVerified,mismatch,OfState]
  simp only [List.mem_append,or_assoc]
  refine or_congr ?_ (or_congr ?_ (or_congr ?_ ?_))
  · cases verified c interaction.contractId <;> simp
  · cases hashMismatch c interaction.contractId <;> simp
  · cases undeployed c interaction.contractId <;> simp
  · cases archived c interaction.contractId <;> simp

def deployIndicator (c : Context) (contractId : String) : Indicator :=
  if trusted c contractId then indicator .newlyDeployedContractInvoked .medium 12
  else indicator .newlyDeployedContractInvoked .critical 36

theorem deployIndicators_eq (contractId : String) :
    deployIndicators c (tally c operations).interactionsByContract contractId =
      if invoked operations contractId then
        deployIndicator c contractId ::
          if trusted c contractId then [] else [indicator .unverifiedSelfDeployedContract .critical 30]
      else [] := by
  rw [deployIndicators,interaction_isSome,deployIndicator]
  cases invoked operations contractId <;> cases trusted c contractId <;> simp

theorem mem_indicators :
    i ∈ (analyzeContractInteractions c operations).2 ↔
      (∃ operation ∈ operations, privilegedIndicator c operation = some i) ∨
      (∃ contractId, invoked operations contractId = true ∧ OfState c contractId i) ∨
      (∃ contractId ∈ deployOrder operations, invoked operations contractId = true ∧
        (i = deployIndicator c contractId ∨
          trusted c contractId = false ∧ i = indicator .unverifiedSelfDeployedContract .critical 30)) ∨
      ∃ contractId, invoked operations contractId = true ∧
        below (invocations operations contractId) c.maxInvocationsPerContract = false ∧
        i = indicator .invocationFanOut .medium 14 := by
  simp only [analyzeContractInteractions,List.mem_append,or_assoc]
  refine or_congr ?_ (or_congr ?_ (or_congr ?_ ?_))
  · rw [tally,(tally_calls ..).1,List.mem_filterMap]
  · rw [List.mem_flatMap]
    constructor
    · rintro ⟨interaction,listed,member⟩
      have records := mem_values ((List.mergeSort_perm _ _).mem_iff.mp listed)
      exact ⟨interaction.contractId,invocations_pos.mp records.2.1,(mem_interactionIndicators records).mp member⟩
    · rintro ⟨contractId,isInvoked,ofState⟩
      obtain ⟨interaction,listed,rfl⟩ := @value_of_invoked c _ _ isInvoked
      exact ⟨interaction,(List.mergeSort_perm _ _).mem_iff.mpr listed,(mem_interactionIndicators (mem_values listed)).mpr ofState⟩
  · rw [List.mem_flatMap,deployed_keys]
    refine exists_congr fun contractId => and_congr_right fun _ => ?_
    rw [deployIndicators_eq]
    cases invoked operations contractId <;> cases trusted c contractId <;> simp
  · rw [List.mem_flatMap]
    constructor
    · rintro ⟨interaction,listed,member⟩
      obtain ⟨_,some_,count,_⟩ := mem_values listed
      rw [fanOutIndicators,count] at member
      refine ⟨interaction.contractId,invocations_pos.mp some_,?_⟩
      cases few : below (invocations operations interaction.contractId) c.maxInvocationsPerContract with
      | true => simp [few] at member
      | false => simpa [few] using member
    · rintro ⟨contractId,isInvoked,many,rfl⟩
      obtain ⟨interaction,listed,rfl⟩ := @value_of_invoked c _ _ isInvoked
      obtain ⟨_,_,count,_⟩ := mem_values listed
      exact ⟨interaction,listed,by simp [fanOutIndicators,count,many]⟩

theorem deployIndicator_code (contractId : String) : (deployIndicator c contractId).code = .newlyDeployedContractInvoked := by
  rw [deployIndicator]
  split <;> rfl

theorem raised_of_mem {code : IndicatorCode}
    (listed : ∃ i ∈ (analyzeContractInteractions c operations).2, i.code = code) : raised c operations code = true := by
  simp only [mem_indicators] at listed
  rcases listed with ⟨i,⟨operation,listed,isIt⟩ | ⟨contractId,isInvoked,ofState⟩ | ⟨contractId,listed,isInvoked,isIt⟩ |
    ⟨contractId,isInvoked,many,rfl⟩,rfl⟩
  · obtain ⟨contractId,invokes,isIt⟩ := Option.bind_eq_some_iff.mp isIt
    by_cases privileged : isPrivilegedFunction c operation.function = true
    · rw [if_pos privileged] at isIt
      obtain rfl := Option.some.inj isIt
      cases auth : hasAuthFor c contractId operation.function with
      | true =>
        rw [privilegedCall,if_pos auth]
        show raised c operations .privilegedContractFunction = true
        rw [raised,anyInvoked_iff]
        exact ⟨operation,listed,contractId,invokes,by simp [privileged,auth]⟩
      | false =>
        rw [privilegedCall,if_neg (by simp [auth])]
        show raised c operations .privilegedFunctionWithoutAuth = true
        rw [raised,anyInvoked_iff]
        exact ⟨operation,listed,contractId,invokes,by simp [privileged,auth]⟩
    · rw [if_neg privileged] at isIt
      cases isIt
  · rcases ofState with ⟨is,rfl⟩ | ⟨is,rfl⟩ | ⟨is,rfl⟩ | ⟨is,rfl⟩
    · exact anyInvoked_contract.mpr ⟨contractId,isInvoked,by simp [is]⟩
    · exact anyInvoked_contract.mpr ⟨contractId,isInvoked,is⟩
    · exact anyInvoked_contract.mpr ⟨contractId,isInvoked,is⟩
    · exact anyInvoked_contract.mpr ⟨contractId,isInvoked,is⟩
  · rcases isIt with rfl | ⟨untrusted,rfl⟩
    · rw [deployIndicator_code]
      exact List.any_eq_true.mpr ⟨contractId,listed,isInvoked⟩
    · exact List.any_eq_true.mpr ⟨contractId,listed,by simp [isInvoked,untrusted]⟩
  · exact anyInvoked_contract.mpr ⟨contractId,isInvoked,by simp [many]⟩

theorem mem_of_raised {code : IndicatorCode} (isRaised : raised c operations code = true) :
    ∃ i ∈ (analyzeContractInteractions c operations).2, i.code = code := by
  simp only [mem_indicators]
  cases code with
  | privilegedFunctionWithoutAuth =>
    rw [raised,anyInvoked_iff] at isRaised
    obtain ⟨operation,listed,contractId,invokes,is⟩ := isRaised
    simp only [Bool.and_eq_true,Bool.not_eq_true'] at is
    exact ⟨_,.inl ⟨operation,listed,by simp [privilegedIndicator,invokes,is.1]; rfl⟩,by simp [privilegedCall,is.2]; rfl⟩
  | privilegedContractFunction =>
    rw [raised,anyInvoked_iff] at isRaised
    obtain ⟨operation,listed,contractId,invokes,is⟩ := isRaised
    simp only [Bool.and_eq_true] at is
    exact ⟨_,.inl ⟨operation,listed,by simp [privilegedIndicator,invokes,is.1]; rfl⟩,by simp [privilegedCall,is.2]; rfl⟩
  | unverifiedContractInvocation =>
    obtain ⟨contractId,isInvoked,is⟩ := anyInvoked_contract.mp isRaised
    exact ⟨_,.inr (.inl ⟨contractId,isInvoked,.inl ⟨by simpa using is,rfl⟩⟩),rfl⟩
  | contractCodeHashMismatch =>
    obtain ⟨contractId,isInvoked,is⟩ := anyInvoked_contract.mp isRaised
    exact ⟨_,.inr (.inl ⟨contractId,isInvoked,.inr (.inl ⟨is,rfl⟩)⟩),rfl⟩
  | contractNotDeployed =>
    obtain ⟨contractId,isInvoked,is⟩ := anyInvoked_contract.mp isRaised
    exact ⟨_,.inr (.inl ⟨contractId,isInvoked,.inr (.inr (.inl ⟨is,rfl⟩))⟩),rfl⟩
  | invocationOfArchivedContract =>
    obtain ⟨contractId,isInvoked,is⟩ := anyInvoked_contract.mp isRaised
    exact ⟨_,.inr (.inl ⟨contractId,isInvoked,.inr (.inr (.inr ⟨is,rfl⟩))⟩),rfl⟩
  | newlyDeployedContractInvoked =>
    obtain ⟨contractId,listed,isInvoked⟩ := List.any_eq_true.mp isRaised
    exact ⟨_,.inr (.inr (.inl ⟨contractId,listed,isInvoked,.inl rfl⟩)),deployIndicator_code contractId⟩
  | unverifiedSelfDeployedContract =>
    obtain ⟨contractId,listed,is⟩ := List.any_eq_true.mp isRaised
    simp only [Bool.and_eq_true,Bool.not_eq_true'] at is
    exact ⟨_,.inr (.inr (.inl ⟨contractId,listed,is.1,.inr ⟨is.2,rfl⟩⟩)),rfl⟩
  | invocationFanOut =>
    obtain ⟨contractId,isInvoked,is⟩ := anyInvoked_contract.mp isRaised
    exact ⟨_,.inr (.inr (.inr ⟨contractId,isInvoked,by simpa using is,rfl⟩)),rfl⟩

theorem raises_iff (code : IndicatorCode) :
    (∃ i ∈ (analyzeContractInteractions c operations).2, i.code = code) ↔ raised c operations code = true :=
  ⟨raised_of_mem,mem_of_raised⟩

theorem privilegedCall_weight (contractId : String) (fn : Option String) :
    weightOf (privilegedCall c contractId fn) = weight (privilegedCall c contractId fn).code ∧
      (privilegedCall c contractId fn).code ≠ .newlyDeployedContractInvoked := by
  rw [privilegedCall]
  split
  · exact ⟨by norm_num [weightOf,indicator,weight],by simp [indicator]⟩
  · exact ⟨by norm_num [weightOf,indicator,weight],by simp [indicator]⟩

theorem weight_of_mem (listed : i ∈ (analyzeContractInteractions c operations).2)
    (other : i.code ≠ .newlyDeployedContractInvoked) : weightOf i = weight i.code := by
  rcases mem_indicators.mp listed with ⟨operation,_,isIt⟩ | ⟨contractId,_,ofState⟩ | ⟨contractId,_,_,isIt⟩ | ⟨contractId,_,_,rfl⟩
  · obtain ⟨contractId,_,isIt⟩ := Option.bind_eq_some_iff.mp isIt
    split at isIt
    · obtain rfl := Option.some.inj isIt
      exact (privilegedCall_weight contractId operation.function).1
    · cases isIt
  · rcases ofState with ⟨_,rfl⟩ | ⟨_,rfl⟩ | ⟨_,rfl⟩ | ⟨_,rfl⟩ <;> norm_num [weightOf,indicator,weight]
  · rcases isIt with rfl | ⟨_,rfl⟩
    · exact absurd (deployIndicator_code contractId) other
    · norm_num [weightOf,indicator,weight]
  · norm_num [weightOf,indicator,weight]

theorem firstWeight_other {code : IndicatorCode} (other : code ≠ .newlyDeployedContractInvoked) :
    firstWeight (analyzeContractInteractions c operations).2 code =
      ((if raised c operations code then weight code else 0 : Nat) : ℚ) := by
  have const : ∀ i ∈ (analyzeContractInteractions c operations).2, i.code = code → weightOf i = weight code :=
    fun i listed own => own ▸ weight_of_mem listed (own ▸ other)
  rw [firstWeight_of_const const]
  by_cases isRaised : raised c operations code = true
  · rw [if_pos (raises_iff code |>.mpr isRaised),if_pos isRaised]
  · rw [if_neg fun there => isRaised ((raises_iff code).mp there),if_neg isRaised,Nat.cast_zero]

theorem first_deploys (list : List String) :
    first (list.flatMap (deployIndicators c (tally c operations).interactionsByContract)) .newlyDeployedContractInvoked =
      (list.find? (invoked operations)).map (deployIndicator c) := by
  induction list with
  | nil => rfl
  | cons contractId rest ih =>
    rw [List.flatMap_cons,first_append,ih,deployIndicators_eq,List.find?_cons]
    cases isInvoked : invoked operations contractId with
    | true => simp [first,deployIndicator_code]
    | false => simp [first]

theorem first_newly :
    first (analyzeContractInteractions c operations).2 .newlyDeployedContractInvoked =
      (firstDeployed operations).map (deployIndicator c) := by
  have calls : first (tally c operations).indicators .newlyDeployedContractInvoked = none := by
    refine first_eq_none.mpr fun i listed => ?_
    rw [tally,(tally_calls ..).1,List.mem_filterMap] at listed
    obtain ⟨operation,_,isIt⟩ := listed
    obtain ⟨contractId,_,isIt⟩ := Option.bind_eq_some_iff.mp isIt
    split at isIt
    · obtain rfl := Option.some.inj isIt
      exact (privilegedCall_weight contractId operation.function).2
    · cases isIt
  have states : ∀ interactions : List ContractInteraction, first (interactions.flatMap (interactionIndicators c))
      .newlyDeployedContractInvoked = none := by
    refine fun interactions => first_eq_none.mpr fun i listed => ?_
    obtain ⟨interaction,_,member⟩ := List.mem_flatMap.mp listed
    intro own
    simp only [interactionIndicators,List.mem_append] at member
    rcases member with ((member | member) | member) | member <;> split at member <;> simp_all [indicator]
  have fanOuts : ∀ interactions : List ContractInteraction, first (interactions.flatMap (fanOutIndicators c))
      .newlyDeployedContractInvoked = none := by
    refine fun interactions => first_eq_none.mpr fun i listed => ?_
    obtain ⟨interaction,_,member⟩ := List.mem_flatMap.mp listed
    intro own
    rw [fanOutIndicators] at member
    split at member <;> simp_all [indicator]
  simp only [analyzeContractInteractions]
  rw [first_append,first_append,first_append,calls,states,fanOuts,first_deploys,deployed_keys,Option.none_or,Option.none_or,
    Option.or_none,firstDeployed]

theorem firstWeight_newly :
    firstWeight (analyzeContractInteractions c operations).2 .newlyDeployedContractInvoked = (deployWeight c operations : ℚ) := by
  rw [firstWeight,first_newly,deployWeight]
  cases firstDeployed operations with
  | none => simp
  | some contractId =>
    simp only [Option.map_some,Option.elim_some,deployIndicator]
    split <;> norm_num [weightOf,indicator]

theorem total_eq :
    rawTotal (analyzeContractInteractions c operations).2 = ((otherWeight c operations + deployWeight c operations : Nat) : ℚ) := by
  have others : (otherWeight c operations : ℚ) = ∑ code, ((if raised c operations code then weight code else 0 : Nat) : ℚ) := by
    rw [otherWeight,Nat.cast_sum]
  have newly : (deployWeight c operations : ℚ) =
      ∑ code : IndicatorCode, if code = .newlyDeployedContractInvoked then (deployWeight c operations : ℚ) else 0 := by
    rw [Finset.sum_ite_eq',if_pos (Finset.mem_univ _)]
  rw [rawTotal_eq,Nat.cast_add,others,newly,← Finset.sum_add_distrib]
  refine Finset.sum_congr rfl fun code _ => ?_
  by_cases own : code = .newlyDeployedContractInvoked
  · subst own
    rw [firstWeight_newly,if_pos rfl]
    simp [weight]
  · rw [firstWeight_other own,if_neg own,add_zero]

def score (c : Context) (operations : List SimulatedOperation) (blockThreshold : Option Number) : Int :=
  (scoreRisk (analyzeContractInteractions c operations).2 blockThreshold).score

theorem score_eq (blockThreshold : Option Number) :
    score c operations blockThreshold = min 100 (otherWeight c operations + deployWeight c operations : Int) := by
  rw [score,score_of_total total_eq]
  push_cast
  rfl

/-- Without a threshold of its own, 80 blocks. -/
theorem blocks_default :
    (scoreRisk (analyzeContractInteractions c operations).2 none).blockExecution =
      decide (80 ≤ otherWeight c operations + deployWeight c operations) := by
  have threshold : clamp ((none : Option Number).getD (.finite 80)) = .finite 80 := by norm_num [clamp]
  have value := @score_eq c operations none
  rw [score] at value
  simp only [scoreRisk] at value ⊢
  rw [value,threshold,reaches,decide_eq_decide]
  norm_cast
  omega

end Raised
end StellarAlerts.RiskWeights
