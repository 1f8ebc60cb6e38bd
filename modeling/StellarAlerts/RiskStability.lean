import Mathlib.Algebra.Order.BigOperators.Group.Finset
import Mathlib.Data.List.TakeWhile
import StellarAlerts.RiskWeights

/-!
When the order of operations, and operations appended to them, keep the score.
-/
namespace StellarAlerts.RiskStability
open ContractTrust FirstOfKey Numbers RiskScorer RiskWeights

section States
variable (c : Context) (operations : List SimulatedOperation)

def stateRaises (contractId : String) : IndicatorCode → Bool
  | .contractCodeHashMismatch => hashMismatch c contractId
  | .contractNotDeployed => undeployed c contractId
  | .invocationOfArchivedContract => archived c contractId
  | _ => false

def newWeight (contractId : String) : Nat :=
  ∑ code, if stateRaises c contractId code && !raised c operations code then weight code else 0

end States

section Stability
variable {c : Context} {operations : List SimulatedOperation}

theorem below_of_le {m n : Nat} {x : Number} (fewer : m ≤ n) (few : below n x = true) : below m x = true := by
  cases x with
  | nan => cases few
  | infinite negative => exact few
  | finite q =>
    simp only [below,decide_eq_true_eq] at few ⊢
    exact lt_of_le_of_lt (Nat.cast_le.mpr fewer) few

variable {operations' : List SimulatedOperation}

variable {contractId : String}

section
variable (sub : operations.Subperm operations')
include sub

theorem invoked_subperm (isInvoked : invoked operations contractId = true) :
    invoked operations' contractId = true := by
  obtain ⟨operation,listed,invokes⟩ := invoked_iff.mp isInvoked
  exact invoked_iff.mpr ⟨operation,sub.subset listed,invokes⟩

theorem deployOrder_subperm (deployed : contractId ∈ deployOrder operations) :
    contractId ∈ deployOrder operations' := by
  obtain ⟨operation,listed,deploys⟩ := mem_deployOrder.mp deployed
  exact mem_deployOrder.mpr ⟨operation,sub.subset listed,deploys⟩

theorem anyInvoked_subperm {p q : String → Option String → Bool}
    (weaker : ∀ contractId fn, p contractId fn = true → q contractId fn = true) (some_ : anyInvoked operations p = true) :
    anyInvoked operations' q = true := by
  obtain ⟨operation,listed,contractId,invokes,holds⟩ := anyInvoked_iff.mp some_
  exact anyInvoked_iff.mpr ⟨operation,sub.subset listed,contractId,invokes,weaker _ _ holds⟩

theorem raised_subperm {code : IndicatorCode} (isRaised : raised c operations code = true) :
    raised c operations' code = true := by
  cases code with
  | newlyDeployedContractInvoked =>
    obtain ⟨contractId,deployed,isInvoked⟩ := List.any_eq_true.mp isRaised
    exact List.any_eq_true.mpr ⟨contractId,deployOrder_subperm sub deployed,invoked_subperm sub isInvoked⟩
  | unverifiedSelfDeployedContract =>
    obtain ⟨contractId,deployed,is⟩ := List.any_eq_true.mp isRaised
    rw [Bool.and_eq_true] at is
    refine List.any_eq_true.mpr ⟨contractId,deployOrder_subperm sub deployed,?_⟩
    rw [invoked_subperm sub is.1,is.2]
    rfl
  | invocationFanOut =>
    rw [raised] at isRaised ⊢
    refine anyInvoked_subperm sub (fun contractId _ many => ?_) isRaised
    rw [Bool.not_eq_true',← Bool.not_eq_true] at many ⊢
    exact fun few => many (below_of_le (sub.countP_le _) few)
  | _ =>
    rw [raised] at isRaised ⊢
    exact anyInvoked_subperm sub (fun _ _ holds => holds) isRaised

end

theorem weigh_le {p q : Bool} {w : Nat} (weaker : p = true → q = true) : (if p then w else 0) ≤ if q then w else 0 := by
  by_cases holds : p = true
  · simp [holds,weaker holds]
  · simp [holds]

theorem otherWeight_le (sub : operations.Subperm operations') : otherWeight c operations ≤ otherWeight c operations' :=
  Finset.sum_le_sum fun _ _ => weigh_le (raised_subperm sub)
theorem otherWeight_perm (perm : operations.Perm operations') : otherWeight c operations = otherWeight c operations' :=
  Nat.le_antisymm (otherWeight_le perm.subperm) (otherWeight_le perm.symm.subperm)

theorem otherWeight_add (contractId : String) :
    otherWeight c operations + newWeight c operations contractId =
      ∑ code, if raised c operations code || stateRaises c contractId code then weight code else 0 := by
  rw [otherWeight,newWeight,← Finset.sum_add_distrib]
  refine Finset.sum_congr rfl fun code _ => ?_
  cases raised c operations code <;> cases stateRaises c contractId code <;> simp

theorem raised_of_state (isInvoked : invoked operations contractId = true) {code : IndicatorCode}
    (raises : stateRaises c contractId code = true) : raised c operations code = true := by
  cases code with
  | contractCodeHashMismatch => exact anyInvoked_contract.mpr ⟨contractId,isInvoked,raises⟩
  | contractNotDeployed => exact anyInvoked_contract.mpr ⟨contractId,isInvoked,raises⟩
  | invocationOfArchivedContract => exact anyInvoked_contract.mpr ⟨contractId,isInvoked,raises⟩
  | _ => cases raises

theorem otherWeight_add_le (sub : operations.Subperm operations') {contractId : String}
    (isInvoked : invoked operations' contractId = true) :
    otherWeight c operations + newWeight c operations contractId ≤ otherWeight c operations' := by
  rw [otherWeight_add]
  refine Finset.sum_le_sum fun code _ => weigh_le fun either => ?_
  rcases Bool.or_eq_true _ _ |>.mp either with old | new
  · exact raised_subperm sub old
  · exact raised_of_state isInvoked new

theorem firstDeployed_eq_some (found : firstDeployed operations = some contractId) :
    contractId ∈ deployOrder operations ∧ invoked operations contractId = true :=
  ⟨List.mem_of_find?_eq_some found,by simpa using List.find?_some found⟩

theorem firstDeployed_isSome (deployed : contractId ∈ deployOrder operations)
    (isInvoked : invoked operations contractId = true) : ∃ other, firstDeployed operations = some other :=
  Option.isSome_iff_exists.mp (List.find?_isSome.mpr ⟨contractId,deployed,isInvoked⟩)

theorem deployWeight_some (found : firstDeployed operations = some contractId) :
    deployWeight c operations = if trusted c contractId then 12 else 36 := by
  rw [deployWeight,found]

theorem deployWeight_none (found : firstDeployed operations = none) : deployWeight c operations = 0 := by
  rw [deployWeight,found]

theorem deployWeight_ge {contractId : String} (deployed : contractId ∈ deployOrder operations)
    (isInvoked : invoked operations contractId = true) : 12 ≤ deployWeight c operations := by
  obtain ⟨first,found⟩ := firstDeployed_isSome deployed isInvoked
  rw [deployWeight_some found]
  split <;> simp

/-- All contracts that are deployed and invoked are trusted, or none is. -/
def Uniform (c : Context) (operations : List SimulatedOperation) : Prop :=
  ∀ a ∈ deployOrder operations, invoked operations a = true → ∀ b ∈ deployOrder operations, invoked operations b = true →
    trusted c a = trusted c b

theorem deployWeight_perm (uniform : Uniform c operations) (perm : operations'.Perm operations) :
    deployWeight c operations' = deployWeight c operations := by
  cases found : firstDeployed operations' with
  | some a =>
    obtain ⟨deployed,isInvoked⟩ := firstDeployed_eq_some found
    have deployed' := deployOrder_subperm perm.subperm deployed
    have isInvoked' := invoked_subperm perm.subperm isInvoked
    obtain ⟨b,found'⟩ := firstDeployed_isSome deployed' isInvoked'
    obtain ⟨bDeployed,bInvoked⟩ := firstDeployed_eq_some found'
    rw [deployWeight_some found,deployWeight_some found',uniform a deployed' isInvoked' b bDeployed bInvoked]
  | none =>
    cases found' : firstDeployed operations with
    | none => rw [deployWeight_none found,deployWeight_none found']
    | some b =>
      obtain ⟨deployed,isInvoked⟩ := firstDeployed_eq_some found'
      obtain ⟨a,some_⟩ := firstDeployed_isSome (deployOrder_subperm perm.symm.subperm deployed)
        (invoked_subperm perm.symm.subperm isInvoked)
      rw [found] at some_
      cases some_

theorem exists_perm_first (deployed : contractId ∈ deployOrder operations) (isInvoked : invoked operations contractId = true) :
    ∃ operations' : List SimulatedOperation, operations'.Perm operations ∧ firstDeployed operations' = some contractId := by
  obtain ⟨operation,listed,deploys⟩ := mem_deployOrder.mp deployed
  obtain ⟨front,rear,rfl⟩ := List.append_of_mem listed
  have perm : (operation :: (front ++ rear)).Perm (front ++ operation :: rear) := List.perm_middle.symm
  have one : firsts (fun _ => true) id [contractId] = [contractId] := rfl
  obtain ⟨others,order⟩ := @firsts_mono _ _ _ (fun _ => true) id [contractId] ((front ++ rear).filterMap deployedId)
  have orderIs : deployOrder (operation :: (front ++ rear)) = contractId :: others := by
    rw [deployOrder,List.filterMap_cons_some deploys]
    exact order.symm
  refine ⟨_,perm,?_⟩
  rw [firstDeployed,orderIs]
  exact List.find?_cons_of_pos (invoked_subperm perm.symm.subperm isInvoked)

theorem deployOrder_append (operations more : List SimulatedOperation) :
    ∃ others, deployOrder (operations ++ more) = deployOrder operations ++ others := by
  obtain ⟨others,order⟩ := @firsts_mono _ _ _ (fun _ => true) id (operations.filterMap deployedId) (more.filterMap deployedId)
  exact ⟨others,by rw [deployOrder,List.filterMap_append,← order,deployOrder]⟩

variable {a b : String}

theorem mem_takeWhile_of_find {p q : String → Bool} {list : List String} (weaker : ∀ x, p x = true → q x = true)
    (foundP : list.find? p = some b) (foundQ : list.find? q = some a) (other : a ≠ b) : a ∈ list.takeWhile fun x => !p x := by
  induction list with
  | nil => cases foundP
  | cons x rest ih =>
    rw [List.find?_cons] at foundP foundQ
    cases holds : p x with
    | true =>
      rw [holds] at foundP
      rw [weaker x holds] at foundQ
      exact absurd ((Option.some.inj foundQ).symm.trans (Option.some.inj foundP)) other
    | false =>
      rw [holds] at foundP
      rw [List.takeWhile_cons,holds]
      cases holdsQ : q x with
      | true =>
        rw [holdsQ] at foundQ
        simp [Option.some.inj foundQ]
      | false =>
        rw [holdsQ] at foundQ
        exact List.mem_cons_of_mem x (ih foundP foundQ)

theorem find_of_mem_takeWhile {p : String → Bool} {list : List String} (front : a ∈ list.takeWhile fun x => !p x) :
    list.find? (fun x => p x || x = a) = some a := by
  induction list with
  | nil => cases front
  | cons x rest ih =>
    rw [List.takeWhile_cons] at front
    cases holds : p x with
    | true => simp [holds] at front
    | false =>
      rw [List.find?_cons]
      by_cases own : x = a
      · simp [own]
      · have later : a ∈ rest.takeWhile fun x => !p x := by simpa [holds,Ne.symm own] using front
        simpa [holds,own] using ih later

def plainCall (contractId : String) : SimulatedOperation := ⟨.invokeContract,none,some contractId,none⟩

theorem invokedId_plainCall (deployed : contractId ∈ deployOrder operations) :
    invokedId (plainCall contractId) = some contractId := by
  obtain ⟨operation,_,deploys⟩ := mem_deployOrder.mp deployed
  rw [deployedId] at deploys
  split at deploys
  · have nonempty : contractId ≠ "" := by simpa using (Option.filter_eq_some_iff.mp deploys).2
    simp [invokedId,plainCall,filled,nonempty]
  · cases deploys

theorem trusted_of_verified (isVerified : verified c contractId = true) : trusted c contractId = true := by
  simp only [verified,trusted,Bool.or_eq_true,Bool.and_eq_true] at isVerified ⊢
  exact isVerified.imp_right And.left

theorem fanOut_plainCall (deployed : a ∈ deployOrder operations) (absent : invoked operations a = false)
    (bInvoked : invoked operations b = true) (new : raised c (operations ++ [plainCall a]) .invocationFanOut = true) :
    raised c operations .invocationFanOut = true := by
  have invokes := invokedId_plainCall deployed
  obtain ⟨contractId,isInvoked,many⟩ := anyInvoked_contract.mp new
  rw [Bool.not_eq_true',← Bool.not_eq_true] at many
  have counts : invocations (operations ++ [plainCall a]) contractId =
      invocations operations contractId + if some a = some contractId then 1 else 0 := by
    simp [invocations,List.countP_append,List.countP_singleton,invokes]
  by_cases own : a = contractId
  · have none_ : invocations operations contractId = 0 := by
      have notPos := mt invocations_pos.mp (by rw [← own,absent]; simp : ¬invoked operations contractId = true)
      omega
    have some_ := invocations_pos.mpr bInvoked
    rw [counts,if_pos (congrArg some own),none_] at many
    refine anyInvoked_contract.mpr ⟨b,bInvoked,?_⟩
    rw [Bool.not_eq_true',← Bool.not_eq_true]
    exact fun few => many (below_of_le some_ few)
  · have other : ¬some a = some contractId := fun equal => own (Option.some.inj equal)
    rw [counts,if_neg other,Nat.add_zero] at many
    have before : invoked operations contractId = true := by
      obtain ⟨operation,listed,is⟩ := invoked_iff.mp isInvoked
      rcases List.mem_append.mp listed with old | new
      · exact invoked_iff.mpr ⟨operation,old,is⟩
      · rw [List.mem_singleton.mp new,invokes] at is
        exact absurd is other
    refine anyInvoked_contract.mpr ⟨contractId,before,?_⟩
    rw [Bool.not_eq_true',← Bool.not_eq_true]
    exact many

/-- Where an untrusted contract is deployed and invoked already, a call of another one that is deployed raises what its state does. -/
theorem raised_plainCall (deployed : a ∈ deployOrder operations) (absent : invoked operations a = false)
    (bDeployed : b ∈ deployOrder operations) (bInvoked : invoked operations b = true) (untrusted : trusted c b = false)
    (code : IndicatorCode) :
    raised c (operations ++ [plainCall a]) code = (raised c operations code || stateRaises c a code) := by
  have invokes := invokedId_plainCall deployed
  have calls : ∀ p : String → Option String → Bool,
      anyInvoked (operations ++ [plainCall a]) p = (anyInvoked operations p || p a none) := by
    intro p
    have noFunction : (plainCall a).function = none := rfl
    simp [anyInvoked,invokes,noFunction]
  have sub : operations.Subperm (operations ++ [plainCall a]) := (List.sublist_append_left ..).subperm
  cases code with
  | privilegedFunctionWithoutAuth => simp [raised,calls,stateRaises,isPrivilegedFunction,filled]
  | privilegedContractFunction => simp [raised,calls,stateRaises,isPrivilegedFunction,filled]
  | unverifiedContractInvocation =>
    have unverified : verified c b = false := by
      rw [← Bool.not_eq_true]
      intro isVerified
      rw [trusted_of_verified isVerified] at untrusted
      cases untrusted
    have old : raised c operations .unverifiedContractInvocation = true :=
      anyInvoked_contract.mpr ⟨b,bInvoked,by simp [unverified]⟩
    rw [raised_subperm sub old,old]
    rfl
  | contractCodeHashMismatch => simp [raised,calls,stateRaises]
  | contractNotDeployed => simp [raised,calls,stateRaises]
  | invocationOfArchivedContract => simp [raised,calls,stateRaises]
  | newlyDeployedContractInvoked =>
    have old : raised c operations .newlyDeployedContractInvoked = true := List.any_eq_true.mpr ⟨b,bDeployed,bInvoked⟩
    rw [raised_subperm sub old,old]
    rfl
  | unverifiedSelfDeployedContract =>
    have old : raised c operations .unverifiedSelfDeployedContract = true :=
      List.any_eq_true.mpr ⟨b,bDeployed,by simp [bInvoked,untrusted]⟩
    rw [raised_subperm sub old,old]
    rfl
  | invocationFanOut =>
    have noState : stateRaises c a .invocationFanOut = false := rfl
    rw [noState,Bool.or_false,Bool.eq_iff_iff]
    refine ⟨fun new => ?_,raised_subperm sub⟩
    exact fanOut_plainCall deployed absent bInvoked new

theorem otherWeight_plainCall (deployed : a ∈ deployOrder operations) (absent : invoked operations a = false)
    (bDeployed : b ∈ deployOrder operations) (bInvoked : invoked operations b = true) (untrusted : trusted c b = false) :
    otherWeight c (operations ++ [plainCall a]) = otherWeight c operations + newWeight c operations a := by
  rw [otherWeight_add,otherWeight]
  refine Finset.sum_congr rfl fun code _ => ?_
  rw [raised_plainCall deployed absent bDeployed bInvoked untrusted]

theorem firstDeployed_plainCall
    (front : a ∈ (deployOrder operations).takeWhile fun contractId => !invoked operations contractId) :
    firstDeployed (operations ++ [plainCall a]) = some a := by
  have deployed : a ∈ deployOrder operations := (List.takeWhile_sublist _).subset front
  have order : deployOrder (operations ++ [plainCall a]) = deployOrder operations := by
    simp [deployOrder,deployedId,plainCall,deployKind]
  have invokes : invoked (operations ++ [plainCall a]) = fun contractId => invoked operations contractId || contractId = a := by
    funext contractId
    simp [invoked,invokedId_plainCall deployed,eq_comm]
  rw [firstDeployed,order,invokes]
  exact find_of_mem_takeWhile front

theorem absent_of_front (front : a ∈ (deployOrder operations).takeWhile fun contractId => !invoked operations contractId) :
    invoked operations a = false := by
  simpa using List.mem_takeWhile_imp front

theorem perm_iff (c : Context) (operations : List SimulatedOperation) (blockThreshold : Option Number) :
    (∀ operations' : List SimulatedOperation, operations'.Perm operations →
      score c operations' blockThreshold = score c operations blockThreshold) ↔
      Uniform c operations ∨ 88 ≤ otherWeight c operations := by
  simp only [score_eq]
  constructor
  · intro same
    by_contra neither
    rw [not_or] at neither
    obtain ⟨mixed,light⟩ := neither
    refine mixed fun a aDeployed aInvoked b bDeployed bInvoked => ?_
    obtain ⟨first,firstPerm,firstIs⟩ := exists_perm_first aDeployed aInvoked
    obtain ⟨second,secondPerm,secondIs⟩ := exists_perm_first bDeployed bInvoked
    have weights := (same first firstPerm).trans (same second secondPerm).symm
    rw [otherWeight_perm firstPerm,otherWeight_perm secondPerm,deployWeight_some firstIs,deployWeight_some secondIs] at weights
    cases isTrusted : trusted c a <;> cases isTrusted' : trusted c b <;> simp [isTrusted,isTrusted'] at weights ⊢ <;> omega
  · intro either operations' perm
    rw [otherWeight_perm perm]
    by_cases uniform : Uniform c operations
    · rw [deployWeight_perm uniform perm]
    · have heavy := either.resolve_left uniform
      obtain ⟨a,deployed,isInvoked⟩ : ∃ a, a ∈ deployOrder operations ∧ invoked operations a = true := by
        by_contra none_
        exact uniform fun a deployed isInvoked => absurd ⟨a,deployed,isInvoked⟩ none_
      have atLeast := @deployWeight_ge c _ a deployed isInvoked
      have atLeast' := @deployWeight_ge c _ a (deployOrder_subperm perm.symm.subperm deployed)
        (invoked_subperm perm.symm.subperm isInvoked)
      omega

/-- A trusted contract that is deployed in front of the first and would make it weigh less. -/
def Lowers (c : Context) (operations : List SimulatedOperation) (contractId : String) : Prop :=
  contractId ∈ (deployOrder operations).takeWhile (fun other => !invoked operations other) ∧ trusted c contractId = true ∧
    newWeight c operations contractId < 24 ∧ otherWeight c operations + newWeight c operations contractId < 88

theorem front_of_appended {more : List SimulatedOperation} (found : firstDeployed operations = some b)
    (found' : firstDeployed (operations ++ more) = some a) (other : a ≠ b) :
    a ∈ (deployOrder operations).takeWhile fun contractId => !invoked operations contractId := by
  have sub : operations.Subperm (operations ++ more) := (List.sublist_append_left ..).subperm
  obtain ⟨bDeployed,bInvoked⟩ := firstDeployed_eq_some found
  obtain ⟨rest,order⟩ := deployOrder_append operations more
  have inFront : (deployOrder operations).find? (invoked (operations ++ more)) = some a := by
    have isSome : ((deployOrder operations).find? (invoked (operations ++ more))).isSome :=
      List.find?_isSome.mpr ⟨b,bDeployed,invoked_subperm sub bInvoked⟩
    rw [firstDeployed,order,List.find?_append,Option.or_of_isSome isSome] at found'
    exact found'
  exact mem_takeWhile_of_find (fun _ => invoked_subperm sub) found inFront other

theorem append_iff (c : Context) (operations : List SimulatedOperation) (blockThreshold : Option Number) :
    (∀ more, score c operations blockThreshold ≤ score c (operations ++ more) blockThreshold) ↔
      ∀ b, firstDeployed operations = some b → trusted c b = false → ∀ a, ¬Lowers c operations a := by
  simp only [score_eq]
  constructor
  · rintro grows b found untrusted a ⟨front,isTrusted,light,lower⟩
    obtain ⟨bDeployed,bInvoked⟩ := firstDeployed_eq_some found
    have deployed : a ∈ deployOrder operations := (List.takeWhile_sublist _).subset front
    have weights := grows [plainCall a]
    rw [otherWeight_plainCall deployed (absent_of_front front) bDeployed bInvoked untrusted,
      deployWeight_some (firstDeployed_plainCall front),deployWeight_some found,isTrusted,untrusted] at weights
    push_cast at weights
    simp only [if_true] at weights
    omega
  · intro none_ more
    have sub : operations.Subperm (operations ++ more) := (List.sublist_append_left ..).subperm
    have others := @otherWeight_le c _ _ sub
    cases found : firstDeployed operations with
    | none =>
      rw [deployWeight_none found]
      omega
    | some b =>
      obtain ⟨bDeployed,bInvoked⟩ := firstDeployed_eq_some found
      have bInvoked' := invoked_subperm sub bInvoked
      have atLeast := @deployWeight_ge c _ b (deployOrder_subperm sub bDeployed) bInvoked'
      cases isTrusted : trusted c b with
      | true =>
        rw [deployWeight_some found,isTrusted,if_pos rfl]
        omega
      | false =>
        rw [deployWeight_some found,isTrusted,if_neg (by simp)]
        obtain ⟨a,found'⟩ := firstDeployed_isSome (deployOrder_subperm sub bDeployed) bInvoked'
        cases isTrusted' : trusted c a with
        | false =>
          rw [deployWeight_some found',isTrusted',if_neg (by simp)]
          omega
        | true =>
          have other : a ≠ b := by
            rintro rfl
            rw [isTrusted] at isTrusted'
            cases isTrusted'
          have front := front_of_appended found found' other
          have added := @otherWeight_add_le c _ _ sub a (firstDeployed_eq_some found').2
          have heavy : 24 ≤ newWeight c operations a ∨ 88 ≤ otherWeight c operations + newWeight c operations a := by
            by_contra light
            exact none_ b found isTrusted a ⟨front,isTrusted',by omega,by omega⟩
          rw [deployWeight_some found',isTrusted',if_pos rfl]
          omega

/-- The score is the same in every order and no appended operations lower it, or lift a block, if and only if the contracts that are
    deployed and invoked are all trusted or all untrusted or the rest weighs 88 at least, and, where the first of them is untrusted, no
    trusted contract deployed in front of it would lower the score when it is invoked. -/
theorem stable_iff (c : Context) (blockThreshold : Option Number) (operations : List SimulatedOperation) :
    ((∀ operations' : List SimulatedOperation, operations'.Perm operations →
        (scoreRisk (analyzeContractInteractions c operations').2 blockThreshold).score =
          (scoreRisk (analyzeContractInteractions c operations).2 blockThreshold).score) ∧
      ∀ more, (scoreRisk (analyzeContractInteractions c operations).2 blockThreshold).score ≤
          (scoreRisk (analyzeContractInteractions c (operations ++ more)).2 blockThreshold).score ∧
        ((scoreRisk (analyzeContractInteractions c operations).2 blockThreshold).blockExecution = true →
          (scoreRisk (analyzeContractInteractions c (operations ++ more)).2 blockThreshold).blockExecution = true)) ↔
      (Uniform c operations ∨ 88 ≤ otherWeight c operations) ∧
        ∀ b, firstDeployed operations = some b → trusted c b = false → ∀ a, ¬Lowers c operations a := by
  refine and_congr (perm_iff c operations blockThreshold) (Iff.trans ?_ (append_iff c operations blockThreshold))
  constructor
  · exact fun both more => (both more).1
  · exact fun grows more => ⟨grows more,blocks_of_le (grows more)⟩

end Stability

/-- One contract of the allowlist, no records and no snapshots. -/
def oneTrusted : Context :=
  ⟨⟨id,compare⟩,"GABC",none,some ⟨none,some ["A"]⟩,none,.finite 10⟩

def deployCall (contractId : String) : SimulatedOperation := ⟨.createContract,none,some contractId,none⟩

/-- A call of the trusted contract, appended to the deployment of both and a call of the other, lifts the block. -/
theorem appended_call_unblocks :
    (scoreRisk (analyzeContractInteractions oneTrusted [deployCall "A",deployCall "B",plainCall "B"]).2 none).blockExecution =
      true ∧
    (scoreRisk (analyzeContractInteractions oneTrusted [deployCall "A",deployCall "B",plainCall "B",plainCall "A"]).2
      none).blockExecution = false := by
  rw [blocks_default,blocks_default]
  decide

end StellarAlerts.RiskStability
