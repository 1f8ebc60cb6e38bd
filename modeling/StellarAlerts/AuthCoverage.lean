import StellarAlerts.RiskWeights

/-!
Which privileged calls are reported as unauthorized.
-/
namespace StellarAlerts.AuthCoverage
open ContractTrust Numbers RiskScorer RiskWeights

def Covers (entry : AuthEntry) (contractId fn : String) : Prop :=
  entry.contractId = some contractId ∧ (entry.function = some fn ∨ entry.function = none)
def joined (contractId fn : String) : String := contractId ++ "::" ++ fn

structure Apart (entry : AuthEntry) (contractId fn : String) : Prop where
  contract : entry.contractId.getD "*" ≠ contractId
  call : ∀ named, filled entry.contractId = some named → joined named (entry.function.getD "*") ≠ joined contractId fn
  anyCall : ∀ named, filled entry.contractId = some named → joined named (entry.function.getD "*") ≠ joined contractId "*"
  wildcard : joined (entry.contractId.getD "*") "*" ≠ joined contractId fn

section Coverage
variable {c : Context} {operations : List SimulatedOperation}

def PrivilegedCall (c : Context) (operation : SimulatedOperation) (contractId fn : String) : Prop :=
  invokedId operation = some contractId ∧ operation.function = some fn ∧ isPrivilegedFunction c (some fn) = true
def Uncovered (c : Context) (contractId fn : String) : Prop := ∀ entry ∈ c.authEntries.getD [], ¬ Covers entry contractId fn

/-- Every privileged call that no entry covers has its indicator: it stands at its place among the privileged calls. -/
def UncoveredReported (c : Context) (operations : List SimulatedOperation) : Prop :=
  ∀ operation ∈ operations, ∀ contractId fn, PrivilegedCall c operation contractId fn → Uncovered c contractId fn →
    operation ∈ (analyzeContractInteractions c operations).1.privilegedInvocations ∧
      ∀ k : Nat, (analyzeContractInteractions c operations).1.privilegedInvocations[k]? = some operation →
        (analyzeContractInteractions c operations).2[k]? = some (indicator .privilegedFunctionWithoutAuth .critical 42)

theorem getElem_filterMap {α β : Type} {f : α → Option β} {list : List α} {k : Nat} {a : α}
    (there : (list.filter fun a => (f a).isSome)[k]? = some a) : (list.filterMap f)[k]? = f a := by
  induction list generalizing k with
  | nil => simp at there
  | cons b rest ih =>
    cases gives : f b with
    | none =>
      rw [List.filterMap_cons_none gives]
      exact ih (by simpa [gives] using there)
    | some v =>
      rw [List.filterMap_cons_some gives]
      simp only [List.filter_cons,gives,Option.isSome_some,if_true] at there
      cases k with
      | zero =>
        obtain rfl : b = a := by simpa using there
        simp [gives]
      | succ k => exact ih (by simpa using there)

theorem indicator_at {operation : SimulatedOperation} {k : Nat}
    (there : (analyzeContractInteractions c operations).1.privilegedInvocations[k]? = some operation) :
    (analyzeContractInteractions c operations).2[k]? = privilegedIndicator c operation := by
  have calls : (tally c operations).privilegedInvocations[k]? = some operation := there
  rw [tally,(tally_calls ..).2] at calls
  have here := getElem_filterMap calls
  obtain ⟨i,gives⟩ := Option.isSome_iff_exists.mp (List.mem_filter.mp (List.mem_of_getElem? calls)).2
  have inside : k < (operations.filterMap (privilegedIndicator c)).length := by
    rw [gives] at here
    exact (List.getElem?_eq_some_iff.mp here).1
  simp only [analyzeContractInteractions,tally,(tally_calls ..).1,List.append_assoc]
  rw [List.getElem?_append_left inside]
  exact here

variable {contractId fn : String}

theorem privilegedIndicator_eq {operation : SimulatedOperation} (call : PrivilegedCall c operation contractId fn) :
    privilegedIndicator c operation = some (privilegedCall c contractId (some fn)) := by
  obtain ⟨invokes,function,privileged⟩ := call
  simp [privilegedIndicator,invokes,function,privileged]

theorem mem_privileged {operation : SimulatedOperation} (listed : operation ∈ operations)
    (call : PrivilegedCall c operation contractId fn) :
    operation ∈ (analyzeContractInteractions c operations).1.privilegedInvocations := by
  show operation ∈ (tally c operations).privilegedInvocations
  rw [tally,(tally_calls ..).2,List.mem_filter,privilegedIndicator_eq call]
  exact ⟨listed,rfl⟩

theorem privilegedCall_without (contractId : String) (fn : Option String) :
    privilegedCall c contractId fn = indicator .privilegedFunctionWithoutAuth .critical 42 ↔ hasAuthFor c contractId fn = false := by
  rw [privilegedCall]
  cases hasAuthFor c contractId fn <;> simp [indicator]

theorem mem_authKeys {key : String} : key ∈ authKeys c ↔ ∃ entry ∈ c.authEntries.getD [],
    (∃ named, filled entry.contractId = some named ∧ joined named (entry.function.getD "*") = key) ∨
      joined (entry.contractId.getD "*") "*" = key := by
  simp only [authKeys,List.mem_flatMap,List.mem_append,Option.mem_toList,Option.map_eq_some_iff,List.mem_singleton,joined,
    String.append_assoc]
  refine exists_congr fun entry => and_congr_right fun _ => or_congr Iff.rfl ?_
  exact eq_comm

theorem hasAuthFor_false :
    hasAuthFor c contractId (some fn) = false ↔ ∀ entry ∈ c.authEntries.getD [], Apart entry contractId fn := by
  have none_ : hasAuthFor c contractId (some fn) = false ↔
      joined contractId fn ∉ authKeys c ∧ joined contractId "*" ∉ authKeys c := by
    have wild : contractId ++ "::*" = joined contractId "*" := by simp [joined,String.append_assoc]
    have own : contractId ++ "::" ++ (some fn).getD "*" = joined contractId fn := rfl
    simp only [hasAuthFor,own,wild,Bool.or_eq_false_iff,List.contains_eq_mem,decide_eq_false_iff_not]
  rw [none_,mem_authKeys,mem_authKeys]
  constructor
  · rintro ⟨call,anyCall⟩ entry listed
    refine ⟨?_,?_,?_,?_⟩
    · intro same
      exact anyCall ⟨entry,listed,.inr (by rw [same])⟩
    · intro named given same
      exact call ⟨entry,listed,.inl ⟨named,given,same⟩⟩
    · intro named given same
      exact anyCall ⟨entry,listed,.inl ⟨named,given,same⟩⟩
    · intro same
      exact call ⟨entry,listed,.inr same⟩
  · intro apart
    constructor
    · rintro ⟨entry,listed,⟨named,given,same⟩ | same⟩
      · exact (apart entry listed).call named given same
      · exact (apart entry listed).wildcard same
    · rintro ⟨entry,listed,⟨named,given,same⟩ | same⟩
      · exact (apart entry listed).anyCall named given same
      · have ids : entry.contractId.getD "*" = contractId := by
          rw [← String.toList_inj] at same ⊢
          simpa [joined] using same
        exact (apart entry listed).contract ids

/-- The uncovered calls are all reported where no entry is for the contract of one, or is taken for it. -/
theorem reported_iff (c : Context) (operations : List SimulatedOperation) :
    UncoveredReported c operations ↔
      ∀ operation ∈ operations, ∀ contractId fn, PrivilegedCall c operation contractId fn → Uncovered c contractId fn →
        ∀ entry ∈ c.authEntries.getD [], Apart entry contractId fn := by
  refine forall₂_congr fun operation listed => forall₂_congr fun contractId fn => forall₂_congr fun call uncovered => ?_
  have there := mem_privileged listed call
  rw [← hasAuthFor_false,← privilegedCall_without]
  constructor
  · rintro ⟨-,reported⟩
    obtain ⟨k,at_⟩ := List.mem_iff_getElem?.mp there
    have found := reported k at_
    rw [indicator_at at_,privilegedIndicator_eq call] at found
    exact Option.some.inj found
  · intro without
    refine ⟨there,fun k at_ => ?_⟩
    rw [indicator_at at_,privilegedIndicator_eq call,without]

end Coverage

/-- An authorization for another function of the contract silences the report. -/
theorem silenced_by_other : ¬ ∀ c : Context, ∀ operations : List SimulatedOperation, UncoveredReported c operations := by
  intro claimed
  let c : Context := ⟨⟨fun text => String.ofList (text.toList.map Char.toLower),fun _ _ => .eq⟩,"GSIGNER",none,none,some [⟨some "CTOKEN",some "transfer"⟩],.finite 5⟩
  let call : SimulatedOperation := ⟨.invokeContract,none,some "CTOKEN",some "set_admin"⟩
  have uncovered : Uncovered c "CTOKEN" "set_admin" := by
    intro entry listed covers
    obtain rfl := List.mem_singleton.mp listed
    simp [Covers] at covers
  have apart := (reported_iff c [call]).mp (claimed c [call]) call (by simp) "CTOKEN" "set_admin"
    ⟨by decide,rfl,by decide⟩ uncovered ⟨some "CTOKEN",some "transfer"⟩ (by simp [c])
  exact apart.contract rfl

end StellarAlerts.AuthCoverage
