import StellarAlerts.RuleContexts

/-!
The groups of rules that are built from settings: a least amount and a list of assets.
What is combined of both means what the settings say (`createCombinedFilter_meaning`).
-/
namespace StellarAlerts.FilterBuilders
open Numbers RuleContexts

def createAmountThresholdRule (minAmount : Number) : FilterRuleGroup :=
  ⟨.AND,[.rule ⟨"amount",.gte,.one (.number minAmount)⟩]⟩
def assetRule (asset : String) : FilterItem := .rule ⟨"asset",.eq,.one (.text asset)⟩

def createAssetFilterRule : List String → FilterRuleGroup
  | [] => ⟨.OR,[]⟩
  | [asset] => ⟨.AND,[assetRule asset]⟩
  | allowedAssets => ⟨.OR,allowedAssets.map assetRule⟩

def createCombinedFilter (minAmount : Option Number) (allowedAssets : Option (List String)) : FilterRuleGroup :=
  let amounts := match minAmount with
    | some minAmount => if (Number.finite 0).lt minAmount then [createAmountThresholdRule minAmount] else []
    | none => []
  let assets := match allowedAssets with
    | some allowedAssets => if allowedAssets = [] then [] else [createAssetFilterRule allowedAssets]
    | none => []
  match amounts ++ assets with
  | [] => ⟨.AND,[]⟩
  | [rules] => rules
  | rules => ⟨.AND,rules.map fun group => .group group.operator group.rules⟩

section
variable (r : Runtime) (payment : PaymentContext)

def amountNumber : Number :=
  match payment.amount with
  | .inl n => n
  | .inr s => r.texts.double s

theorem amountRule_evaluates (minAmount : Number) :
    evaluateRule r ⟨"amount",.gte,.one (.number minAmount)⟩ payment.value = .ok (minAmount.le (amountNumber r payment)) := by
  have values : getFieldValues r ⟨"amount",.gte,.one (.number minAmount)⟩ payment.value = [amountValue payment.amount] := by
    cases amount : payment.amount <;> simp [getFieldValues,amount,amountValue]
  rw [evaluateRule,values]
  cases amount : payment.amount <;>
    simp [evaluateValue,hasValue,normalizeComparable,RuleValue.value,Scalar.value,toNumber,Except.map,RuleContexts.compare,
      amountValue,amountNumber,amount,RulesEngine.Comparable.toNumber]

theorem assetRule_evaluates (asset : String) :
    evaluateRule r ⟨"asset",.eq,.one (.text asset)⟩ payment.value = .ok (payment.asset = asset) := by
  have values : getFieldValues r ⟨"asset",.eq,.one (.text asset)⟩ payment.value = [.text payment.asset] := by
    simp [getFieldValues]
  rw [evaluateRule,values]
  simp [evaluateValue,hasValue,isNumber,normalizeComparable,RuleValue.value,Scalar.value,toText,Except.map,RuleContexts.compare,
    RulesEngine.Comparable.same]

theorem createAmountThresholdRule_evaluates (minAmount : Number) :
    evaluateRuleGroup r (createAmountThresholdRule minAmount) payment.value = .ok (minAmount.le (amountNumber r payment)) := by
  simp [evaluateRuleGroup,createAmountThresholdRule,evaluateItems,evaluateItem,amountRule_evaluates,combine,Except.map]

theorem assetRules_evaluate (assets : List String) :
    evaluateItems r payment.value (assets.map assetRule) = .ok (assets.map fun asset => decide (payment.asset = asset)) := by
  induction assets with
  | nil => rfl
  | cons asset rest ih => simp only [List.map_cons,assetRule,evaluateItems,evaluateItem,assetRule_evaluates,ih]

theorem asset_listed (assets : List String) :
    ((assets.map fun asset => decide (payment.asset = asset)).any fun result => result) = decide (payment.asset ∈ assets) := by
  rw [List.any_map,Bool.eq_iff_iff,List.any_eq_true]
  simp

theorem createAssetFilterRule_evaluates (allowedAssets : List String) :
    evaluateRuleGroup r (createAssetFilterRule allowedAssets) payment.value =
      .ok (allowedAssets = [] ∨ payment.asset ∈ allowedAssets) := by
  match allowedAssets with
  | [] => rfl
  | [asset] =>
    simp [evaluateRuleGroup,createAssetFilterRule,assetRule,evaluateItems,evaluateItem,assetRule_evaluates,combine,Except.map]
  | first :: second :: rest =>
    have several : createAssetFilterRule (first :: second :: rest) = ⟨.OR,(first :: second :: rest).map assetRule⟩ := rfl
    rw [evaluateRuleGroup,several,assetRules_evaluate]
    show Except.ok (((first :: second :: rest).map fun asset => decide (payment.asset = asset)).any fun result => result) = _
    rw [asset_listed]
    simp only [reduceCtorEq,false_or]

/-- The meaning of the settings: a minimum that is above zero is reached, and the asset is one of a list that is not empty. -/
def Meets (minAmount : Option Number) (allowedAssets : Option (List String)) : Prop :=
  (∀ least, minAmount = some least → (Number.finite 0).lt least = true → least.le (amountNumber r payment) = true) ∧
    ∀ assets, allowedAssets = some assets → assets = [] ∨ payment.asset ∈ assets

theorem both_evaluate {a b : FilterRuleGroup} {x y : Bool} (first : evaluateRuleGroup r a payment.value = .ok x)
    (second : evaluateRuleGroup r b payment.value = .ok y) :
    evaluateRuleGroup r ⟨.AND,[a,b].map fun group => .group group.operator group.rules⟩ payment.value = .ok (x && y) := by
  rw [evaluateRuleGroup]
  simp only [List.map_cons,List.map_nil,evaluateItems,evaluateItem_group,first,second]
  simp [combine,Except.map]

/-- What is combined of settings evaluates, and is true and alerts for a payment exactly where it meets them. -/
theorem createCombinedFilter_meaning (minAmount : Option Number) (allowedAssets : Option (List String)) :
    ∃ alert, evaluateRuleGroup r (createCombinedFilter minAmount allowedAssets) payment.value = .ok alert ∧
      shouldAlert r (some (createCombinedFilter minAmount allowedAssets)) payment.value = alert ∧
      (alert = true ↔ Meets r payment minAmount allowedAssets) := by
  have amounts := createAmountThresholdRule_evaluates r payment
  have assets := createAssetFilterRule_evaluates r payment
  obtain ⟨alert,evaluates,meaning⟩ : ∃ alert,
      evaluateRuleGroup r (createCombinedFilter minAmount allowedAssets) payment.value = .ok alert ∧
        (alert = true ↔ Meets r payment minAmount allowedAssets) := by
    unfold createCombinedFilter Meets
    rcases minAmount with _ | least
    · rcases allowedAssets with _ | allowed
      · exact ⟨true,rfl,by simp⟩
      · by_cases empty : allowed = []
        · exact ⟨true,by simp [empty,evaluateRuleGroup,evaluateItems,combine,Except.map],by simp [empty]⟩
        · exact ⟨_,by simpa [empty] using assets allowed,by simp [empty]⟩
    · by_cases positive : (Number.finite 0).lt least = true
      · rcases allowedAssets with _ | allowed
        · exact ⟨_,by simpa [positive] using amounts least,by simp [positive]⟩
        · by_cases empty : allowed = []
          · exact ⟨_,by simpa [positive,empty] using amounts least,by simp [positive,empty]⟩
          · have both := both_evaluate r payment (amounts least) (assets allowed)
            exact ⟨_,by simpa [positive,empty] using both,by simp [positive,empty]⟩
      · rcases allowedAssets with _ | allowed
        · exact ⟨true,by simp [positive,evaluateRuleGroup,evaluateItems,combine,Except.map],by simp [positive]⟩
        · by_cases empty : allowed = []
          · exact ⟨true,by simp [positive,empty,evaluateRuleGroup,evaluateItems,combine,Except.map],by simp [positive,empty]⟩
          · exact ⟨_,by simpa [positive,empty] using assets allowed,by simp [positive,empty]⟩
  exact ⟨alert,evaluates,shouldAlert_evaluates evaluates,meaning⟩

end

end StellarAlerts.FilterBuilders
