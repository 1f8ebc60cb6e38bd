import StellarAlerts.AlertDecisions
import StellarAlerts.RuleMeaning

/-!
The thresholds of the Mini App.
-/
namespace StellarAlerts.AssetThresholds
open AlertDecisions
open IntegerText (trim)
open JsonTexts JsValues Numbers OrderedMaps RulesEngine
open Watcher (NormalizedPaymentEvent PaymentContext)

/-- Upper case, and the order of `localeCompare`. -/
structure Locale where
  toUpperCase : String → String
  notAfter : String → String → Bool

structure MiniAppAssetThreshold where
  asset : String
  minAmount : Number
deriving DecidableEq

structure ThresholdUpdate where
  asset : String
  minAmount : Option Number

section Updates
variable (l : Locale)

def codeOf (asset : String) : String := l.toUpperCase (String.ofList (trim asset.toList))

/-- An amount that is no finite number, or a negative one, removes the threshold. -/
def changeThreshold (thresholds : OrderedMap String Json) (code : String) : Option Number → OrderedMap String Json
  | some (.finite q) => if q < 0 then thresholds.delete code else thresholds.set code (.number (.finite q))
  | _ => thresholds.delete code

def applyAssetThreshold (existing : Option Json) (asset : String) (minAmount : Option Number) : Json :=
  let base := spread existing
  let thresholds := spread (base.get "assetThresholds")
  let code := codeOf l asset
  if code = "" then .object base.entries
  else .object (base.set "assetThresholds" (.object (changeThreshold thresholds code minAmount).entries)).entries

def finiteAmount : Json → Option ℚ
  | .number (.finite q) => some q
  | _ => none

def readAssetThresholds (filterRules : Option Json) : List MiniAppAssetThreshold :=
  match filterRules with
  | some (.object members) =>
    match lookup members "assetThresholds" with
    | some (.object raw) =>
      let finite := (OrderedMap.ofList raw).entries.filterMap fun e =>
        (finiteAmount e.2).map fun q => (⟨e.1,.finite q⟩ : MiniAppAssetThreshold)
      finite.mergeSort fun a b => l.notAfter a.asset b.asset
    | _ => []
  | _ => []

/-- The filter rules after updates, each of what the one before has stored. -/
def run (existing : Option Json) (updates : List ThresholdUpdate) : Option Json :=
  updates.foldl (fun filterRules u => some (applyAssetThreshold l filterRules u.asset u.minAmount)) existing

/-- The asset of the payment has a threshold above the amount. -/
def Below (filterRules : Option Json) (event : NormalizedPaymentEvent Number) : Prop :=
  ∃ t ∈ readAssetThresholds l filterRules, t.asset = codeOf l event.asset ∧ event.amount.lt t.minAmount = true

/-- Payments below their threshold are held back, and of the others the original rules decide. -/
def TakesEffect (r : Runtime) (existing : Option Json) (updates : List ThresholdUpdate)
    (event : NormalizedPaymentEvent Number) : Prop :=
  (Below l (run l existing updates) event → shouldSendAlert r [] (run l existing updates) event = .ok false) ∧
    (¬Below l (run l existing updates) event →
      shouldSendAlert r [] (run l existing updates) event = shouldSendAlert r [] existing event)

/-- The thresholds by the codes of their assets. -/
abbrev Thresholds := String → Option ℚ

def thresholdsOf (filterRules : Option Json) : Thresholds := fun code =>
  ((spread ((spread filterRules).get "assetThresholds")).get code).bind finiteAmount

def keptAmount : Option Number → Option ℚ
  | some (.finite q) => if q < 0 then none else some q
  | _ => none

/-- The last amount that is given for an asset counts. -/
def Thresholds.update (t : Thresholds) (u : ThresholdUpdate) : Thresholds :=
  if codeOf l u.asset = "" then t else Function.update t (codeOf l u.asset) (keptAmount u.minAmount)

end Updates

section Results
variable {l : Locale}

theorem mem_readAssetThresholds {filterRules : Option Json} {t : MiniAppAssetThreshold} :
    t ∈ readAssetThresholds l filterRules ↔ ∃ q, thresholdsOf filterRules t.asset = some q ∧ t.minAmount = .finite q := by
  cases filterRules with
  | none => simp [readAssetThresholds,thresholdsOf,spread]
  | some f =>
    cases f with
    | object members =>
      rw [readAssetThresholds,thresholdsOf,get_spread]
      cases lookup members "assetThresholds" with
      | none => simp [spread]
      | some stored =>
        cases stored with
        | object raw =>
          obtain ⟨asset,minAmount⟩ := t
          simp only [List.mem_mergeSort,List.mem_filterMap,spread,Option.bind_eq_some_iff,Option.map_eq_some_iff,
            MiniAppAssetThreshold.mk.injEq]
          constructor
          · rintro ⟨e,listed,q,amount,rfl,rfl⟩
            exact ⟨q,⟨e.2,get_eq_some.mpr listed,amount⟩,rfl⟩
          · rintro ⟨q,⟨value,found,amount⟩,rfl⟩
            exact ⟨(asset,value),get_eq_some.mp found,q,amount,rfl,rfl⟩
        | _ => simp [spread]
    | _ => simp [readAssetThresholds,thresholdsOf,spread]

theorem get_changeThreshold (thresholds : OrderedMap String Json) (code : String) (minAmount : Option Number) (k : String) :
    ((changeThreshold thresholds code minAmount).get k).bind finiteAmount =
      if k = code then keptAmount minAmount else (thresholds.get k).bind finiteAmount := by
  have removed : ((thresholds.delete code).get k).bind finiteAmount =
      if k = code then none else (thresholds.get k).bind finiteAmount := by
    rw [get_delete]
    split <;> rfl
  cases minAmount with
  | none => exact removed
  | some n =>
    cases n with
    | finite q =>
      rw [changeThreshold,keptAmount]
      by_cases negative : q < 0
      · rw [if_pos negative,if_pos negative,removed]
      · rw [if_neg negative,if_neg negative,get_set]
        split <;> rfl
    | _ => exact removed

section
variable (existing : Option Json)
include existing

theorem thresholdsOf_apply (u : ThresholdUpdate) :
    thresholdsOf (some (applyAssetThreshold l existing u.asset u.minAmount)) = (thresholdsOf existing).update l u := by
  funext code
  rw [applyAssetThreshold,Thresholds.update]
  by_cases blank : codeOf l u.asset = ""
  · rw [if_pos blank,if_pos blank,thresholdsOf,spread_entries,thresholdsOf]
  · rw [if_neg blank,if_neg blank,thresholdsOf,spread_entries,get_set,if_pos rfl,spread_entries,get_changeThreshold,
      Function.update_apply]
    rfl

theorem thresholdsOf_run (updates : List ThresholdUpdate) :
    thresholdsOf (run l existing updates) = updates.foldl (Thresholds.update l) (thresholdsOf existing) := by
  induction updates generalizing existing with
  | nil => rfl
  | cons u rest ih =>
    rw [run,List.foldl_cons,List.foldl_cons,← thresholdsOf_apply]
    exact ih _

theorem below_run_iff (updates : List ThresholdUpdate) (event : NormalizedPaymentEvent Number) :
    Below l (run l existing updates) event ↔
      ∃ q, updates.foldl (Thresholds.update l) (thresholdsOf existing) (codeOf l event.asset) = some q ∧
        event.amount.lt (.finite q) = true := by
  rw [← thresholdsOf_run]
  constructor
  · rintro ⟨⟨asset,minAmount⟩,listed,rfl,below⟩
    obtain ⟨q,threshold,rfl⟩ := mem_readAssetThresholds.mp listed
    exact ⟨q,threshold,below⟩
  · rintro ⟨q,threshold,below⟩
    exact ⟨⟨_,.finite q⟩,mem_readAssetThresholds.mpr ⟨q,threshold,rfl⟩,rfl,below⟩

theorem apply_frame (u : ThresholdUpdate) {key : String} (other : key ≠ "assetThresholds") :
    (spread (some (applyAssetThreshold l existing u.asset u.minAmount))).get key = (spread existing).get key := by
  rw [applyAssetThreshold]
  by_cases blank : codeOf l u.asset = ""
  · rw [if_pos blank,spread_entries]
  · rw [if_neg blank,spread_entries,get_set,if_neg other]

/-- No update touches what is stored under another key. -/
theorem run_frame (updates : List ThresholdUpdate) {key : String} (other : key ≠ "assetThresholds") :
    (spread (run l existing updates)).get key = (spread existing).get key := by
  induction updates generalizing existing with
  | nil => rfl
  | cons u rest ih =>
    have stored := ih (some (applyAssetThreshold l existing u.asset u.minAmount))
    rw [apply_frame existing u other] at stored
    exact stored

theorem run_object {updates : List ThresholdUpdate} (some_ : updates ≠ []) :
    ∃ members, run l existing updates = some (.object members) := by
  obtain ⟨before,u,rfl⟩ := (List.eq_nil_or_concat' updates).resolve_left some_
  rw [run,List.foldl_append,List.foldl_cons,List.foldl_nil,applyAssetThreshold]
  by_cases blank : codeOf l u.asset = ""
  · exact ⟨_,by rw [if_pos blank]⟩
  · exact ⟨_,by rw [if_neg blank]⟩

end

variable {context : PaymentContext Number}

theorem shouldAlert_congr {r : Runtime} {members members' : List (String × Json)}
    (rules : lookup members "rules" = lookup members' "rules")
    (operator : lookup members "operator" = lookup members' "operator") :
    shouldAlert r context (some (.object members)) = shouldAlert r context (some (.object members')) := by
  rw [shouldAlert,shouldAlert,rulesMember,rulesMember,evaluateRuleGroup,evaluateRuleGroup,rulesOf_eq,rulesOf_eq,rules,operator]
  rfl

theorem shouldAlert_without_rules {r : Runtime} {f : Json} (isTruthy : truthy f = true) (nothing : rulesMember f = none) :
    shouldAlert r context (some f) = .error typeError := by
  rw [shouldAlert,if_pos isTruthy,nothing]
  rfl

/-- Updates leave the decision as it is, or where nothing truthy was stored they make it throw. -/
theorem shouldAlert_run (r : Runtime) (context : PaymentContext Number) (existing : Option Json)
    (updates : List ThresholdUpdate) :
    shouldAlert r context (run l existing updates) =
      if updates = [] ∨ ∃ f, existing = some f ∧ truthy f = true then shouldAlert r context existing
      else .error typeError := by
  by_cases none_ : updates = []
  · rw [none_,if_pos (.inl rfl)]
    rfl
  · obtain ⟨members,stored⟩ := run_object (l := l) existing none_
    have frame : ∀ key, key ≠ "assetThresholds" → lookup members key = (spread existing).get key := by
      intro key other
      rw [← get_spread,← stored,run_frame existing updates other]
    have rules := frame "rules" (by decide)
    have operator := frame "operator" (by decide)
    have thrown : (spread existing).get "rules" = none →
        shouldAlert r context (run l existing updates) = .error typeError := by
      intro nothing
      rw [stored]
      exact shouldAlert_without_rules rfl (rules.trans nothing)
    cases existing with
    | none => rw [thrown rfl,if_neg (by simpa using none_)]
    | some f =>
      cases f with
      | object members' =>
        rw [get_spread] at rules operator
        rw [stored,shouldAlert_congr rules operator,if_pos (.inr ⟨_,rfl,rfl⟩)]
      | _ =>
        rw [thrown rfl]
        split
        next unchanged =>
          obtain ⟨f,same,isTruthy⟩ := unchanged.resolve_left none_
          obtain rfl := Option.some.inj same
          exact (shouldAlert_without_rules isTruthy rfl).symm
        next => rfl

/-- Updates take effect if and only if the payment is not below its threshold or refused
    by the rules anyway, and there are none or something truthy was stored before. -/
theorem takes_effect_iff (r : Runtime) (l : Locale) (existing : Option Json) (updates : List ThresholdUpdate)
    (event : NormalizedPaymentEvent Number) :
    TakesEffect l r existing updates event ↔
      ((∃ q, updates.foldl (Thresholds.update l) (thresholdsOf existing) (codeOf l event.asset) = some q ∧
          event.amount.lt (.finite q) = true) →
        ∃ f, existing = some f ∧ Evaluable r (contextOf event) f ∧ ¬Passes r (contextOf event) f) ∧
      (updates = [] ∨ ∃ f, existing = some f ∧ truthy f = true) := by
  rw [TakesEffect,shouldSendAlert_nil,shouldSendAlert_nil,shouldAlert_run,← below_run_iff,← shouldAlert_false_iff]
  by_cases unchanged : updates = [] ∨ ∃ f, existing = some f ∧ truthy f = true
  · simp [unchanged]
  · have decided : shouldAlert r (contextOf event) existing = .ok true := by
      cases existing with
      | none => rfl
      | some f =>
        have falsy : truthy f = false := by simpa using not_or.mp unchanged |>.2
        rw [shouldAlert,falsy]
        rfl
    simp only [unchanged,if_false,decided,and_false,iff_false]
    by_cases below : Below l (run l existing updates) event
    · simp [below]
    · simp [below]

end Results

def plainLocale : Locale := ⟨fun s => String.ofList (s.toList.map Char.toUpper),fun _ _ => true⟩

/-- A group without rules, which restricts nothing. -/
def emptyGroup : Json := .object [("operator",.string "AND"),("rules",.array [])]

/-- The payment of 10 is below the threshold of 100 and alerted, and where nothing was stored before the threshold throws. -/
theorem threshold_without_effect :
    ¬TakesEffect plainLocale plainRuntime (some emptyGroup) [⟨"xlm",some (.finite 100)⟩] payment ∧
      ¬TakesEffect plainLocale plainRuntime none [⟨"xlm",some (.finite 100)⟩] payment := by
  have threshold : ∀ existing, thresholdsOf existing "XLM" = some 100 → Below plainLocale existing payment :=
    fun existing stored => ⟨⟨"XLM",.finite 100⟩,mem_readAssetThresholds.mpr ⟨100,stored,rfl⟩,by decide,by decide⟩
  constructor
  · intro effective
    have held := effective.1 (threshold _ (by decide))
    revert held
    decide
  · intro effective
    have held := effective.1 (threshold _ (by decide))
    revert held
    decide

end StellarAlerts.AssetThresholds
