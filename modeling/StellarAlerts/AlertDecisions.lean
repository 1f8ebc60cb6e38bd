import StellarAlerts.RuleDispatch
import StellarAlerts.RulesEngine

/-!
Whether the watcher alerts on a payment, from what the payment's user has stored: the
alert rules if there are any, the filter rules of the preferences otherwise. A decision
is made exactly where the stored values have the form that is asked of them there
(`decides_iff`).
-/
namespace StellarAlerts.AlertDecisions
open JsonTexts JsValues Numbers RuleDispatch RulesEngine
open Watcher (NormalizedPaymentEvent PaymentContext)

/-- The engine on stored conditions, which count where they are truthy. -/
abbrev engine (r : Runtime) : Engine where
  Num := Number
  Conditions := Json
  atLeast a b := b.le a
  toLowerCase := r.texts.toLowerCase
  evaluateRuleGroup conditions context :=
    if truthy conditions then evaluateRuleGroup r context conditions else .ok true

section Decision
variable (r : Runtime)

def contextOf (event : NormalizedPaymentEvent Number) : PaymentContext Number :=
  ⟨event.amount,event.asset,event.fromAddress,event.memo⟩

/-- `shouldSendAlert` of a new payment. -/
def shouldSendAlert (alertRules : List (AlertRuleRecord (engine r))) (filterRules : Option Json)
    (event : NormalizedPaymentEvent Number) : Except String Bool :=
  match alertRules with
  | [] =>
    match filterRules with
    | none => .ok true
    | some f => if truthy f then shouldAlert r (contextOf event) (some f) else .ok true
  | rules =>
    match evaluateAlertRules (e := engine r) event rules with
    | .ok matched => .ok (!matched.isEmpty)
    | .error e => .error e

end Decision

section Decides
variable {r : Runtime}

theorem shouldSendAlert_nil (filterRules : Option Json) (event : NormalizedPaymentEvent Number) :
    shouldSendAlert r [] filterRules event = shouldAlert r (contextOf event) filterRules := by
  cases filterRules with
  | none => rfl
  | some f =>
    rw [shouldSendAlert,shouldAlert]
    cases truthy f <;> rfl

/-- An active rule for such payments: its conditions are evaluated. -/
def applies (rule : AlertRuleRecord (engine r)) (event : NormalizedPaymentEvent Number) : Bool :=
  rule.isActive && ruleAppliesToWallet rule event.walletId && ruleAppliesToAsset rule event.asset &&
    meetsMinimumAmount rule event.amount && meetsMaximumAmount rule event.amount && ruleAppliesToMemo rule event.memo

theorem matchesAlertRule_eq (rule : AlertRuleRecord (engine r)) (event : NormalizedPaymentEvent Number) :
    matchesAlertRule rule event =
      if applies rule event then
        match rule.conditions with
        | none => .ok true
        | some conditions => (engine r).evaluateRuleGroup conditions (contextOf event)
      else .ok false := by
  unfold matchesAlertRule applies
  cases rule.conditions <;> cases rule.isActive <;> cases ruleAppliesToWallet rule event.walletId <;>
    cases ruleAppliesToAsset rule event.asset <;> cases meetsMinimumAmount rule event.amount <;>
    cases meetsMaximumAmount rule event.amount <;> cases ruleAppliesToMemo rule event.memo <;> rfl

theorem matches_ok_iff (rule : AlertRuleRecord (engine r)) (event : NormalizedPaymentEvent Number) :
    (∃ b, matchesAlertRule rule event = .ok b) ↔
      (applies rule event = true → ∀ conditions : Json, rule.conditions = some conditions → truthy conditions = true →
        Evaluable r (contextOf event) conditions) := by
  rw [matchesAlertRule_eq]
  cases applies rule event with
  | false => simp
  | true =>
    cases rule.conditions with
    | none => simp
    | some conditions =>
      simp only [if_true,forall_const,Option.some.injEq,forall_eq']
      rw [← evaluates_iff]
      show (∃ b, (if truthy conditions then evaluateRuleGroup r (contextOf event) conditions else .ok true) = .ok b) ↔ _
      cases truthy conditions <;> simp

theorem evaluateAlertRules_ok_iff (rules : List (AlertRuleRecord (engine r))) (event : NormalizedPaymentEvent Number) :
    (∃ matched, evaluateAlertRules event rules = .ok matched) ↔ ∀ rule ∈ rules, ∃ b, matchesAlertRule rule event = .ok b := by
  induction rules with
  | nil => simp [evaluateAlertRules]
  | cons rule rest ih =>
    rw [evaluateAlertRules,List.forall_mem_cons,← ih]
    cases matchesAlertRule rule event <;> cases evaluateAlertRules event rest <;> simp

/-- The watcher decides whether to alert, and throws nothing, if and only if the conditions of the rules that apply are falsy or groups
    in form, and without rules the filter rules are falsy or have rules to look at. -/
theorem decides_iff (r : Runtime) (alertRules : List (AlertRuleRecord (engine r))) (filterRules : Option Json)
    (event : NormalizedPaymentEvent Number) :
    (∃ b, shouldSendAlert r alertRules filterRules event = .ok b) ↔
      (∀ rule ∈ alertRules, applies rule event = true → ∀ conditions : Json, rule.conditions = some conditions →
        truthy conditions = true → Evaluable r (contextOf event) conditions) ∧
      (alertRules = [] → ∀ f, filterRules = some f → truthy f = true →
        ∃ rules, rulesMember f = some rules ∧ isNull rules = false) := by
  cases alertRules with
  | nil =>
    simp only [List.not_mem_nil,false_imp_iff,implies_true,true_and,forall_const]
    rw [shouldSendAlert_nil]
    exact shouldAlert_ok_iff filterRules
  | cons rule rest =>
    simp only [reduceCtorEq,false_imp_iff,and_true]
    have each := evaluateAlertRules_ok_iff (rule :: rest) event
    simp only [matches_ok_iff] at each
    rw [← each]
    cases evaluated : evaluateAlertRules event (rule :: rest) with
    | error e => simp [shouldSendAlert,evaluated]
    | ok matched => exact iff_of_true ⟨!matched.isEmpty,by simp [shouldSendAlert,evaluated]⟩ ⟨matched,rfl⟩

end Decides

/-- A runtime whose texts are as good as none. -/
def plainRuntime : Runtime := ⟨⟨fun _ => .nan,fun _ => "",id⟩,fun _ => ""⟩

def payment : NormalizedPaymentEvent Number := ⟨"p","t","w","u",.finite 10,"XLM",none,"G",none,"2026-01-01T00:00:00.000Z"⟩
def emptyConditions : AlertRuleRecord (engine plainRuntime) := ⟨"r","u",none,[],none,none,none,some (.object []),true⟩

/-- An object without rules throws where it is stored, as conditions or as filter rules. -/
theorem empty_object_blocks :
    shouldSendAlert plainRuntime [emptyConditions] none payment = .error typeError ∧
      shouldSendAlert plainRuntime [] (some (.object [])) payment = .error typeError := by
  decide

end StellarAlerts.AlertDecisions
