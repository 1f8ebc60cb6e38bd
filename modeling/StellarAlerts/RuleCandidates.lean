import StellarAlerts.AlertDecisions

/-!
The candidate rules of a payment, which the rule repository looks for in the database,
beside those that the evaluator matches. The repository never asks whose rule it is nor
for its conditions, keeps amounts that do not compare, and takes a blank memo at its
word; the two agree exactly where no stored rule for the payment differs in one of these
(`agree_iff`).
-/
namespace StellarAlerts.RuleCandidates
open AlertDecisions
open IntegerText (trim)
open JsonTexts
open JsValues (truthy)
open Numbers RuleDispatch
open RulesEngine (Runtime evaluateRuleGroup)
open Watcher (NormalizedPaymentEvent)

section Repository
variable {r : Runtime}

/-- The `where` of the query: an active rule of the wallet, or of any. -/
def selected (rule : AlertRuleRecord (engine r)) (walletId : String) : Bool :=
  rule.isActive && (rule.walletId == some walletId || rule.walletId == none)

def outOfBounds (rule : AlertRuleRecord (engine r)) (numAmount : Number) : Bool :=
  rule.minAmount.any (fun minAmount => numAmount.lt minAmount) ||
    rule.maxAmount.any fun maxAmount => Number.lt maxAmount numAmount

/-- `rule.memo && (!memo || !memo.toLowerCase().includes(rule.memo.toLowerCase()))`. -/
def lacksMemo (rule : AlertRuleRecord (engine r)) (memo : Option String) : Bool :=
  match rule.memo with
  | none => false
  | some wanted =>
    if wanted.toList.isEmpty then false
    else
      match memo with
      | none => true
      | some memo =>
        if memo.toList.isEmpty then true
        else !decide (((engine r).toLowerCase wanted).toList <:+: ((engine r).toLowerCase memo).toList)

/-- The filter on the rows that the query answers. -/
def keeps (rule : AlertRuleRecord (engine r)) (asset : String) (numAmount : Number) (memo : Option String) : Bool :=
  if !rule.assets.isEmpty && !rule.assets.contains asset then false
  else if rule.minAmount.any fun minAmount => numAmount.lt minAmount then false
  else if rule.maxAmount.any fun maxAmount => Number.lt maxAmount numAmount then false
  else if lacksMemo rule memo then false
  else true

def findActiveRulesForPayment (alertRule : List (AlertRuleRecord (engine r))) (walletId asset : String) (amount : Number)
    (memo : Option String) : List (AlertRuleRecord (engine r)) :=
  (alertRule.filter fun rule => selected rule walletId).filter fun rule => keeps rule asset amount memo

/-- `matchesAlertRule` is true. -/
def matched (rule : AlertRuleRecord (engine r)) (event : NormalizedPaymentEvent Number) : Bool :=
  match matchesAlertRule rule event with
  | .ok matched => matched
  | .error _ => false

def matchedRules (alertRule : List (AlertRuleRecord (engine r))) (event : NormalizedPaymentEvent Number) :
    List (AlertRuleRecord (engine r)) :=
  alertRule.filter fun rule => rule.userId == event.userId && rule.isActive && matched rule event

def inScope (rule : AlertRuleRecord (engine r)) (event : NormalizedPaymentEvent Number) : Bool :=
  rule.isActive && ruleAppliesToWallet rule event.walletId && ruleAppliesToAsset rule event.asset

/-- The amount and the bounds that there are can be compared. -/
def Comparable (rule : AlertRuleRecord (engine r)) (amount : Number) : Prop :=
  (∀ minAmount : Number, rule.minAmount = some minAmount → amount ≠ .nan ∧ minAmount ≠ .nan) ∧
    ∀ maxAmount : Number, rule.maxAmount = some maxAmount → amount ≠ .nan ∧ maxAmount ≠ .nan

def ConditionsHold (rule : AlertRuleRecord (engine r)) (event : NormalizedPaymentEvent Number) : Prop :=
  ∀ conditions : Json, rule.conditions = some conditions → truthy conditions = true →
    evaluateRuleGroup r (contextOf event) conditions = .ok true

/-- What the repository does not ask for: the rule is the user's, its amounts compare and its conditions hold. -/
def Fires (rule : AlertRuleRecord (engine r)) (event : NormalizedPaymentEvent Number) : Prop :=
  rule.userId = event.userId ∧ Comparable rule event.amount ∧ ConditionsHold rule event

def blankMemo (rule : AlertRuleRecord (engine r)) : Bool := rule.memo.any fun wanted => (trim wanted.toList).isEmpty

variable {rule : AlertRuleRecord (engine r)} {event : NormalizedPaymentEvent Number}

theorem selected_eq (rule : AlertRuleRecord (engine r)) (walletId : String) :
    selected rule walletId = (rule.isActive && ruleAppliesToWallet rule walletId) := by
  unfold selected ruleAppliesToWallet
  cases rule.walletId with
  | none => simp
  | some own => simp

theorem kept_iff :
    (selected rule event.walletId && keeps rule event.asset event.amount event.memo) = true ↔
      inScope rule event = true ∧ outOfBounds rule event.amount = false ∧ lacksMemo rule event.memo = false := by
  rw [selected_eq]
  unfold keeps inScope outOfBounds ruleAppliesToAsset
  cases rule.assets.isEmpty <;> cases rule.assets.contains event.asset <;> cases lacksMemo rule event.memo <;>
    cases rule.minAmount.any (fun minAmount => event.amount.lt minAmount) <;>
    cases rule.maxAmount.any (fun maxAmount => Number.lt maxAmount event.amount) <;> simp

theorem meets_iff :
    meetsMinimumAmount rule event.amount = true ∧ meetsMaximumAmount rule event.amount = true ↔
      outOfBounds rule event.amount = false ∧ Comparable rule event.amount := by
  unfold meetsMinimumAmount meetsMaximumAmount outOfBounds Comparable
  have lower : (rule.minAmount.all fun minAmount => (engine r).atLeast event.amount minAmount) = true ↔
      (rule.minAmount.any fun minAmount => event.amount.lt minAmount) = false ∧
        ∀ minAmount : Number, rule.minAmount = some minAmount → event.amount ≠ .nan ∧ minAmount ≠ .nan := by
    cases rule.minAmount with
    | none => simp
    | some minAmount =>
      simp only [Option.all_some,Option.any_some,Option.some.injEq,forall_eq']
      exact le_iff_not_lt.trans (by tauto)
  have upper : (rule.maxAmount.all fun maxAmount => (engine r).atLeast maxAmount event.amount) = true ↔
      (rule.maxAmount.any fun maxAmount => Number.lt maxAmount event.amount) = false ∧
        ∀ maxAmount : Number, rule.maxAmount = some maxAmount → event.amount ≠ .nan ∧ maxAmount ≠ .nan := by
    cases rule.maxAmount with
    | none => simp
    | some maxAmount =>
      simp only [Option.all_some,Option.any_some,Option.some.injEq,forall_eq']
      exact le_iff_not_lt.trans (by tauto)
  rw [lower,upper,Bool.or_eq_false_iff]
  tauto

theorem memo_iff : ruleAppliesToMemo rule event.memo = true ↔ lacksMemo rule event.memo = false ∨ blankMemo rule = true := by
  unfold ruleAppliesToMemo lacksMemo blankMemo
  cases rule.memo with
  | none => simp
  | some wanted =>
    by_cases blank : (trim wanted.toList).isEmpty = true
    · simp [blank]
    · have some_ : wanted.toList.isEmpty = false := by
        rw [← Bool.not_eq_true]
        intro empty
        rw [List.isEmpty_iff.mp empty] at blank
        exact blank rfl
      cases event.memo with
      | none => simp [blank,some_]
      | some memo => cases empty : memo.toList.isEmpty <;> simp [blank,some_,empty]

theorem matched_applies : matched rule event = true ↔ applies rule event = true ∧ ConditionsHold rule event := by
  unfold matched ConditionsHold
  rw [matchesAlertRule_eq]
  cases applies rule event with
  | false => simp
  | true =>
    rw [if_pos rfl]
    cases rule.conditions with
    | none => simp
    | some conditions =>
      simp only [Option.some.injEq,forall_eq',true_and]
      change (match (if truthy conditions then evaluateRuleGroup r (contextOf event) conditions else .ok true) with
        | .ok matched => matched
        | .error _ => false) = true ↔ _
      cases truthy conditions with
      | false => simp
      | true =>
        simp only [if_true,forall_const]
        cases evaluateRuleGroup r (contextOf event) conditions <;> simp

theorem matched_iff :
    (rule.userId == event.userId && rule.isActive && matched rule event) = true ↔
      inScope rule event = true ∧ outOfBounds rule event.amount = false ∧
        (lacksMemo rule event.memo = false ∨ blankMemo rule = true) ∧ Fires rule event := by
  have scope : applies rule event = true ↔ inScope rule event = true ∧
      (outOfBounds rule event.amount = false ∧ Comparable rule event.amount) ∧
        (lacksMemo rule event.memo = false ∨ blankMemo rule = true) := by
    rw [← meets_iff,← memo_iff,applies,inScope]
    simp only [Bool.and_eq_true]
    tauto
  have active : applies rule event = true → rule.isActive = true := by
    intro applied
    simp only [applies,Bool.and_eq_true] at applied
    tauto
  rw [Bool.and_eq_true,Bool.and_eq_true,beq_iff_eq,matched_applies,Fires]
  constructor
  · rintro ⟨⟨own,_⟩,applied,hold⟩
    obtain ⟨within,⟨bounds,comparable⟩,memo⟩ := scope.mp applied
    exact ⟨within,bounds,memo,own,comparable,hold⟩
  · rintro ⟨within,bounds,memo,own,comparable,hold⟩
    have applied := scope.mpr ⟨within,⟨bounds,comparable⟩,memo⟩
    exact ⟨⟨own,active applied⟩,applied,hold⟩

/-- Two tests that keep the same elements of a list agree on them. -/
theorem filter_eq_iff {α : Type} {p q : α → Bool} {items : List α} :
    items.filter p = items.filter q ↔ ∀ a ∈ items, (p a = true ↔ q a = true) := by
  constructor
  · intro same a listed
    have member : a ∈ items.filter p ↔ a ∈ items.filter q := by rw [same]
    simpa [List.mem_filter,listed] using member
  · intro agree
    exact List.filter_congr fun a listed => Bool.eq_iff_iff.mpr (agree a listed)

/-- For every set of stored rules and every payment, the repository finds the rules that the evaluator matches if and only if of the
    rules in scope whose bounds the amount does not miss, each whose memo it takes fires, and none fires with a blank memo that it does
    not take. -/
theorem agree_iff (alertRule : List (AlertRuleRecord (engine r))) (event : NormalizedPaymentEvent Number) :
    findActiveRulesForPayment alertRule event.walletId event.asset event.amount event.memo = matchedRules alertRule event ↔
      ∀ rule ∈ alertRule, inScope rule event = true → outOfBounds rule event.amount = false →
        (lacksMemo rule event.memo = false → Fires rule event) ∧
          (lacksMemo rule event.memo = true → blankMemo rule = true → ¬ Fires rule event) := by
  rw [findActiveRulesForPayment,List.filter_filter,matchedRules,filter_eq_iff]
  refine forall₂_congr fun rule _ => ?_
  rw [Bool.and_comm,kept_iff,matched_iff]
  cases lacksMemo rule event.memo with
  | false =>
    simp only [true_or,and_true,true_and,forall_const,Bool.false_eq_true,false_implies]
    tauto
  | true =>
    simp only [Bool.true_eq_false,false_or,and_false,false_implies,forall_const,true_and,false_iff]
    tauto

/-- A rule of another user for any wallet. -/
def foreignRule : AlertRuleRecord (engine plainRuntime) := ⟨"r","other",none,[],none,none,none,none,true⟩

/-- The repository finds it for a payment to the first user's wallet. -/
theorem foreign_found : ¬ ∀ (r : Runtime) (alertRule : List (AlertRuleRecord (engine r)))
    (event : NormalizedPaymentEvent Number),
    findActiveRulesForPayment alertRule event.walletId event.asset event.amount event.memo = matchedRules alertRule event := by
  intro all
  have same := congrArg List.length (all plainRuntime [foreignRule] payment)
  exact absurd same (by decide)

end Repository
end StellarAlerts.RuleCandidates
