import StellarAlerts.RulesEngine

/-!
What a group of rules says of a payment: all of its rules or, where its operator is not
AND, one of them, and nothing where it has none. The engine's answer is this meaning
wherever it has one (`evaluateRuleGroup_true_iff`), so a group refuses a payment where it
can be evaluated and the payment does not pass (`evaluateRuleGroup_false_iff`).
-/
namespace StellarAlerts.RulesEngine
open JsonTexts JsValues Numbers
open Watcher (PaymentContext)

inductive Passes (r : Runtime) (context : PaymentContext Number) : Json → Prop where
  | empty {members : List (String × Json)} (zero : lengthZero (lookup members "rules") = .ok true) :
      Passes r context (.object members)
  | all {members : List (String × Json)} {items : List Json} (there : lookup members "rules" = some (.array items))
      (conjunction : isText (lookup members "operator") "AND" = true)
      (groups : ∀ item ∈ items, isGroup item = true → Passes r context item)
      (single : ∀ item ∈ items, isGroup item = false → ∃ rule, item = .object rule ∧ evaluateRule r context rule = .ok true) :
      Passes r context (.object members)
  | group {members : List (String × Json)} {items : List Json} {item : Json}
      (there : lookup members "rules" = some (.array items))
      (disjunction : isText (lookup members "operator") "AND" = false) (listed : item ∈ items)
      (isOne : isGroup item = true) (passes : Passes r context item) : Passes r context (.object members)
  | rule {members : List (String × Json)} {items : List Json} {rule : List (String × Json)}
      (there : lookup members "rules" = some (.array items))
      (disjunction : isText (lookup members "operator") "AND" = false) (listed : .object rule ∈ items)
      (single : isGroup (.object rule) = false) (passes : evaluateRule r context rule = .ok true) :
      Passes r context (.object members)

variable {r : Runtime} {context : PaymentContext Number}

variable {results : List Bool}

theorem evaluateItems_eq_iff {items : List Json} :
    evaluateItems r context items = .ok results ↔ items.map (evaluateItem r context) = results.map Except.ok := by
  induction items generalizing results with
  | nil => cases results <;> simp [evaluateItems]
  | cons item rest ih =>
    rw [evaluateItems]
    cases first : evaluateItem r context item with
    | error e => cases results <;> simp [first]
    | ok b =>
      cases results with
      | nil => cases evaluateItems r context rest <;> simp
      | cons b' results =>
        rw [List.map_cons,List.map_cons,List.cons.injEq,← ih,first]
        cases evaluateItems r context rest <;> simp

theorem evaluateItems_all {items : List Json} (evaluated : evaluateItems r context items = .ok results) :
    (results.all fun result => result) = true ↔ ∀ item ∈ items, evaluateItem r context item = .ok true := by
  have all : (∀ result ∈ items.map (evaluateItem r context), result = .ok true) ↔ ∀ result ∈ results, result = true := by
    rw [evaluateItems_eq_iff.mp evaluated,List.forall_mem_map]
    simp only [Except.ok.injEq]
  rw [List.all_eq_true,← all,List.forall_mem_map]

theorem evaluateItems_any {items : List Json} (evaluated : evaluateItems r context items = .ok results) :
    (results.any fun result => result) = true ↔ ∃ item ∈ items, evaluateItem r context item = .ok true := by
  have any : (∃ result ∈ items.map (evaluateItem r context), result = .ok true) ↔ ∃ result ∈ results, result = true := by
    rw [evaluateItems_eq_iff.mp evaluated]
    simp
  rw [List.any_eq_true,← any]
  simp only [List.mem_map,exists_exists_and_eq_and]

theorem evaluateRuleGroup_items {members : List (String × Json)} {items : List Json}
    (there : lookup members "rules" = some (.array items)) (each : ∀ item ∈ items, ∃ b, evaluateItem r context item = .ok b) :
    evaluateRuleGroup r context (.object members) = .ok true ↔ items = [] ∨
      if isText (lookup members "operator") "AND" then ∀ item ∈ items, evaluateItem r context item = .ok true
      else ∃ item ∈ items, evaluateItem r context item = .ok true := by
  obtain ⟨results,evaluated⟩ := (evaluateItems_ok_iff items).mpr each
  have all := evaluateItems_all evaluated
  have any := evaluateItems_any evaluated
  have value : evaluateRuleGroup r context (.object members) = .ok (combine (lookup members "operator") results) := by
    rw [evaluateRuleGroup,rulesOf_eq,there,Option.map_some,evaluateRules,evaluated]
    rfl
  rw [value,Except.ok.injEq,combine]
  have lengths : items.length = results.length := by simpa using congrArg List.length (evaluateItems_eq_iff.mp evaluated)
  cases results with
  | nil =>
    obtain rfl := List.eq_nil_of_length_eq_zero lengths
    simp
  | cons result results =>
    have some_ : items ≠ [] := List.ne_nil_of_length_eq_add_one lengths
    simp only [List.isEmpty_cons,Bool.false_eq_true,if_false,some_,false_or]
    cases isText (lookup members "operator") "AND"
    · simpa using any
    · simpa using all

def PassesItem (r : Runtime) (context : PaymentContext Number) (item : Json) : Prop :=
  if isGroup item then Passes r context item else ∃ rule, item = .object rule ∧ evaluateRule r context rule = .ok true

theorem passes_items {members : List (String × Json)} {items : List Json}
    (there : lookup members "rules" = some (.array items)) :
    Passes r context (.object members) ↔ items = [] ∨
      if isText (lookup members "operator") "AND" then ∀ item ∈ items, PassesItem r context item
      else ∃ item ∈ items, PassesItem r context item := by
  constructor
  · intro passes
    cases passes with
    | empty zero =>
      rw [there] at zero
      simp only [lengthZero,Except.ok.injEq,List.isEmpty_iff] at zero
      exact .inl zero
    | all there' conjunction groups single =>
      obtain rfl : items = _ := Json.array.inj (Option.some.inj (there.symm.trans there'))
      rw [if_pos conjunction]
      refine .inr fun item listed => ?_
      rw [PassesItem]
      split
      next isOne => exact groups item listed isOne
      next kind => exact single item listed (by simpa using kind)
    | @group _ _ item there' disjunction listed isOne passed =>
      obtain rfl : items = _ := Json.array.inj (Option.some.inj (there.symm.trans there'))
      rw [disjunction]
      refine .inr ⟨item,listed,?_⟩
      rw [PassesItem,if_pos isOne]
      exact passed
    | @rule _ _ rule there' disjunction listed kind passed =>
      obtain rfl : items = _ := Json.array.inj (Option.some.inj (there.symm.trans there'))
      rw [disjunction]
      refine .inr ⟨.object rule,listed,?_⟩
      rw [PassesItem,kind]
      exact ⟨rule,rfl,passed⟩
  · rintro (rfl | passes)
    · exact .empty (there ▸ rfl)
    · cases conjunction : isText (lookup members "operator") "AND" with
      | true =>
        rw [if_pos conjunction] at passes
        refine .all there conjunction (fun item listed isOne => ?_) fun item listed kind => ?_
        · simpa only [PassesItem,isOne,if_true] using passes item listed
        · simpa only [PassesItem,kind,Bool.false_eq_true,if_false] using passes item listed
      | false =>
        rw [conjunction] at passes
        obtain ⟨item,listed,passed⟩ := passes
        rw [PassesItem] at passed
        split at passed
        next isOne => exact .group there conjunction listed isOne passed
        next kind =>
          obtain ⟨rule,rfl,passed⟩ := passed
          exact .rule there conjunction listed (by simpa using kind) passed

theorem evaluateItem_single {item : Json} (kind : isGroup item = false) :
    evaluateItem r context item = .ok true ↔ ∃ rule, item = .object rule ∧ evaluateRule r context rule = .ok true := by
  cases item with
  | object members =>
    rw [evaluateItem_object kind]
    simp
  | _ => simp [evaluateItem]

theorem evaluateRules_of_zero {rules : Json} (zero : lengthZero (some rules) = .ok true) :
    evaluateRules r context rules = .ok [] := by
  cases rules with
  | array items =>
    simp only [lengthZero,Except.ok.injEq,List.isEmpty_iff] at zero
    rw [zero,evaluateRules,evaluateItems]
  | string s =>
    simp only [lengthZero,Except.ok.injEq,decide_eq_true_eq] at zero
    rw [evaluateRules,if_pos zero]
  | object members =>
    rw [lengthZero] at zero
    rw [evaluateRules]
    split at zero
    next n _ =>
      simp only [Except.ok.injEq,decide_eq_true_eq] at zero
      rw [if_pos zero]
    next => cases zero
  | _ => simp [lengthZero] at zero

/-- The engine's answer is what the group means. -/
theorem evaluateRuleGroup_true_iff {g : Json} (evaluable : Evaluable r context g) :
    evaluateRuleGroup r context g = .ok true ↔ Passes r context g := by
  induction evaluable with
  | @empty members zero =>
    refine iff_of_true ?_ (.empty zero)
    cases there : lookup members "rules" with
    | none => rw [there] at zero; cases zero
    | some rules =>
      have nothing : evaluateRules r context rules = .ok [] := evaluateRules_of_zero (there ▸ zero)
      rw [evaluateRuleGroup,rulesOf_eq,there,Option.map_some,nothing]
      rfl
  | @rules members items there groups single ih =>
    have each : ∀ item ∈ items, ∃ b, evaluateItem r context item = .ok b := by
      intro item listed
      cases kind : isGroup item with
      | true => exact evaluateItem_group kind ▸ (evaluates_iff item).mpr (groups item listed kind)
      | false => exact (evaluateItem_rule kind).mpr (single item listed kind)
    have same : ∀ item ∈ items, evaluateItem r context item = .ok true ↔ PassesItem r context item := by
      intro item listed
      cases kind : isGroup item with
      | true =>
        rw [evaluateItem_group kind,PassesItem,if_pos kind]
        exact ih item listed kind
      | false =>
        rw [evaluateItem_single kind,PassesItem,kind]
        rfl
    rw [evaluateRuleGroup_items there each,passes_items there]
    split
    next => exact or_congr_right (forall₂_congr same)
    next => exact or_congr_right (exists_congr fun item => and_congr_right (same item))

/-- A group refuses a payment that does not pass it. -/
theorem evaluateRuleGroup_false_iff (g : Json) :
    evaluateRuleGroup r context g = .ok false ↔ Evaluable r context g ∧ ¬Passes r context g := by
  constructor
  · intro refuses
    have evaluable := (evaluates_iff g).mp ⟨false,refuses⟩
    refine ⟨evaluable,fun passes => ?_⟩
    have accepts := (evaluateRuleGroup_true_iff evaluable).mpr passes
    rw [refuses] at accepts
    cases accepts
  · rintro ⟨evaluable,fails⟩
    obtain ⟨b,answers⟩ := (evaluates_iff g).mpr evaluable
    cases b with
    | true => exact absurd ((evaluateRuleGroup_true_iff evaluable).mp answers) fails
    | false => exact answers

/-- Filter rules hold back the payments that they refuse, and no others. -/
theorem shouldAlert_false_iff (filterRules : Option Json) :
    shouldAlert r context filterRules = .ok false ↔
      ∃ f, filterRules = some f ∧ Evaluable r context f ∧ ¬Passes r context f := by
  cases filterRules with
  | none => simp [shouldAlert]
  | some f =>
    simp only [Option.some.injEq,exists_eq_left']
    rw [← evaluateRuleGroup_false_iff,shouldAlert]
    constructor
    · intro blocked
      cases isTruthy : truthy f with
      | false => simp [isTruthy] at blocked
      | true =>
        simp only [isTruthy,if_true] at blocked
        cases length : lengthZero (rulesMember f) with
        | error e => simp [length] at blocked
        | ok zero =>
          cases zero with
          | true => simp [length] at blocked
          | false => cases answer : evaluateRuleGroup r context f <;> simp_all
    · intro refuses
      obtain ⟨evaluable,fails⟩ := (evaluateRuleGroup_false_iff f).mp refuses
      have array : ∃ items, rulesMember f = some (.array items) ∧ items ≠ [] := by
        cases evaluable with
        | empty zero => exact absurd (.empty zero) fails
        | @rules members items there groups single =>
          refine ⟨items,there,?_⟩
          rintro rfl
          exact fails (.empty (there ▸ rfl))
      have isTruthy : truthy f = true := by cases evaluable <;> rfl
      obtain ⟨items,there,some_⟩ := array
      have length : lengthZero (rulesMember f) = .ok false := by simpa [there,lengthZero] using some_
      simp [isTruthy,length,refuses]

/-- The evaluator accepts and refuses as the group means it, and throws just where there is no group in form. -/
theorem evaluateRuleGroup_adequate (r : Runtime) (context : PaymentContext Number) (g : Json) :
    (evaluateRuleGroup r context g = .ok true ↔ Evaluable r context g ∧ Passes r context g) ∧
    (evaluateRuleGroup r context g = .ok false ↔ Evaluable r context g ∧ ¬Passes r context g) ∧
    ((∃ e, evaluateRuleGroup r context g = .error e) ↔ ¬Evaluable r context g) := by
  refine ⟨⟨fun accepts => ?_,fun ⟨evaluable,passes⟩ => (evaluateRuleGroup_true_iff evaluable).mpr passes⟩,
    evaluateRuleGroup_false_iff g,?_⟩
  · have evaluable := (evaluates_iff g).mp ⟨true,accepts⟩
    exact ⟨evaluable,(evaluateRuleGroup_true_iff evaluable).mp accepts⟩
  · rw [← evaluates_iff]
    cases evaluateRuleGroup r context g <;> simp

end StellarAlerts.RulesEngine
